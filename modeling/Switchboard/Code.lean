/-!
Generated code as a tree of lines. A block says nothing but "one level deeper", so a tree is known by
its lines and their levels, and rendering writes each line behind one copy of the indentation per
level. Empty lines stay empty at every level.
-/

namespace Switchboard

/-- A line, or code one level deeper. -/
inductive Code
  | line (text : String)
  | block (items : List Code)

namespace Code

structure Line where
  level : Nat
  text : String
deriving DecidableEq, Repr

mutual

/-- The lines of an item that stands at a level, in order. -/
def lines (level : Nat) : Code → List Line
  | line text => [⟨level, text⟩]
  | block items => linesOf (level + 1) items

def linesOf (level : Nat) : List Code → List Line
  | [] => []
  | item :: rest => lines level item ++ linesOf level rest

end

/-- A line as it is written, with its line feed. -/
def Line.render (indent : String) (line : Line) : String :=
  if line.text = "" then "\n"
  else String.join (List.replicate line.level indent) ++ line.text ++ "\n"

def render (indent : String) (code : List Code) : String :=
  String.join ((linesOf 0 code).map (·.render indent))

@[simp] theorem linesOf_nil (level : Nat) : linesOf level [] = [] := by
  simp [linesOf]

@[simp] theorem linesOf_cons (level : Nat) (item : Code) (rest : List Code) :
    linesOf level (item :: rest) = lines level item ++ linesOf level rest := by
  simp [linesOf]

theorem linesOf_append (level : Nat) (some more : List Code) :
    linesOf level (some ++ more) = linesOf level some ++ linesOf level more := by
  induction some with
  | nil => simp
  | cons item rest ih => simp [ih, List.append_assoc]

/-- Lines at one level stay at it. -/
theorem linesOf_map_line (level : Nat) (texts : List String) :
    linesOf level (texts.map line) = texts.map (⟨level, ·⟩) := by
  induction texts with
  | nil => simp
  | cons text rest ih => simp [lines, ih]

end Code

end Switchboard
