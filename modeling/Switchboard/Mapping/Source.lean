import Switchboard.Config
import Switchboard.Entry
import Switchboard.Fault
import Switchboard.Text.Blank
import Switchboard.Text.Lines
import Switchboard.Text.Word

/-!
Reading the text of a mapping. Line 1 is the marker line, whose content matters only when a marker
is configured. Every line after it holds exactly two fields, an identifier and a handler type; there
are no comments and no empty lines. Faults are reported from the top, so the first bad line is the
one blamed, and the marker is judged before all of them.
-/

namespace Switchboard.Mapping

def occursIn (part : List Char) : List Char → Bool
  | [] => part.isEmpty
  | c :: rest => part.isPrefixOf (c :: rest) || occursIn part rest

/-- Whether the first line passes for a marker line. A text without lines has no marker. -/
def hasMarker (marker : String) : List (List Char) → Bool
  | [] => false
  | first :: _ => occursIn marker.toList first

def readLine (width : Width) (text : List Char) : Except LineFault (Identifier × String) :=
  match Text.fields text with
  | [] => .error .empty
  | [field, name] =>
    match Identifier.read width (String.ofList field) with
    | .error fault => .error (.identifier fault)
    | .ok identifier =>
      if Text.isWord (String.ofList name) then .ok (identifier, String.ofList name)
      else .error (.handlerName (String.ofList name))
  | fields => .error (.fieldCount fields.length)

/-- The entries on the given lines, the first of which has number `line`. -/
def readLines (mapping : String) (width : Width) (line : Nat) :
    List (List Char) → Except Fault (List Entry)
  | [] => .ok []
  | text :: rest =>
    match readLine width text with
    | .error fault => .error (.line mapping line fault)
    | .ok (identifier, typeName) =>
      (readLines mapping width (line + 1) rest).map (⟨identifier, typeName, line⟩ :: ·)

/-- The entries of a mapping text, in order. Identifiers may repeat here. -/
def readEntries (mapping source : String) (config : Config) : Except Fault (List Entry) :=
  let lines := Text.lines source.toList
  match config.marker with
  | none => readLines mapping config.width 2 lines.tail
  | some marker =>
    if hasMarker marker lines then readLines mapping config.width 2 lines.tail
    else .error (.line mapping 1 (.missingMarker marker))

theorem occursIn_iff {part text : List Char} : occursIn part text ↔ part <:+: text := by
  induction text with
  | nil => simp [occursIn]
  | cons c rest ih => simp [occursIn, ih, List.infix_cons_iff]

end Switchboard.Mapping
