import Mathlib.Logic.Function.Iterate
import Switchboard.Command
import Switchboard.Proofs.Command.Documented
import Switchboard.Proofs.Identifier.Reading

/-!
What the arguments behind a command mean. An argument of a well-formed command line is a flag with its
value, one more `-v`, or an operand. The value of each is described by what may be written for it
(`Setting.Spelled`, `Positional.Spelled`), and what is written is a value of the argument as its
signature has it.

Flags and operands touch different values, and so do any two different flags. So every flag that is
given has its own value at the end, and every other argument has the values it had before the flags.
-/

namespace Switchboard.Command

/-! ### Flags -/

def Coloring.name : Coloring → String
  | auto => "auto"
  | always => "always"
  | never => "never"

/-- A flag with a value. -/
inductive Setting
  | width (width : Width)
  | marker (text : String)
  | outRoot (path : Path)
  | indent (indent : Indent)
  | tableLimit (limit : Nat)
  | color (coloring : Coloring)

namespace Setting

def flag : Setting → Flag
  | width _ => .width
  | marker _ => .marker
  | outRoot _ => .outRoot
  | indent _ => .indent
  | tableLimit _ => .tableLimit
  | color _ => .color

/-- The value as an engine finds it. -/
def value : (setting : Setting) → setting.flag.id.Value
  | width w => w.name
  | marker text => text
  | outRoot path => path
  | indent i => i
  | tableLimit limit => limit
  | color coloring => coloring.name

/-- The text is a value of the flag, and the one of the setting. -/
def Spelled : Setting → String → Prop
  | width w, text => text = w.name
  | marker content, text => text = content
  | outRoot path, text => text = path.text ∧ text ≠ ""
  | indent .tab, text => text = "tab"
  | indent (.spaces count), text => Text.IsDecimal text.toList count ∧ 1 ≤ count ∧ count ≤ 255
  | tableLimit limit, text =>
    Text.IsDecimal text.toList limit ∧ 1 ≤ limit ∧ limit ≤ 0xffffffffffffffff
  | color coloring, text => text = coloring.name

theorem readIndent_of_spelled {indent : Indent} {text : String}
    (h : (Setting.indent indent).Spelled text) : readIndent text = .ok indent := by
  cases indent with
  | tab =>
      obtain rfl : text = "tab" := h
      rfl
  | spaces count =>
      obtain ⟨hdecimal, hpos, hmax⟩ := h
      have htab : text ≠ "tab" := by
        rintro rfl
        exact absurd (hdecimal.2.1 't' (by decide)) (by decide)
      have hread : Text.decimal Indent.maxSpaces text = .ok count :=
        Text.decimal_of_isDecimal hdecimal hmax
      have hname : Indent.ofName? text = some (.spaces count) := by
        rw [Indent.ofName?, if_neg htab, hread]
        rfl
      rw [readIndent, hname]
      obtain ⟨count, rfl⟩ := Nat.exists_eq_add_of_le' hpos
      rfl

/-- What is written for a flag is a value of it. -/
theorem accepts_of_spelled {setting : Setting} {text : String} (h : setting.Spelled text) :
    setting.flag.kind.Accepts text setting.value := by
  cases setting with
  | width w =>
      obtain rfl : text = w.name := h
      exact ⟨rfl, by cases w <;> decide⟩
  | marker content => exact Eq.symm h
  | outRoot path =>
      obtain ⟨rfl, hne⟩ := h
      exact ⟨rfl, hne⟩
  | indent i => exact readIndent_of_spelled h
  | tableLimit limit =>
      obtain ⟨hdecimal, hpos, hmax⟩ := h
      exact ⟨hdecimal, hpos, Nat.lt_of_le_of_lt hmax (by decide)⟩
  | color coloring =>
      obtain rfl : text = coloring.name := h
      exact ⟨rfl, by cases coloring <;> decide⟩

end Setting

/-! ### Operands -/

/-- The value of an operand; of identifiers, one of them. -/
inductive Positional
  | strategy (strategy : Strategy)
  | mapping (path : Path)
  | directory (path : Path)
  | identifier (x : Identifier)

namespace Positional

def operand : Positional → Operand
  | strategy _ => .strategy
  | mapping _ => .mapping
  | directory _ => .directory
  | identifier _ => .identifiers

/-- The value as an engine finds it. -/
def value : (positional : Positional) → positional.operand.id.Value
  | strategy s => s.name
  | mapping path => path
  | directory path => path
  | identifier x => x

/-- The text stands for the operand and is not taken for a flag. -/
def Spelled : Positional → String → Prop
  | strategy s, text => text = s.name
  | mapping path, text | directory path, text =>
    text = path.text ∧ text ≠ "" ∧ text.toList.head? ≠ some '-'
  | identifier x, text => Identifier.Denotes text.toList x.toNat

variable {positional : Positional} {text : String}

theorem readIdentifier_of_denotes {x : Identifier} (h : Identifier.Denotes text.toList x.toNat) :
    readIdentifier text = .ok x := by
  have hcontains : Width.contains .u32 x.toNat := by
    have hx := x.toNat_lt
    have hmax : Width.max .u32 = 2 ^ 32 - 1 := rfl
    rw [Width.contains, hmax, decide_eq_true_eq]
    omega
  rw [readIdentifier, Identifier.read_eq_ok_iff.2 ⟨h, hcontains⟩]

theorem accepts_of_spelled (h : positional.Spelled text) :
    positional.operand.kind.Accepts text positional.value := by
  cases positional with
  | strategy s =>
      obtain rfl : text = s.name := h
      exact ⟨rfl, by cases s <;> decide⟩
  | mapping path | directory path =>
      obtain ⟨rfl, hne, -⟩ := h
      exact ⟨rfl, hne⟩
  | identifier x => exact readIdentifier_of_denotes h

theorem head?_of_spelled (h : positional.Spelled text) : text.toList.head? ≠ some '-' := by
  cases positional with
  | strategy s =>
      obtain rfl : text = s.name := h
      cases s <;> decide
  | mapping path | directory path => exact h.2.2
  | identifier x =>
      intro hhead
      have hword := (Identifier.Denotes.isWordChar h).2 '-' (List.mem_of_head? hhead)
      exact absurd hword (by decide)

end Positional

/-! ### Arguments -/

/-- An argument behind the command, with what it stands for. -/
inductive Argument
  | setting (setting : Setting) (text : String)
  | verbose
  | positional (positional : Positional) (text : String)

namespace Argument

def token : Argument → Token
  | setting s text => .flag s.flag text s.value
  | verbose => .counter .verbose
  | positional _ text => .word text

def text (argument : Argument) : String :=
  argument.token.text

def Spelled : Argument → Prop
  | setting s text => s.Spelled text
  | verbose => True
  | positional p text => p.Spelled text

/-- The command takes the flag. -/
def IsAccepted (verb : Verb) : Argument → Prop
  | setting s _ => s.flag ∈ verb.flags
  | verbose => .verbose ∈ verb.counters
  | positional _ _ => True

def setting? : Argument → Option Setting
  | setting s _ => some s
  | verbose | positional _ _ => none

def positional? : Argument → Option Positional
  | positional p _ => some p
  | setting _ _ | verbose => none

def isVerbose : Argument → Bool
  | verbose => true
  | setting _ _ | positional _ _ => false

variable {verb : Verb} {argument : Argument}

theorem isOf_token (hspelled : argument.Spelled) (haccepted : argument.IsAccepted verb) :
    argument.token.IsOf verb.signature := by
  cases argument with
  | setting s text => exact ⟨haccepted, Setting.accepts_of_spelled hspelled⟩
  | verbose => exact haccepted
  | positional p text => exact Positional.head?_of_spelled hspelled

end Argument

/-! ### What flags add -/

section

variable {arguments : List Argument}

/-- What has been found when the flags are added to it. -/
def addFlags (arguments : List Argument) (found : Matches) : Matches :=
  (arguments.map Argument.token).foldl Token.apply found

/-- An argument that is not given by a flag has the values it had before. -/
theorem values_addFlags_of_ne (found : Matches) {id : ArgumentId}
    (h : ∀ setting ∈ arguments.filterMap Argument.setting?, setting.flag.id ≠ id) :
    (addFlags arguments found).values id = found.values id := by
  induction arguments generalizing found with
  | nil => rfl
  | cons argument rest ih =>
      cases argument with
      | setting s text =>
          obtain ⟨hne, hrest⟩ := List.forall_mem_cons.1 h
          exact (ih _ hrest).trans (found.values_set_of_ne hne [s.value])
      | verbose => exact ih (found.count .verbose) h
      | positional p text => exact ih found h

/-- A flag that is given has its value. -/
theorem values_addFlags (found : Matches) {setting : Setting}
    (h : setting ∈ arguments.filterMap Argument.setting?)
    (honce : ((arguments.filterMap Argument.setting?).map (·.flag.id)).Nodup) :
    (addFlags arguments found).values setting.flag.id = [setting.value] := by
  induction arguments generalizing found with
  | nil => cases h
  | cons argument rest ih =>
      cases argument with
      | setting s text =>
          obtain ⟨hnew, honce⟩ := List.nodup_cons.1 honce
          rcases List.mem_cons.1 h with rfl | h
          · have hrest := values_addFlags_of_ne (found.set setting.flag.id [setting.value])
              fun other hother heq => hnew (List.mem_map.2 ⟨other, hother, heq⟩)
            exact hrest.trans (found.values_set_self _)
          · exact ih _ h honce
      | verbose => exact ih (found.count .verbose) h honce
      | positional p text => exact ih found h honce

/-- One flag is counted, up to a bound. -/
theorem counts_addFlags (found : Matches) (h : found.counts .verbose ≤ 255) :
    (addFlags arguments found).counts .verbose =
      min (found.counts .verbose + arguments.countP Argument.isVerbose) 255 := by
  induction arguments generalizing found with
  | nil => exact (Nat.min_eq_left h).symm
  | cons argument rest ih =>
      cases argument with
      | setting s text => exact ih (found.set s.flag.id [s.value]) h
      | verbose =>
          have hcount : (found.count .verbose).counts .verbose = min (found.counts .verbose + 1) 255 :=
            rfl
          have hrest := ih (found.count .verbose) (by rw [hcount]; omega)
          rw [List.countP_cons_of_pos rfl]
          refine hrest.trans ?_
          rw [hcount]
          omega
      | positional p text => exact ih found h

end

end Switchboard.Command
