import Mathlib.Data.List.Induction
import Mathlib.Data.List.Nodup
import Switchboard.Command.Signature
import Switchboard.Proofs.Text.Decimal

/-!
What a program may rely on of the engine that reads its command lines. Nothing here says how a
command line is read. An engine promises what becomes of a command line of words alone, and what
becomes of a command line that was read before when one more flag stands on it, wherever that is. The
promises are about arguments that can be told by themselves (`Token`), so no value stands apart from
its flag.

From these promises follows what any mixture of flags and words comes to (`Documented.read_tokens`):
the words alone are read first, and then the flags are put back one by one.
-/

namespace Switchboard.Command

/-- The text is a value, and this one. -/
def ValueKind.Accepts : {type : ValueType} → ValueKind type → String → type.Carrier → Prop
  | _, .text, given, value => value = given
  | _, .path, given, value => value = ⟨given⟩ ∧ given ≠ ""
  | _, .oneOf names, given, value => value = given ∧ given ∈ names
  | _, .atLeast least, given, value =>
    Text.IsDecimal given.toList value ∧ least ≤ value ∧ value < UInt64.size
  | _, .own read, given, value => read given = .ok value

/-! ### Arguments -/

/-- An argument behind a command that can be told by itself. -/
inductive Token
  | flag (flag : Flag) (text : String) (value : flag.id.Value)
  | counter (counter : Counter)
  | word (text : String)

namespace Token

def text : Token → String
  | flag f text _ => "--" ++ f.long ++ "=" ++ text
  | counter c => String.ofList ['-', c.short]
  | word text => text

/-- The argument is one of those a signature has, and no word is taken for a flag. -/
def IsOf (signature : Signature) : Token → Prop
  | flag f text value => f ∈ signature.flags ∧ f.kind.Accepts text value
  | counter c => c ∈ signature.counters
  | word text => text.toList.head? ≠ some '-'

/-- The flag that is given. -/
def flag? : Token → Option Flag
  | flag f _ _ => some f
  | counter _ | word _ => none

def word? : Token → Option String
  | word text => some text
  | flag _ _ _ | counter _ => none

theorem map_text_word (words : List String) : (words.map word).map text = words := by
  rw [List.map_map]
  exact List.map_id words

/-- What a flag adds to what has been found. -/
def apply (found : Matches) : Token → Matches
  | flag f _ value => found.set f.id [value]
  | counter c => found.count c.id
  | word _ => found

end Token

/-! ### Promises -/

/-- The words are values of the operands, each in its turn, and are added to what has been found. -/
inductive Takes : List Operand → List String → Matches → Matches → Prop
  | nothing {operands : List Operand} (found : Matches)
    (hoptional : ∀ operand ∈ operands, operand.required = false) : Takes operands [] found found
  | one {operand : Operand} {rest : List Operand} {word : String} {words : List String}
    {value : operand.id.Value} {found last : Matches} (hseveral : operand.several = false)
    (hvalue : operand.kind.Accepts word value)
    (hrest : Takes rest words (found.set operand.id [value]) last) :
    Takes (operand :: rest) (word :: words) found last
  | several {operand : Operand} {words : List String} {values : List operand.id.Value}
    (found : Matches) (hseveral : operand.several = true) (hne : words ≠ [])
    (hvalues : List.Forall₂ operand.kind.Accepts words values) :
    Takes [operand] words found (found.set operand.id values)

/-- What is found when no arguments are given: flags have their standard values. -/
structure Signature.IsStandard (signature : Signature) (found : Matches) : Prop where
  given : ∀ flag ∈ signature.flags, ∀ text, flag.standard? = some text →
    ∃ value, flag.kind.Accepts text value ∧ found.values flag.id = [value]
  missing : ∀ flag ∈ signature.flags, flag.standard? = none → found.values flag.id = []
  others : ∀ id, (∀ flag ∈ signature.flags, flag.id ≠ id) → found.values id = []
  counts : ∀ id, found.counts id = 0

/-- What an engine promises of a program with these signatures. -/
structure Documented (engine : Engine) (signatures : List Signature) : Prop where
  /-- Behind the name of a command, words are taken for its operands in their order. A flag that is
  not given has its standard value. -/
  words : ∀ signature ∈ signatures, ∀ words standard found,
    (∀ word ∈ words, (Token.word word).IsOf signature) → signature.IsStandard standard →
    Takes signature.operands words standard found →
    engine signatures (signature.name :: words) = .ok (signature.name, found)
  /-- A flag may stand anywhere, and it gives its argument a value. -/
  flag : ∀ signature ∈ signatures, ∀ (flag : Flag) text value (before after : List Token) found,
    (∀ token ∈ Token.flag flag text value :: (before ++ after), token.IsOf signature) →
    (∀ token ∈ before ++ after, ∀ other ∈ token.flag?, other.id ≠ flag.id) →
    engine signatures (signature.name :: (before ++ after).map Token.text) =
      .ok (signature.name, found) →
    engine signatures
        (signature.name :: (before ++ Token.flag flag text value :: after).map Token.text) =
      .ok (signature.name, found.set flag.id [value])
  /-- A counter may stand anywhere, any number of times, and each time it counts. -/
  counter : ∀ signature ∈ signatures, ∀ counter (before after : List Token) found,
    (∀ token ∈ Token.counter counter :: (before ++ after), token.IsOf signature) →
    engine signatures (signature.name :: (before ++ after).map Token.text) =
      .ok (signature.name, found) →
    engine signatures (signature.name :: (before ++ Token.counter counter :: after).map Token.text) =
      .ok (signature.name, found.count counter.id)

namespace Documented

variable {engine : Engine} {signatures : List Signature} {signature : Signature}
  {tokens : List Token} {standard last : Matches}

/-- However flags and words are mixed, the words are taken for the operands and the flags give their
values. -/
theorem read_tokens (hengine : Documented engine signatures) (hsignature : signature ∈ signatures)
    (hof : ∀ token ∈ tokens, token.IsOf signature)
    (honce : ((tokens.filterMap Token.flag?).map (·.id)).Nodup)
    (hstandard : signature.IsStandard standard)
    (htakes : Takes signature.operands (tokens.filterMap Token.word?) standard last) :
    engine signatures (signature.name :: tokens.map Token.text) =
      .ok (signature.name, tokens.foldl Token.apply last) := by
  have hof' : ∀ late : List Token, (∀ token ∈ late, token ∈ tokens) →
      ∀ token ∈ (late.filterMap Token.word?).map Token.word, token.IsOf signature := by
    intro late hlate token htoken
    obtain ⟨word, hword, rfl⟩ := List.mem_map.1 htoken
    obtain ⟨given, hgiven, hsome⟩ := List.mem_filterMap.1 hword
    cases given with
    | word text =>
        obtain rfl : text = word := Option.some.inj hsome
        exact hof _ (hlate _ hgiven)
    | flag | counter => cases hsome
  -- Of the late arguments only the words stand on the command line yet.
  have hlate : ∀ early late : List Token, tokens = early ++ late →
      engine signatures
          (signature.name :: (early ++ (late.filterMap Token.word?).map Token.word).map Token.text) =
        .ok (signature.name, early.foldl Token.apply last) := by
    intro early
    induction early using List.reverseRecOn with
    | nil =>
        rintro late rfl
        rw [List.nil_append, Token.map_text_word]
        refine hengine.words signature hsignature _ standard last (fun word hword => ?_) hstandard htakes
        exact hof' _ (fun _ htoken => htoken) _ (List.mem_map_of_mem hword)
    | append_singleton early token ih =>
        intro late htokens
        have hsplit : tokens = early ++ token :: late := by simpa using htokens
        have hread := ih (token :: late) hsplit
        have hafter := hof' late fun other hother => by simp [hsplit, hother]
        have hall : ∀ other ∈ token :: (early ++ (late.filterMap Token.word?).map Token.word),
            other.IsOf signature := by
          intro other hother
          rcases List.mem_cons.1 hother with rfl | hother
          · exact hof _ (by simp [hsplit])
          · rcases List.mem_append.1 hother with hother | hother
            · exact hof _ (by simp [hsplit, hother])
            · exact hafter other hother
        rw [List.foldl_append, List.append_assoc]
        cases token with
        | word text => exact hread
        | counter c => exact hengine.counter signature hsignature c _ _ _ hall hread
        | flag f text value =>
            refine hengine.flag signature hsignature f text value _ _ _ hall ?_ hread
            intro other hother found hfound hsame
            rcases List.mem_append.1 hother with hother | hother
            · -- The flag would be given twice.
              rw [hsplit, List.filterMap_append, List.map_append] at honce
              refine List.disjoint_of_nodup_append honce (List.mem_map.2 ⟨found, ?_, hsame⟩)
                List.mem_cons_self
              exact List.mem_filterMap.2 ⟨other, hother, hfound⟩
            · obtain ⟨word, -, rfl⟩ := List.mem_map.1 hother
              cases hfound
  simpa using hlate tokens [] (List.append_nil _).symm

end Documented

end Switchboard.Command
