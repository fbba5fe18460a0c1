import Switchboard.Command.Arguments
import Switchboard.Proofs.Command.Documented

/-!
What a reader makes of one argument after the other. While a command line is read, words wait to be
judged until the next argument is recognised, so a reader is described by what it has found once
nothing waits any more (`Reader.outcome?`). Every argument that can be told by itself takes the reader
one step on from one such state to the next (`Reader.step`), whatever was waiting before it.
-/

namespace Switchboard.Command

/-- The arguments of a command can be told apart. -/
structure Signature.WellFormed (signature : Signature) : Prop where
  name_head : signature.name.toList.head? ≠ some '-'
  name_ne_help : signature.name ≠ "help"
  ids : (signature.operands.map (·.id) ++ signature.flags.map (·.id)).Nodup
  longs : (signature.flags.map (·.long)).Nodup
  equals_not_mem_long : ∀ flag ∈ signature.flags, '=' ∉ flag.long.toList
  long_ne_help : ∀ flag ∈ signature.flags, flag.long ≠ "help"
  shorts : (signature.counters.map (·.short)).Nodup
  short_ne_dash : ∀ counter ∈ signature.counters, counter.short ≠ '-'
  short_ne_help : ∀ counter ∈ signature.counters, counter.short ≠ 'h'

namespace Reader

variable {signature : Signature} {reader next : Reader}

theorem judge_of_accepts {type : ValueType} {kind : ValueKind type} {text : String}
    {value : type.Carrier} (h : kind.Accepts text value) : judge kind text = .ok value := by
  cases kind with
  | text => exact congrArg Except.ok (Eq.symm h)
  | path =>
      obtain ⟨rfl, hne⟩ := h
      rw [judge, if_neg hne]
  | oneOf names =>
      obtain ⟨rfl, hmem⟩ := h
      rw [judge, if_pos (List.contains_iff_mem.2 hmem)]
  | atLeast least =>
      obtain ⟨hdecimal, hleast, hbound⟩ := h
      have hread : Text.decimal numberBound text = .ok value :=
        Text.decimal_of_isDecimal hdecimal (Nat.le_sub_one_of_lt hbound)
      simp only [judge, hread, if_neg (Nat.not_lt.2 hleast)]
  | own read =>
      have hread : read text = .ok value := h
      simp only [judge, hread]

/-! ### One argument -/

/-- What a reader has found and which operands are left, once nothing waits to be judged. -/
def outcome? (reader : Reader) : Option (Matches × List Operand) :=
  reader.settled.toOption.map (·, reader.operands)

/-- What an argument makes of that. -/
def step (found : Matches × List Operand) : Token → Option (Matches × List Operand)
  | .flag f text _ => (give found.1 f.id f.kind text).toOption.map (·, found.2)
  | .counter c => some (found.1.count c.id, found.2)
  | .word text =>
    match found.2 with
    | [] => none
    | operand :: rest =>
      (add found.1 operand.id operand.kind [text]).toOption.map
        (·, if operand.several then operand :: rest else rest)

/-- Nothing but operands and their values can be told apart from what is read. -/
structure IsPlain (reader : Reader) : Prop where
  operandsOnly_eq : reader.operandsOnly = false
  waiting_ne : ∀ id kind, reader.waiting ≠ .flag id kind

theorem add_append (found : Matches) (id : ArgumentId) (kind : ValueKind id.type)
    (texts : List String) (text : String) :
    (add found id kind (texts ++ [text])).toOption =
      (add found id kind texts).toOption.bind fun found => (add found id kind [text]).toOption := by
  unfold add
  rw [List.mapM_append, List.mapM_cons, List.mapM_nil]
  cases texts.mapM (judge kind) with
  | error fault => rfl
  | ok values =>
      cases hjudge : judge kind text with
      | error fault => rfl
      | ok value =>
          simp [Except.map, Except.toOption, bind, Except.bind, pure, Except.pure]

theorem settle_eq (reader : Reader) :
    reader.settle = reader.settled.map fun found => { reader with found, waiting := .nothing } := by
  unfold settle
  cases reader.settled <;> rfl

theorem splitValue_append {name : List Char} (hname : '=' ∉ name) (value : List Char) :
    splitValue (name ++ '=' :: value) = (String.ofList name, some (String.ofList value)) := by
  have hbefore : ∀ c ∈ name, c != '=' := fun c hc => by
    simpa using ne_of_mem_of_not_mem hc hname
  have htake : (name ++ '=' :: value).takeWhile (· != '=') = name := by
    rw [List.takeWhile_append_of_pos hbefore, List.takeWhile_cons_of_neg (by simp),
      List.append_nil]
  rw [splitValue, htake, List.drop_left]

/-- In a list in which no two have the same key, who has a key is found by it. -/
theorem find?_key {α β : Type} [BEq β] [LawfulBEq β] {key : α → β} {list : List α}
    (hnodup : (list.map key).Nodup) {a : α} (ha : a ∈ list) :
    list.find? (fun b => key b == key a) = some a := by
  have hsome : (list.find? fun b => key b == key a).isSome :=
    List.find?_isSome.2 ⟨a, ha, beq_self_eq_true _⟩
  obtain ⟨b, hb⟩ := Option.isSome_iff_exists.1 hsome
  have hkey : key b = key a := eq_of_beq (List.find?_some (p := fun b => key b == key a) hb)
  rw [hb, List.inj_on_of_nodup_map hnodup (List.mem_of_find?_eq_some hb) ha hkey]

theorem argument_flag (hwell : signature.WellFormed) (hplain : reader.IsPlain) {flag : Flag}
    (hflag : flag ∈ signature.flags) (text : String) (value : flag.id.Value) :
    reader.argument signature (Token.flag flag text value).text = reader.flagWithValue flag text := by
  have htext : (Token.flag flag text value).text.toList =
      '-' :: '-' :: (flag.long.toList ++ '=' :: text.toList) := by
    simp [Token.text]
  have hsplit := splitValue_append (hwell.equals_not_mem_long flag hflag) text.toList
  rw [String.ofList_toList, String.ofList_toList] at hsplit
  have hlong : reader.long signature (flag.long.toList ++ '=' :: text.toList) =
      reader.flagWithValue flag text := by
    unfold long
    rw [hsplit]
    split
    · next heq => exact absurd (congrArg Prod.fst heq) (hwell.long_ne_help flag hflag)
    · next heq => exact absurd (congrArg Prod.fst heq) (hwell.long_ne_help flag hflag)
    · next heq =>
      obtain ⟨rfl, rfl⟩ := Prod.mk.inj heq
      rw [find?_key hwell.longs hflag]
  -- What stands behind the dashes is not empty, so this is not the lone `--`.
  obtain ⟨c, more, hcons⟩ := List.exists_cons_of_ne_nil
    (show flag.long.toList ++ '=' :: text.toList ≠ [] by simp)
  rw [hcons] at htext hlong
  rw [argument, hplain.operandsOnly_eq, htext]
  exact hlong

theorem argument_counter (hwell : signature.WellFormed) (hplain : reader.IsPlain)
    {counter : Counter} (hcounter : counter ∈ signature.counters) :
    reader.argument signature (Token.counter counter).text = reader.counter counter := by
  have hdash := hwell.short_ne_dash counter hcounter
  have hshorts : reader.shorts signature [counter.short] = reader.counter counter := by
    unfold shorts
    split
    · next heq => cases heq
    · next heq => exact absurd (List.cons.inj heq).1 (hwell.short_ne_help counter hcounter)
    · next heq =>
      obtain ⟨rfl, rfl⟩ := List.cons.inj heq
      rw [find?_key hwell.shorts hcounter]
      cases hread : reader.counter counter <;> simp [hread, shorts, bind, Except.bind]
  rw [argument, hplain.operandsOnly_eq, Token.text, String.toList_ofList]
  split
  · contradiction
  · split
    · next heq => simp_all
    · next heq => simp_all
    · next heq =>
      obtain ⟨rfl, rfl⟩ := List.cons.inj (List.cons.inj heq).2
      exact hshorts
    · next heq => exact absurd rfl (heq _ _)

theorem argument_word (hplain : reader.IsPlain) {text : String}
    (hhead : text.toList.head? ≠ some '-') :
    reader.argument signature text = reader.word text := by
  have hvalue : reader.value text = reader.word text := by
    unfold value
    split
    · next id kind hflag => exact absurd hflag (hplain.waiting_ne id kind)
    · rfl
  rw [argument, hplain.operandsOnly_eq, if_neg Bool.false_ne_true, ← hvalue]
  split
  · next heq => exact absurd (congrArg List.head? heq) hhead
  · next heq => exact absurd (congrArg List.head? heq) hhead
  · next heq => exact absurd (congrArg List.head? heq) hhead
  · rfl

/-- A settled reader is described by what it has. -/
theorem outcome?_of_waiting_eq (h : reader.waiting = .nothing) :
    reader.outcome? = some (reader.found, reader.operands) := by
  rw [outcome?, settled, h]
  rfl

theorem outcome?_flagWithValue (reader : Reader) (flag : Flag) (text : String)
    (value : flag.id.Value) :
    (reader.flagWithValue flag text).toOption.bind outcome? =
      reader.outcome?.bind (step · (.flag flag text value)) := by
  unfold flagWithValue
  rw [settle_eq, outcome?]
  cases reader.settled with
  | error fault => rfl
  | ok found =>
      simp only [step, Except.map, bind, Except.bind, Except.toOption, Option.map, Option.bind]
      cases give found flag.id flag.kind text <;> rfl

theorem outcome?_counter (reader : Reader) (counter : Counter) :
    (reader.counter counter).toOption.bind outcome? =
      reader.outcome?.bind (step · (.counter counter)) := by
  unfold Reader.counter
  rw [settle_eq, outcome?]
  cases reader.settled <;> rfl

section

variable {operand : Operand} {rest : List Operand} (hoperands : reader.operands = operand :: rest)
  (text : String)

include hoperands

/-- The first word for an operand, or the only one. -/
theorem word_eq (h : operand.several = true → ∀ texts, reader.waiting ≠ .words texts) :
    reader.word text = reader.settled.map fun found =>
      if operand.several then { reader with found, waiting := .words [text] }
      else { reader with found, waiting := .word operand.id operand.kind text, operands := rest } := by
  unfold word
  rw [hoperands, settle_eq]
  by_cases hseveral : operand.several
  · simp only [hseveral, if_true]
    split
    · next texts hwaiting => exact absurd hwaiting (h hseveral texts)
    · cases reader.settled <;> simp [hoperands, bind, Except.bind, pure, Except.pure, Except.map]
  · simp only [hseveral]
    cases reader.settled <;> simp [bind, Except.bind, pure, Except.pure, Except.map]

/-- One more word for an operand. -/
theorem word_eq_of_words (hseveral : operand.several = true) {texts : List String}
    (hwaiting : reader.waiting = .words texts) :
    reader.word text = .ok { reader with waiting := .words (texts ++ [text]) } := by
  unfold word
  simp only [hoperands, hseveral, if_true, hwaiting]

theorem outcome?_word_cons :
    (reader.word text).toOption.bind outcome? = reader.outcome?.bind (step · (.word text)) := by
  have hstep : ∀ found, step (found, reader.operands) (.word text) =
      (add found operand.id operand.kind [text]).toOption.map
        (·, if operand.several then operand :: rest else rest) := fun found => by
    rw [hoperands, step]
  by_cases hmore : operand.several ∧ ∃ texts, reader.waiting = .words texts
  · obtain ⟨hseveral, texts, hwaiting⟩ := hmore
    have hsettled : reader.settled = add reader.found operand.id operand.kind texts := by
      rw [settled, hwaiting, hoperands]
    have hnext : ({ reader with waiting := .words (texts ++ [text]) } : Reader).outcome? =
        (add reader.found operand.id operand.kind (texts ++ [text])).toOption.map
          (·, reader.operands) := by
      simp only [outcome?, settled, hoperands]
    rw [word_eq_of_words hoperands text hseveral hwaiting, outcome?, hsettled]
    refine hnext.trans ?_
    rw [add_append]
    cases (add reader.found operand.id operand.kind texts).toOption with
    | none => rfl
    | some found =>
        rw [if_pos hseveral, ← hoperands] at hstep
        exact (hstep found).symm
  · rw [word_eq hoperands text, outcome?]
    · cases reader.settled with
      | error fault => rfl
      | ok found =>
          refine Eq.trans ?_ (hstep found).symm
          by_cases hseveral : operand.several
          · simp [Except.map, Except.toOption, outcome?, settled, hseveral, hoperands]
          · simp [Except.map, Except.toOption, outcome?, settled, hseveral]
    · exact fun hseveral texts hwaiting => hmore ⟨hseveral, texts, hwaiting⟩

end

theorem outcome?_argument (hwell : signature.WellFormed) (hplain : reader.IsPlain) {token : Token}
    (hof : token.IsOf signature) :
    (reader.argument signature token.text).toOption.bind outcome? =
      reader.outcome?.bind (step · token) := by
  cases token with
  | flag flag text value =>
      rw [argument_flag hwell hplain hof.1]
      exact outcome?_flagWithValue reader flag text value
  | counter counter =>
      rw [argument_counter hwell hplain hof]
      exact outcome?_counter reader counter
  | word text =>
      rw [show (Token.word text).text = text from rfl, argument_word hplain hof]
      rcases hoperands : reader.operands with _ | ⟨operand, rest⟩
      · rw [word, outcome?, hoperands]
        cases reader.settled <;> rfl
      · exact outcome?_word_cons hoperands text

theorem IsPlain.argument (hwell : signature.WellFormed) (hplain : reader.IsPlain) {token : Token}
    (hof : token.IsOf signature) (h : reader.argument signature token.text = .ok next) :
    next.IsPlain := by
  have hsettle {after : Reader} (hafter : reader.settle = .ok after) :
      after.operandsOnly = false ∧ after.waiting = .nothing := by
    rw [settle_eq] at hafter
    cases hsettled : reader.settled with
    | error fault => simp [hsettled, Except.map] at hafter
    | ok found =>
        rw [hsettled] at hafter
        cases hafter
        exact ⟨hplain.operandsOnly_eq, rfl⟩
  cases token with
  | flag flag text value =>
      rw [argument_flag hwell hplain hof.1, flagWithValue] at h
      obtain ⟨after, hafter, hgive⟩ := Except.bind_eq_ok_iff.1 h
      obtain ⟨found, -, hnext⟩ := Except.bind_eq_ok_iff.1 hgive
      cases hnext
      obtain ⟨honly, hwaiting⟩ := hsettle hafter
      exact ⟨honly, by simp [hwaiting]⟩
  | counter counter =>
      rw [argument_counter hwell hplain hof, Reader.counter] at h
      obtain ⟨after, hafter, hnext⟩ := Except.bind_eq_ok_iff.1 h
      cases hnext
      obtain ⟨honly, hwaiting⟩ := hsettle hafter
      exact ⟨honly, by simp [hwaiting]⟩
  | word text =>
      rw [show (Token.word text).text = text from rfl, argument_word hplain hof] at h
      rcases hoperands : reader.operands with _ | ⟨operand, rest⟩
      · simp [word, hoperands] at h
      · by_cases hmore : operand.several ∧ ∃ texts, reader.waiting = .words texts
        · obtain ⟨hseveral, texts, hwaiting⟩ := hmore
          rw [word_eq_of_words hoperands text hseveral hwaiting] at h
          cases h
          exact ⟨hplain.operandsOnly_eq, nofun⟩
        · rw [word_eq hoperands text fun hseveral texts hwaiting => hmore ⟨hseveral, texts, hwaiting⟩]
            at h
          obtain ⟨found, -, rfl⟩ := Except.map_eq_ok_iff.1 h
          split
          · exact ⟨hplain.operandsOnly_eq, nofun⟩
          · exact ⟨hplain.operandsOnly_eq, nofun⟩

/-! ### All arguments -/

/-- A run is told by its steps. -/
theorem outcome?_foldlM (hwell : signature.WellFormed) (hplain : reader.IsPlain) {tokens : List Token}
    (hof : ∀ token ∈ tokens, token.IsOf signature) :
    ((tokens.map Token.text).foldlM (argument signature) reader).toOption.bind outcome? =
      reader.outcome?.bind (tokens.foldlM step ·) := by
  induction tokens generalizing reader with
  | nil => exact (Option.bind_fun_some _).symm
  | cons token rest ih =>
      rw [List.forall_mem_cons] at hof
      have hsteps : reader.outcome?.bind ((token :: rest).foldlM step ·) =
          (reader.outcome?.bind (step · token)).bind (rest.foldlM step ·) :=
        (Option.bind_assoc ..).symm
      rw [hsteps, ← outcome?_argument hwell hplain hof.1, List.map_cons, List.foldlM_cons]
      cases hnext : reader.argument signature token.text with
      | error fault => rfl
      | ok next => exact ih (hplain.argument hwell hof.1 hnext) hof.2

theorem arguments_toOption (hwell : signature.WellFormed) {tokens : List Token}
    (hof : ∀ token ∈ tokens, token.IsOf signature) :
    (arguments signature (tokens.map Token.text)).toOption =
      (tokens.foldlM step (.none, signature.operands)).bind fun state =>
        (finish signature state.1).toOption := by
  have hplain : IsPlain { operands := signature.operands } := ⟨rfl, nofun⟩
  have hrun := outcome?_foldlM hwell hplain hof
  rw [outcome?_of_waiting_eq rfl, Option.bind_some] at hrun
  rw [← hrun, arguments]
  cases (tokens.map Token.text).foldlM (argument signature)
      ({ operands := signature.operands } : Reader) with
  | error fault => rfl
  | ok reader =>
      simp only [bind, Except.bind, Except.toOption, Option.bind, outcome?, Option.map]
      cases reader.settled <;> rfl

end Reader

end Switchboard.Command
