import Switchboard.Proofs.Command.Steps

/-!
The engine of `Reader` keeps the promises of an engine. A flag changes the values of its own argument
and of no other, so it makes no difference to the steps behind it, and it is as good at the end of a
command line as in the middle. Words alone are taken for the operands in their turn, and at the end the
flags that are not given get their standard values.
-/

namespace Switchboard.Command.Reader

variable {signature : Signature}

/-! ### Flags anywhere -/

/-- A change to what has been found that leaves the values of some arguments alone and does not look
at them. -/
structure Spares (change : Matches → Matches) (spared : ArgumentId → Prop) : Prop where
  values : ∀ found id, spared id → (change found).values id = found.values id
  set : ∀ (found : Matches) id values, spared id →
    change (found.set id values) = (change found).set id values
  count : ∀ (found : Matches) id, change (found.count id) = (change found).count id

theorem spares_set (id : ArgumentId) (values : List id.Value) : Spares (·.set id values) (id ≠ ·) where
  values found _ hother := found.values_set_of_ne hother values
  set found _ _ hother := (found.set_comm hother _ _).symm
  count found other := (found.count_set values other).symm

theorem spares_count (id : ArgumentId) : Spares (·.count id) fun _ => True where
  values _ _ _ := rfl
  set _ _ _ _ := rfl
  count found other := found.count_comm other id

section

variable {found found' : Matches} {operands operands' : List Operand} {token : Token}
  {tokens : List Token} {change : Matches → Matches} {spared : ArgumentId → Prop}

theorem give_change (hchange : Spares change spared) {id : ArgumentId} (hid : spared id)
    (kind : ValueKind id.type) (text : String) :
    give (change found) id kind text = (give found id kind text).map change := by
  rw [give, give, hchange.values found id hid]
  by_cases hempty : (found.values id).isEmpty
  · rw [if_pos hempty, if_pos hempty]
    cases judge kind text with
    | error fault => rfl
    | ok value => exact congrArg Except.ok (hchange.set found id _ hid).symm
  · rw [if_neg hempty, if_neg hempty]
    rfl

theorem add_change (hchange : Spares change spared) {id : ArgumentId} (hid : spared id)
    (kind : ValueKind id.type) (texts : List String) :
    add (change found) id kind texts = (add found id kind texts).map change := by
  rw [add, add, hchange.values found id hid]
  cases texts.mapM (judge kind) with
  | error fault => rfl
  | ok more => exact congrArg Except.ok (hchange.set found id _ hid).symm

/-- A step is the same behind a change that spares what the step looks at. -/
theorem step_change (hchange : Spares change spared) (hflag : ∀ flag ∈ token.flag?, spared flag.id)
    (hoperands : ∀ operand ∈ operands, spared operand.id) :
    step (change found, operands) token =
      (step (found, operands) token).map fun state => (change state.1, state.2) := by
  cases token with
  | flag f text value =>
      simp only [step, give_change hchange (hflag f rfl)]
      cases give found f.id f.kind text <;> rfl
  | counter c => exact congrArg (fun found => some (found, operands)) (hchange.count found c.id).symm
  | word text =>
      cases operands with
      | nil => rfl
      | cons operand rest =>
          simp only [step, add_change hchange (hoperands operand List.mem_cons_self)]
          cases add found operand.id operand.kind [text] <;> rfl

theorem operands_step (h : step (found, operands) token = some (found', operands')) :
    operands' ⊆ operands := by
  cases token with
  | flag f text value =>
      obtain ⟨_, -, hstate⟩ := Option.map_eq_some_iff.1 h
      cases hstate
      exact List.Subset.refl _
  | counter c =>
      cases h
      exact List.Subset.refl _
  | word text =>
      cases operands with
      | nil => cases h
      | cons operand rest =>
          obtain ⟨_, -, hstate⟩ := Option.map_eq_some_iff.1 h
          cases hstate
          split
          · exact List.Subset.refl _
          · exact List.subset_cons_self _ _

theorem foldlM_step_change (found : Matches) (hchange : Spares change spared)
    (hflags : ∀ token ∈ tokens, ∀ flag ∈ token.flag?, spared flag.id)
    (hoperands : ∀ operand ∈ operands, spared operand.id) :
    tokens.foldlM step (change found, operands) =
      (tokens.foldlM step (found, operands)).map fun state => (change state.1, state.2) := by
  induction tokens generalizing found operands with
  | nil => rfl
  | cons token rest ih =>
      rw [List.forall_mem_cons] at hflags
      rw [List.foldlM_cons, List.foldlM_cons, step_change hchange hflags.1 hoperands]
      cases hstep : step (found, operands) token with
      | none => rfl
      | some state =>
          obtain ⟨found', operands'⟩ := state
          exact ih found' hflags.2 fun operand hmem => hoperands operand (operands_step hstep hmem)

theorem operands_foldlM_step (h : tokens.foldlM step (found, operands) = some (found', operands')) :
    operands' ⊆ operands := by
  induction tokens generalizing found operands with
  | nil =>
      cases h
      exact List.Subset.refl _
  | cons token rest ih =>
      rw [List.foldlM_cons] at h
      obtain ⟨⟨found₁, operands₁⟩, hstep, hrest⟩ := Option.bind_eq_some_iff.1 h
      exact List.Subset.trans (ih hrest) (operands_step hstep)

/-- An argument that is not given keeps its values. -/
theorem values_foldlM_step {id : ArgumentId}
    (hflags : ∀ token ∈ tokens, ∀ flag ∈ token.flag?, flag.id ≠ id)
    (hoperands : ∀ operand ∈ operands, operand.id ≠ id)
    (h : tokens.foldlM step (found, operands) = some (found', operands')) :
    found'.values id = found.values id := by
  -- Setting the values to what they are changes nothing before the steps, and so nothing behind them.
  have hset := foldlM_step_change found (spares_set id (found.values id))
    (fun token htoken flag hflag => (hflags token htoken flag hflag).symm)
    fun operand hoperand => (hoperands operand hoperand).symm
  rw [found.set_values, h, Option.map_some, Option.some.injEq, Prod.mk.injEq] at hset
  rw [hset.1, Matches.values_set_self]

/-! ### At the end -/

theorem complete_set (id : ArgumentId) (value : id.Value) (flag : Flag) :
    complete (found.set id [value]) flag = (complete found flag).set id [value] := by
  unfold complete
  by_cases hid : id = flag.id
  · subst hid
    by_cases hempty : (found.values flag.id).isEmpty <;> simp [hempty]
  · rw [found.values_set_of_ne hid]
    by_cases hempty : (found.values flag.id).isEmpty
    · rw [if_pos hempty, if_pos hempty, found.set_comm hid]
    · rw [if_neg hempty, if_neg hempty]

theorem complete_count (id : ArgumentId) (flag : Flag) :
    complete (found.count id) flag = (complete found flag).count id := by
  rw [complete, complete, Matches.values_count]
  by_cases hempty : (found.values flag.id).isEmpty
  · rw [if_pos hempty, if_pos hempty]
    rfl
  · rw [if_neg hempty, if_neg hempty]

theorem finish_change (hchange : Spares change spared)
    (hoperands : ∀ operand ∈ signature.operands, spared operand.id)
    (hcomplete : ∀ found flag, complete (change found) flag = change (complete found flag)) :
    finish signature (change found) = (finish signature found).map change := by
  have hall : (signature.operands.all fun operand => !operand.required ||
      !((change found).values operand.id).isEmpty) = signature.operands.all fun operand =>
        !operand.required || !(found.values operand.id).isEmpty := by
    rw [Bool.eq_iff_iff, List.all_eq_true, List.all_eq_true]
    refine forall₂_congr fun operand hoperand => ?_
    rw [hchange.values found operand.id (hoperands operand hoperand)]
  unfold finish
  rw [hall, List.foldl_hom change hcomplete]
  split <;> rfl

/-- One more argument that changes what has been found, wherever it stands on a command line, makes
the same change at the end. -/
theorem arguments_insert (hwell : signature.WellFormed) (hchange : Spares change spared)
    {before after : List Token} (hof : ∀ other ∈ token :: (before ++ after), other.IsOf signature)
    (hstep : ∀ found operands, before.foldlM step (.none, signature.operands) = some (found, operands) →
      step (found, operands) token = some (change found, operands))
    (hafter : ∀ other ∈ after, ∀ flag ∈ other.flag?, spared flag.id)
    (hoperands : ∀ operand ∈ signature.operands, spared operand.id)
    (hcomplete : ∀ found flag, complete (change found) flag = change (complete found flag))
    (h : arguments signature ((before ++ after).map Token.text) = .ok found) :
    arguments signature ((before ++ token :: after).map Token.text) = .ok (change found) := by
  have hbase := arguments_toOption hwell (List.forall_mem_cons.1 hof).2
  have hall : ∀ other ∈ before ++ token :: after, other.IsOf signature := by
    intro other hother
    refine hof other ?_
    simp only [List.mem_append, List.mem_cons] at hother ⊢
    tauto
  have hinserted := arguments_toOption hwell hall
  rw [h, List.foldlM_append] at hbase
  rw [List.foldlM_append] at hinserted
  obtain ⟨⟨last, left⟩, hrun, hfinish⟩ := Option.bind_eq_some_iff.1 hbase.symm
  obtain ⟨⟨middle, rest⟩, hbefore, hrest⟩ := Option.bind_eq_some_iff.1 hrun
  have hsubset := operands_foldlM_step hbefore
  have hchanged : (token :: after).foldlM step (middle, rest) = some (change last, left) := by
    have hmore := foldlM_step_change middle hchange hafter fun operand hmem =>
      hoperands operand (hsubset hmem)
    rw [hrest] at hmore
    rw [List.foldlM_cons, hstep middle rest hbefore]
    exact hmore
  have hdone : finish signature (change last) = .ok (change found) := by
    rw [finish_change hchange hoperands hcomplete, Except.toOption_eq_some_iff.1 hfinish]
    rfl
  rw [← Except.toOption_eq_some_iff, hinserted, hbefore]
  refine Option.bind_eq_some_iff.2 ⟨_, hchanged, ?_⟩
  rw [hdone]
  rfl

end

/-! ### Words alone -/

section

variable {found : Matches} {operands : List Operand} {words : List String} {standard last : Matches}

/-- What words add to what a reader has found, they add to the standard values. -/
structure Adds (operands : List Operand) (found found' standard last : Matches) : Prop where
  required : ∀ operand ∈ operands, operand.required → found'.values operand.id ≠ []
  values : ∀ id, found'.values id = found.values id ∧ last.values id = standard.values id ∨
    found'.values id ≠ [] ∧ last.values id = found'.values id
  counts : found'.counts = found.counts
  counts_last : last.counts = standard.counts

theorem add_of_accepts {id : ArgumentId} {kind : ValueKind id.type} {word : String} {value : id.Value}
    (h : kind.Accepts word value) :
    add found id kind [word] = .ok (found.set id (found.values id ++ [value])) := by
  rw [add, List.mapM_cons, List.mapM_nil, judge_of_accepts h]
  rfl

theorem foldlM_step_words (found : Matches) {operand : Operand} (hseveral : operand.several = true)
    {values : List operand.id.Value} (h : List.Forall₂ operand.kind.Accepts words values) :
    (words.map Token.word).foldlM step (found, [operand]) =
      some (found.set operand.id (found.values operand.id ++ values), [operand]) := by
  induction h generalizing found with
  | nil =>
      rw [List.append_nil, found.set_values]
      rfl
  | @cons word value words values hvalue _ ih =>
      have hstep : step (found, [operand]) (.word word) =
          some (found.set operand.id (found.values operand.id ++ [value]), [operand]) := by
        simp only [step, add_of_accepts hvalue, if_pos hseveral]
        rfl
      rw [List.map_cons, List.foldlM_cons, hstep]
      refine (ih _).trans ?_
      rw [Matches.values_set_self, Matches.set_set, List.append_assoc]
      rfl

theorem exists_foldlM_step (found : Matches) (h : Takes operands words standard last)
    (hids : (operands.map (·.id)).Nodup) (hnone : ∀ operand ∈ operands, found.values operand.id = []) :
    ∃ found' rest, (words.map Token.word).foldlM step (found, operands) = some (found', rest) ∧
      Adds operands found found' standard last := by
  induction h generalizing found with
  | nothing standard hoptional =>
      refine ⟨found, _, rfl, fun operand hoperand hrequired => ?_, fun _ => .inl ⟨rfl, rfl⟩, rfl, rfl⟩
      rw [hoptional operand hoperand] at hrequired
      cases hrequired
  | @one operand rest word words value standard last hseveral hvalue _ ih =>
      rw [List.map_cons, List.nodup_cons] at hids
      obtain ⟨hnew, hids⟩ := hids
      have hstep : step (found, operand :: rest) (.word word) =
          some (found.set operand.id [value], rest) := by
        simp only [step, add_of_accepts hvalue, hnone operand List.mem_cons_self, hseveral]
        rfl
      obtain ⟨found', left, hrun, hadds⟩ := ih (found.set operand.id [value]) hids
        fun other hother => by
          rw [found.values_set_of_ne]
          · exact hnone other (List.mem_cons_of_mem _ hother)
          · exact fun heq => hnew (heq ▸ List.mem_map_of_mem hother)
      -- The value of the first operand stays, be it that words behind it are added to it.
      have hfirst : found'.values operand.id ≠ [] ∧
          last.values operand.id = found'.values operand.id := by
        rcases hadds.values operand.id with ⟨hfound, hlast⟩ | hadded
        · rw [Matches.values_set_self] at hfound hlast
          exact ⟨by simp [hfound], hlast.trans hfound.symm⟩
        · exact hadded
      refine ⟨found', left, ?_, ?_, fun id => ?_, hadds.counts, hadds.counts_last⟩
      · rw [List.map_cons, List.foldlM_cons, hstep]
        exact hrun
      · rintro other hother hrequired
        rcases List.mem_cons.1 hother with rfl | hother
        · exact hfirst.1
        · exact hadds.required other hother hrequired
      · by_cases hid : operand.id = id
        · exact .inr (hid ▸ hfirst)
        · have hadded := hadds.values id
          rwa [found.values_set_of_ne hid, standard.values_set_of_ne hid] at hadded
  | @several operand words values standard hseveral hne hvalues =>
      have hvaluesNe : values ≠ [] := by
        rintro rfl
        exact hne (List.forall₂_nil_right_iff.1 hvalues)
      have hrun := foldlM_step_words found hseveral hvalues
      rw [hnone operand List.mem_cons_self, List.nil_append] at hrun
      refine ⟨_, _, hrun, ?_, fun id => ?_, rfl, rfl⟩
      · rintro other hother -
        rw [List.mem_singleton.1 hother, Matches.values_set_self]
        exact hvaluesNe
      · by_cases hid : operand.id = id
        · subst hid
          rw [Matches.values_set_self, Matches.values_set_self]
          exact .inr ⟨hvaluesNe, rfl⟩
        · rw [found.values_set_of_ne hid, standard.values_set_of_ne hid]
          exact .inl ⟨rfl, rfl⟩

theorem values_complete {flag : Flag} {id : ArgumentId} (h : found.values id ≠ [] ∨ flag.id ≠ id) :
    (complete found flag).values id = found.values id := by
  unfold complete
  split
  · next hempty =>
    refine found.values_set_of_ne (fun heq => ?_) _
    subst heq
    exact h.elim (· (List.isEmpty_iff.1 hempty)) (· rfl)
  · rfl

/-- Flags that have values keep them, and the others get their standard values. -/
theorem values_foldl_complete (found : Matches) {flags : List Flag} (hids : (flags.map (·.id)).Nodup) :
    (∀ flag ∈ flags, found.values flag.id = [] →
      (flags.foldl complete found).values flag.id = standardValue flag) ∧
    ∀ id, found.values id ≠ [] ∨ (∀ flag ∈ flags, flag.id ≠ id) →
      (flags.foldl complete found).values id = found.values id := by
  induction flags generalizing found with
  | nil => exact ⟨nofun, fun _ _ => rfl⟩
  | cons flag rest ih =>
      rw [List.map_cons, List.nodup_cons] at hids
      obtain ⟨hnew, hids⟩ := hids
      obtain ⟨hgiven, hkept⟩ := ih (complete found flag) hids
      refine ⟨fun other hother hnone => ?_, fun id hid => ?_⟩
      · rcases List.mem_cons.1 hother with rfl | hother
        · have hset : complete found other = found.set other.id (standardValue other) := by
            simp [complete, hnone]
          refine (hkept other.id (.inr fun another hanother heq => ?_)).trans ?_
          · exact hnew (heq ▸ List.mem_map_of_mem hanother)
          · rw [hset, Matches.values_set_self]
        · refine hgiven other hother ?_
          rw [values_complete (.inr fun heq => hnew (heq ▸ List.mem_map_of_mem hother)), hnone]
      · have hvalues := values_complete (hid.imp_right fun h => h flag List.mem_cons_self)
        refine (hkept id ?_).trans hvalues
        rw [hvalues]
        exact hid.imp_right fun h other hother => h other (List.mem_cons_of_mem _ hother)

theorem counts_foldl_complete (flags : List Flag) :
    (flags.foldl complete found).counts = found.counts := by
  induction flags generalizing found with
  | nil => rfl
  | cons flag rest ih =>
      refine ih.trans ?_
      unfold complete
      split <;> rfl

theorem standardValue_of_isStandard (h : signature.IsStandard standard) {flag : Flag}
    (hflag : flag ∈ signature.flags) : standard.values flag.id = standardValue flag := by
  unfold standardValue
  cases htext : flag.standard? with
  | none => exact h.missing flag hflag htext
  | some text =>
      obtain ⟨value, haccepts, hvalues⟩ := h.given flag hflag text htext
      simp only [judge_of_accepts haccepts]
      exact hvalues

theorem arguments_words (hwell : signature.WellFormed)
    (hof : ∀ word ∈ words, (Token.word word).IsOf signature)
    (hstandard : signature.IsStandard standard) (h : Takes signature.operands words standard last) :
    arguments signature words = .ok last := by
  have hids := List.nodup_append.1 hwell.ids
  obtain ⟨found', left, hrun, hadds⟩ := exists_foldlM_step .none h hids.1 fun _ _ => rfl
  have hlast : signature.flags.foldl complete found' = last := by
    obtain ⟨hgiven, hkept⟩ := values_foldl_complete found' hids.2.1
    refine Matches.ext (funext fun id => ?_) (funext fun id => ?_)
    · rcases hadds.values id with ⟨hnone, hsame⟩ | ⟨hne, hsame⟩
      · rw [hsame]
        by_cases hflag : ∃ flag ∈ signature.flags, flag.id = id
        · obtain ⟨flag, hmem, rfl⟩ := hflag
          rw [hgiven flag hmem hnone, standardValue_of_isStandard hstandard hmem]
        · push Not at hflag
          rw [hkept id (.inr hflag), hnone, hstandard.others id hflag]
          rfl
      · rw [hkept id (.inl hne), hsame]
    · rw [counts_foldl_complete, hadds.counts, hadds.counts_last, hstandard.counts]
      rfl
  have htokens : ∀ token ∈ words.map Token.word, token.IsOf signature := by
    intro token htoken
    obtain ⟨word, hword, rfl⟩ := List.mem_map.1 htoken
    exact hof word hword
  have harguments := arguments_toOption hwell htokens
  rw [Token.map_text_word, hrun, Option.bind_some, finish, if_pos, hlast] at harguments
  · exact Except.toOption_eq_some_iff.1 harguments
  · rw [List.all_eq_true]
    intro operand hoperand
    cases hrequired : operand.required with
    | false => rfl
    | true => simp [hadds.required operand hoperand hrequired]

end

/-! ### The engine -/

/-- The commands can be told apart, and so can the arguments of each. -/
structure WellFormed (signatures : List Signature) : Prop where
  names : (signatures.map (·.name)).Nodup
  signature : ∀ signature ∈ signatures, signature.WellFormed

variable {signatures : List Signature}

theorem commandLine_name (hwell : WellFormed signatures) (hsignature : signature ∈ signatures)
    (texts : List String) :
    commandLine signatures (signature.name :: texts) =
      (arguments signature texts).map (signature.name, ·) := by
  have hsigned := hwell.signature signature hsignature
  have hhead := hsigned.name_head
  have hfind : signatures.find? (·.name == signature.name) = some signature :=
    find?_key hwell.names hsignature
  unfold commandLine
  split
  · next heq => cases heq
  · next heq =>
    obtain ⟨rfl, rfl⟩ := List.cons.inj heq
    split
    · next heq => exact absurd (congrArg List.head? heq) hhead
    · next heq => exact absurd (congrArg List.head? heq) hhead
    · next heq => exact absurd (congrArg List.head? heq) hhead
    · next heq => exact absurd (congrArg List.head? heq) hhead
    · rw [if_neg hsigned.name_ne_help, hfind]
      change (arguments signature texts >>= fun found => pure (signature.name, found)) = _
      cases arguments signature texts <;> rfl

theorem commandLine_name_eq_ok_iff (hwell : WellFormed signatures) (hsignature : signature ∈ signatures)
    {texts : List String} {found : Matches} :
    commandLine signatures (signature.name :: texts) = .ok (signature.name, found) ↔
      arguments signature texts = .ok found := by
  rw [commandLine_name hwell hsignature, Except.map_eq_ok_iff]
  simp

/-- The engine keeps its promises to every program whose arguments can be told apart. -/
theorem documented_commandLine (hwell : WellFormed signatures) :
    Documented commandLine signatures where
  words signature hsignature words standard found hof hstandard htakes := by
    rw [commandLine_name_eq_ok_iff hwell hsignature]
    exact arguments_words (hwell.signature signature hsignature) hof hstandard htakes
  counter signature hsignature counter before after found hof hread := by
    rw [commandLine_name_eq_ok_iff hwell hsignature] at hread ⊢
    exact arguments_insert (hwell.signature signature hsignature) (spares_count counter.id) hof
      (fun _ _ _ => rfl) (fun _ _ _ _ => trivial) (fun _ _ => trivial)
      (fun found flag => complete_count counter.id flag) hread
  flag signature hsignature flag text value before after found hof hother hread := by
    rw [commandLine_name_eq_ok_iff hwell hsignature] at hread ⊢
    have hsigned := hwell.signature signature hsignature
    obtain ⟨hflag, haccepts⟩ := hof _ List.mem_cons_self
    have hoperands : ∀ operand ∈ signature.operands, operand.id ≠ flag.id := by
      intro operand hoperand heq
      refine List.disjoint_of_nodup_append hsigned.ids (List.mem_map_of_mem hoperand) ?_
      exact heq ▸ List.mem_map_of_mem hflag
    refine arguments_insert hsigned (spares_set flag.id [value]) hof (fun middle left hbefore => ?_)
      (fun token htoken other hmem => ?_) (fun operand hoperand => (hoperands operand hoperand).symm)
      (fun found other => complete_set flag.id value other) hread
    · have hnone := values_foldlM_step (fun token htoken other hmem =>
        hother token (List.mem_append_left _ htoken) other hmem) hoperands hbefore
      have hempty : (middle.values flag.id).isEmpty := by
        rw [hnone]
        rfl
      rw [step, give, if_pos hempty, judge_of_accepts haccepts]
      rfl
    · exact (hother token (List.mem_append_right _ htoken) other hmem).symm

end Switchboard.Command.Reader
