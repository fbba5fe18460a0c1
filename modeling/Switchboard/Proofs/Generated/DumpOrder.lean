import Switchboard.Proofs.Dispatcher.Run
import Switchboard.Proofs.Generated.Members

/-!
One order of the slots, seen in four places. A class declares its slots as fields and dumps their
states in the body of its state method; a dispatcher lists its handlers and dumps theirs. All four
go through the slots of the plan from the first to the last, so none of them can lose a slot, write
one twice or fall out of step with the others, also under the strategy that sorts.

The fields of a class are read by the shape of its code alone. Nothing is asked of the names of
types, which are arbitrary texts when a mapping is not read from a source.
-/

namespace Switchboard

namespace Generated

/-! ### Reading fields and statements -/

/-- The members that are declared on one line each. A member with initialisers, as the table has
them, takes a line, a block and a closing line. -/
def fieldLines : List Code → List String
  | .line _ :: .block _ :: .line _ :: rest => fieldLines rest
  | .line text :: rest => text :: fieldLines rest
  | _ => []

/-- The fields of a class: what is declared under `private:` behind the state method. -/
def fields? (unit : List Code) : Option (List String) :=
  (blockUnder? "private:" unit).map fun members => (fieldLines members).tail

/-- The line that the body of the state method follows. -/
def stateSignature (target : Target) (className : String) : String :=
  "void " ++ className ++ "::" ++ target.stateMethod ++ "(std::ostream &os) const \x7b"

def statement? : Code → Option String
  | .line text => some text
  | .block _ => none

/-- The statements of the state method, if nothing is nested in it. -/
def stateStatements? (target : Target) (artifact : Artifact) : Option (List String) :=
  (blockUnder? (stateSignature target artifact.className) artifact.implementation).bind
    fun body => body.mapM statement?

/-- How a slot is declared. -/
def declared (slot : Slot) : String :=
  slot.typeName ++ " " ++ slot.name.text ++ ";"

/-- How the state of a slot is written. -/
def written (slot : Slot) : String :=
  "os << " ++ slot.name.text ++ " << \"\\n\";"

/-! ### The two units -/

theorem fieldLines_map_line (texts : List String) {rest : List Code}
    (hrest : ∀ items more, rest ≠ .block items :: more) :
    fieldLines (texts.map .line ++ rest) = texts ++ fieldLines rest := by
  induction texts with
  | nil => rfl
  | cons text texts ih =>
      -- What comes next is a line again, or what follows the last one, which begins with no block.
      have hnext : ∀ items more, texts.map Code.line ++ rest ≠ .block items :: more := by
        cases texts with
        | nil => exact hrest
        | cons => simp
      rw [List.map_cons, List.cons_append, fieldLines, ih, List.cons_append]
      intro items closing more heq
      exact hnext items _ heq

theorem fieldLines_extraMembers (target : Target) (plan : Plan) :
    fieldLines (Artifact.extraMembers target plan) = [] := by
  cases plan <;> rfl

theorem fields?_interfaceUnit (target : Target) (className : String) (plan : Plan) :
    fields? (Artifact.interfaceUnit target className plan) =
      some (plan.slots.toList.map declared) := by
  have hextra : ∀ items more, Artifact.extraMembers target plan ≠ .block items :: more := by
    cases plan <;> simp [Artifact.extraMembers, Artifact.tableMember]
  have hslots : plan.slots.toList.map Artifact.memberLine =
      (plan.slots.toList.map declared).map .line := by
    simp [Artifact.memberLine, declared]
  have hmembers := fieldLines_map_line
    (("void " ++ target.stateMethod ++ "(std::ostream &os) const override;") ::
      plan.slots.toList.map declared) hextra
  rw [fieldLines_extraMembers, List.append_nil, List.map_cons, List.cons_append] at hmembers
  rw [fields?, blockUnder?_interface, Option.map_some, hslots, hmembers, List.tail_cons]

theorem ne_stateSignature {text : String} (h : text.toList.getLast? ≠ some '\x7b') (target : Target)
    (className : String) : text ≠ stateSignature target className := by
  rintro rfl
  refine h ?_
  simp only [stateSignature, String.toList_append, List.getLast?_append]
  rfl

/-- The state method stands behind the lookup function, which is not taken for it. -/
theorem blockUnder?_stateMethod (target : Target) (className : String) (plan : Plan) :
    blockUnder? (stateSignature target className)
        (Artifact.implementationUnit target className plan) =
      some (plan.slots.toList.map Artifact.stateLine) := by
  have hinclude : "#include \"" ++ (target.includePrefix ++ "/" ++ className ++ ".h") ++ "\"" ≠
      stateSignature target className := by
    refine ne_stateSignature ?_ target className
    simp only [String.toList_append, List.getLast?_append]
    exact nofun
  have hempty : "" ≠ stateSignature target className :=
    ne_stateSignature (by simp) target className
  have hclose : "\x7d" ≠ stateSignature target className :=
    ne_stateSignature (by simp) target className
  -- Both functions open with a brace, so what tells them apart is the character before it.
  have hlookup : target.handlerType ++ "* " ++ className ++ "::lookup(" ++ target.identifierType ++
      " identifier) \x7b" ≠ stateSignature target className := by
    intro heq
    have hlast := congrArg (fun s => s.toList.reverse[2]?) heq
    simp [stateSignature] at hlast
  rw [Artifact.implementationUnit, Artifact.includeLine, blockUnder?, if_neg hinclude, blockUnder?,
    if_neg hempty, blockUnder?, if_neg hlookup, blockUnder?, blockUnder?, if_neg hclose,
    blockUnder?, if_neg hempty]
  exact blockUnder?_heading _ _ _

theorem stateStatements?_ofPlan (target : Target) (mapping : String) (plan : Plan) :
    stateStatements? target (Artifact.ofPlan target mapping plan) =
      some (plan.slots.toList.map written) := by
  rw [stateStatements?]
  simp only [Artifact.ofPlan]
  rw [blockUnder?_stateMethod, Option.bind_some]
  exact mapM_map_eq_some fun slot _ => rfl

end Generated

/-! ### One order -/

namespace Plan

open Generated (fields? stateStatements? declared written)

variable {name : String} {entries : List Entry} {mapping : Mapping} {strategy : Strategy}
  {config : Config} {plan : Plan}

/-- One order of the slots everywhere. Whatever mapping is accepted and however it is laid out, the
slots of the plan are those of the entries, each of them once: in file order for a switch and a
chain, in strictly ascending order of the identifiers for a table. The fields of the generated class
and the statements of its state method are the slots in that order. So are the handlers of a
dispatcher whatever steps it has taken: it lists each slot with the handler that a lookup returns,
and writes the states of the listed handlers one after the other, as far as the sink takes them. -/
theorem slots_in_one_order (hmapping : Mapping.ofEntries name entries = .ok mapping)
    (hplan : Plan.ofMapping strategy mapping config = .ok plan) :
    plan.slots.toList.Perm (entries.map Slot.ofEntry) ∧
      plan.slots.toList.Nodup ∧ (plan.slots.toList.map (·.name)).Nodup ∧
      (strategy ≠ .array → plan.slots.toList = entries.map Slot.ofEntry) ∧
      (strategy = .array →
        plan.slots.toList.Pairwise fun a b => a.identifier < b.identifier) ∧
      (∃ artifact, Artifact.emit mapping strategy config = .ok artifact ∧
        fields? artifact.interface = some (plan.slots.toList.map declared) ∧
        stateStatements? config.target artifact = some (plan.slots.toList.map written)) ∧
      ∀ (H : Type) [Handler H] (make : Slot → H),
        (Dispatcher.ofPlan plan make).toList =
          plan.slots.toList.map (fun slot => (slot, make slot)) ∧
        ∀ (steps : List (Step H)) (last : Dispatcher H) (replies : List (Reply H)),
          (Dispatcher.ofPlan plan make).run steps = (last, replies) →
          last.toList.map (·.1) = plan.slots.toList ∧
          (∀ pair ∈ last.toList, last.lookup pair.1.identifier = some pair.2) ∧
          ∀ sink, last.writeState sink =
            sink.writeAll (last.toList.flatMap fun pair => Handler.state pair.2 ++ ["\n"]) := by
  obtain ⟨-, rfl⟩ := Mapping.ofEntries_eq_ok hmapping
  have hnames : (plan.slots.toList.map (·.name)).Nodup := by
    refine List.Nodup.of_map SlotName.text ?_
    rw [List.map_map]
    exact Generated.nodup_slotNames hplan
  refine ⟨Generated.slots_perm hplan, hnames.of_map _, hnames, ?_, ?_,
    ⟨_, Except.map_eq_ok_iff.2 ⟨plan, hplan, rfl⟩, Generated.fields?_interfaceUnit _ _ _,
      Generated.stateStatements?_ofPlan _ _ _⟩,
    fun H _ make => ⟨?_, fun steps last replies hrun => ?_⟩⟩
  · intro hstrategy
    rw [slots_ofMapping hplan]
    cases strategy with
    | array => contradiction
    | switch => rfl
    | chain => rfl
  · rintro rfl
    rw [slots_ofMapping hplan]
    exact TablePlan.pairwise_lt_sortedSlots mapping
  · rw [Dispatcher.toList, Dispatcher.ofPlan, Array.toList_map]
    exact List.map_prod_left_eq_zip.symm
  · obtain ⟨hfaithful, rfl, -⟩ := Dispatcher.run_ofMapping hplan hrun
    exact ⟨Dispatcher.map_fst_toList last, fun _ hpair => hfaithful.lookup_of_mem_toList hpair,
      Dispatcher.writeState_eq_writeAll last⟩

/-- Three protocols whose file order is not the order of their identifiers, as a table declares and
writes them. -/
theorem slots_in_one_order_ipProtocols :
    Mapping.ofEntries "ip" Mapping.ipProtocols.entries = .ok Mapping.ipProtocols ∧
      ∃ plan artifact, ofMapping .array Mapping.ipProtocols {} = .ok plan ∧
        Artifact.emit Mapping.ipProtocols .array {} = .ok artifact ∧
        fields? artifact.interface = some
          ["ICMPAnalyzer icmpanalyzer1;", "TCPAnalyzer tcpanalyzer6;",
            "UDPAnalyzer udpanalyzer11;"] ∧
        stateStatements? Target.standard artifact = some
          ["os << icmpanalyzer1 << \"\\n\";", "os << tcpanalyzer6 << \"\\n\";",
            "os << udpanalyzer11 << \"\\n\";"] := by
  have hmapping := Mapping.ofEntries_self Mapping.ipProtocols
  obtain ⟨plan, hplan⟩ := ofMapping_ipProtocols
  obtain ⟨hperm, -, -, -, hsorted, ⟨artifact, hemit, hfields, hstates⟩, -⟩ :=
    slots_in_one_order hmapping hplan
  have horder : plan.slots.toList = [Slot.ofEntry ⟨1, "ICMPAnalyzer", 4⟩,
      Slot.ofEntry ⟨6, "TCPAnalyzer", 2⟩, Slot.ofEntry ⟨0x11, "UDPAnalyzer", 3⟩] :=
    (hperm.trans (by decide)).eq_of_pairwise
      (fun _ _ _ _ hab hba => absurd hba (UInt32.lt_asymm hab)) (hsorted rfl) (by decide)
  rw [horder] at hfields hstates
  exact ⟨hmapping, plan, artifact, hplan, hemit, hfields, hstates⟩

end Plan

end Switchboard
