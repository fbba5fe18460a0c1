import Mathlib.Data.List.Forall2
import Switchboard.Command.Arguments
import Switchboard.Command.Run
import Switchboard.Proofs.Generation.Load
import Switchboard.Proofs.Identifier.Reading
import Switchboard.Proofs.Mapping.Grammar
import Switchboard.Proofs.Plan.Lookup

/-!
Resolving identifiers, from two texts to the records that are printed. One text is an argument, the
other a mapping, and both spell identifiers in their own way: upper or lower case, with zeros in
front or `0x` or neither. What ties them together is the number a spelling denotes, so a record is
described by that number (`Resolution.Answers`) and by the lines of the mapping text alone. No
layout and no width of the identifiers appears in the description, and therefore every strategy
prints the same records.
-/

namespace Switchboard

open Disk

/-- Some line behind the first has two fields, the first of which denotes the number and the second
of which is the handler type. -/
def Mapping.HasRow (lines : List (List Char)) (n : Nat) (typeName : String) : Prop :=
  ∃ text ∈ lines.tail, ∃ field, Text.Fields text [field, typeName.toList] ∧
    Identifier.Denotes field n

namespace Mapping

variable {name source : String} {config : Config} {mapping : Mapping}

/-- The entries of a mapping are the rows of its text. -/
theorem hasRow_iff (h : ofSource name source config = .ok mapping) {n : Nat} {typeName : String} :
    HasRow (Text.lines source.toList) n typeName ↔
      ∃ e ∈ mapping.entries, e.identifier.toNat = n ∧ e.typeName = typeName := by
  have hread := (readEntries_eq_ok_iff.1 (ofSource_eq_ok h).2).2
  obtain ⟨hlength, hentries⟩ := readLines_eq_ok hread
  constructor
  · rintro ⟨text, htext, field, hfields, hdenotes⟩
    obtain ⟨i, hi, rfl⟩ := List.getElem_of_mem htext
    have hentry := List.getElem?_eq_getElem (hlength ▸ hi : i < mapping.entries.length)
    obtain ⟨-, found, hfound, field', hfields', hread', -⟩ := hentries i _ hentry
    rw [List.getElem?_eq_getElem hi] at hfound
    -- A line has only one reading as fields, and a field denotes only one number.
    have hsame := hfields.eq_fields.symm.trans (Option.some.inj hfound ▸ hfields'.eq_fields)
    rw [List.cons.injEq, List.cons.injEq, String.toList_inj] at hsame
    obtain ⟨rfl, rfl, -⟩ := hsame
    have hdenotes' := (Identifier.read_eq_ok_iff.1 hread').1
    rw [String.toList_ofList] at hdenotes'
    exact ⟨_, List.getElem_mem _, hdenotes'.unique hdenotes, rfl⟩
  · rintro ⟨e, he, rfl, rfl⟩
    obtain ⟨i, hi⟩ := List.getElem?_of_mem he
    obtain ⟨-, text, htext, field, hfields, hread', -⟩ := hentries i e hi
    have hdenotes := (Identifier.read_eq_ok_iff.1 hread').1
    rw [String.toList_ofList] at hdenotes
    exact ⟨text, List.mem_of_getElem? htext, field, hfields, hdenotes⟩

end Mapping

namespace Command

open Mapping (HasRow)

/-- The record tells what the lines of a mapping text say about a number: the handler type of its
row and the name of its slot, or nothing about either if it has no row. -/
structure Resolution.Answers (lines : List (List Char)) (n : Nat) (record : Resolution) :
    Prop where
  identifier : Identifier.Denotes record.identifier.literal.toList n
  found : ∀ typeName, HasRow lines n typeName ↔
    record.handler = some typeName ∧ record.slot = some (Text.lowercase typeName ++ Text.hex n)
  missing : (∀ typeName, ¬ HasRow lines n typeName) → record.handler = none ∧ record.slot = none

variable {source name : String} {config : Config} {mapping : Mapping} {strategy : Strategy}
  {plan : Plan}

theorem Resolution.of_eq_some {identifier : Identifier} {e : Entry}
    (h : plan.lookup identifier = some (Slot.ofEntry e)) (he : e.identifier = identifier) :
    of plan identifier =
      ⟨identifier, some e.typeName, some (Text.lowercase e.typeName ++ Text.hex identifier.toNat)⟩ := by
  rw [of, h, ← he]
  rfl

theorem Resolution.of_eq_none {identifier : Identifier} (h : plan.lookup identifier = none) :
    of plan identifier = ⟨identifier, none, none⟩ := by
  rw [of, h]
  rfl

/-- What a plan looks up is what the text says. -/
theorem Resolution.answers_of (hmapping : Mapping.ofSource name source config = .ok mapping)
    (hplan : Plan.ofMapping strategy mapping config = .ok plan) (identifier : Identifier) :
    (of plan identifier).Answers (Text.lines source.toList) identifier.toNat := by
  have hrow : ∀ typeName, HasRow (Text.lines source.toList) identifier.toNat typeName ↔
      ∃ e ∈ mapping.entries, e.identifier.toNat = identifier.toNat ∧ e.typeName = typeName :=
    fun _ => Mapping.hasRow_iff hmapping
  cases hlookup : plan.lookup identifier with
  | some slot =>
      obtain ⟨hslot, hidentifier⟩ := (Plan.lookup_eq_some_iff hplan).1 hlookup
      obtain ⟨e, he, rfl⟩ := Mapping.mem_slots.1 hslot
      rw [of_eq_some hlookup hidentifier]
      refine ⟨Identifier.denotes_literal identifier, fun typeName => ?_, fun hnone => ?_⟩
      · rw [hrow]
        constructor
        · rintro ⟨e', he', hnumber, rfl⟩
          obtain rfl : e' = e := mapping.eq_of_identifier_eq he' he
            (UInt32.toNat_inj.1 (hnumber.trans (congrArg _ hidentifier.symm)))
          exact ⟨rfl, rfl⟩
        · rintro ⟨hhandler, -⟩
          exact ⟨e, he, congrArg _ hidentifier, Option.some.inj hhandler⟩
      · exact absurd ((hrow _).2 ⟨e, he, congrArg _ hidentifier, rfl⟩) (hnone e.typeName)
  | none =>
      rw [of_eq_none hlookup]
      refine ⟨Identifier.denotes_literal identifier, fun typeName => ?_, fun _ => ⟨rfl, rfl⟩⟩
      rw [hrow]
      constructor
      · rintro ⟨e, he, hnumber, -⟩
        have hne := (Plan.lookup_eq_none_iff hplan).1 hlookup _ (Mapping.mem_slots.2 ⟨e, he, rfl⟩)
        exact absurd (UInt32.toNat_inj.1 hnumber) hne
      · rintro ⟨hhandler, -⟩
        cases hhandler

theorem Resolution.of_eq_of_mapping (hplan : Plan.ofMapping strategy mapping config = .ok plan)
    {strategy' : Strategy} {plan' : Plan}
    (hplan' : Plan.ofMapping strategy' mapping config = .ok plan') :
    of plan' = of plan := by
  funext identifier
  rw [of, of, Plan.lookup_eq_of_mapping hplan hplan']

/-! ### Printed records -/

/-- The line is a JSON record with the fields of a resolution: names in quotes, or `null` twice. -/
inductive Resolution.IsPrinted : Resolution → String → Prop
  | found (identifier : Identifier) (handler slot : String) :
    IsPrinted ⟨identifier, some handler, some slot⟩
      ("\x7b\"identifier\":" ++ ("\"" ++ identifier.literal ++ "\"") ++
        ",\"handler\":" ++ ("\"" ++ handler ++ "\"") ++
        ",\"slot\":" ++ ("\"" ++ slot ++ "\"") ++ "\x7d\n")
  | missing (identifier : Identifier) :
    IsPrinted ⟨identifier, none, none⟩
      ("\x7b\"identifier\":" ++ ("\"" ++ identifier.literal ++ "\"") ++
        ",\"handler\":" ++ "null" ++ ",\"slot\":" ++ "null" ++ "\x7d\n")

theorem Resolution.isPrinted_text (plan : Plan) (identifier : Identifier) :
    (of plan identifier).IsPrinted (of plan identifier).text := by
  unfold of
  cases plan.lookup identifier with
  | some slot => exact .found identifier slot.typeName slot.name.text
  | none => exact .missing identifier

/-! ### Arguments -/

/-- Arguments are read in their order, and as the numbers they denote. -/
theorem denotes_of_mapM {arguments : List String} {identifiers : List Identifier}
    (h : arguments.mapM readIdentifier = .ok identifiers) :
    List.Forall₂ (fun (argument : String) (identifier : Identifier) =>
      Identifier.Denotes argument.toList identifier.toNat) arguments identifiers := by
  have hmap := Except.mapM_eq_ok_iff.1 h
  rw [← List.forall₂_eq_eq_eq, List.forall₂_map_left_iff, List.forall₂_map_right_iff] at hmap
  refine hmap.imp fun argument identifier hread => ?_
  rw [readIdentifier] at hread
  split at hread
  · next hread' =>
    cases hread
    exact (Identifier.read_eq_ok_iff.1 hread').1
  · cases hread

/-! ### The command -/

theorem run_conclude {α : Type} {palette : Palette} {job : Job α} {report : α → Outcome}
    {store store' : Store} {result : α} (h : store.perform job = (.ok result, store')) :
    store.run (conclude palette job report) = (report result, store') := by
  have hrun : store.run job.run = (.ok result, store') := h
  simp [conclude, hrun]

/-- Resolving prints one record for each argument, in their order, and each of them tells what the
text of the mapping says about the number the argument denotes. The strategy has no influence on
the records. -/
theorem resolve_answers_arguments {store : Store} {path : Path} {arguments : List String}
    {identifiers : List Identifier} (hread : store.read path = .ok source.toUTF8)
    (hmapping : Mapping.ofSource (Mapping.nameOfPath path) source config = .ok mapping)
    (harguments : arguments.mapM readIdentifier = .ok identifiers) :
    ∃ lines records printed, Text.Lines source.toList lines ∧
      List.Forall₂ (fun (argument : String) (record : Resolution) =>
        ∃ n, Identifier.Denotes argument.toList n ∧ record.Answers lines n) arguments records ∧
      List.Forall₂ Resolution.IsPrinted records printed ∧
      ∀ strategy plan, Plan.ofMapping strategy mapping config = .ok plan →
        ∀ terminal coloring,
          store.run (run terminal (.resolve strategy path identifiers config coloring)) =
            ({ output := String.join printed }, store) := by
  have hswitch : Plan.ofMapping .switch mapping config =
    .ok (.switch (SwitchPlan.ofMapping mapping)) := rfl
  have hload : mapping.IsAt store config path :=
    ⟨source.toUTF8, source, hread, String.fromUTF8?_toUTF8 source, hmapping⟩
  let records := identifiers.map (Resolution.of (.switch (SwitchPlan.ofMapping mapping)))
  refine ⟨Text.lines source.toList, records, records.map (·.text), Text.lines_spec _, ?_, ?_,
    fun strategy plan hplan terminal coloring => ?_⟩
  · rw [List.forall₂_map_right_iff]
    exact (denotes_of_mapM harguments).imp fun argument identifier hargument =>
      ⟨_, hargument, Resolution.answers_of hmapping hswitch identifier⟩
  · rw [List.forall₂_map_right_iff, List.forall₂_same]
    intro record hrecord
    obtain ⟨identifier, -, rfl⟩ := List.mem_map.1 hrecord
    exact Resolution.isPrinted_text _ identifier
  · have hjob : store.perform (do
        let mapping ← Generator.load ⟨config, shownRoot⟩ path
        Job.ofExcept (Plan.ofMapping strategy mapping config)) = (.ok plan, store) := by
      rw [Store.perform_bind, perform_load hload]
      exact congrArg (·, store) hplan
    rw [run, run_conclude hjob, Resolution.of_eq_of_mapping hswitch hplan, List.map_map]
    rfl

/-- Three spellings on the command line, of which the last is wider than the mapping. -/
theorem resolve_ipProtocols :
    ∃ lines records printed,
      parse ["resolve", "array", "maps/ip", "0X0006", "11", "fFFFffff"] =
        .ok (.resolve .array ⟨"maps/ip"⟩ [6, 0x11, 0xffffffff] {} .auto) ∧
      ipProtocolsStore.read ⟨"maps/ip"⟩ = .ok Mapping.ipProtocolsText.toUTF8 ∧
      Mapping.ofSource (Mapping.nameOfPath ⟨"maps/ip"⟩) Mapping.ipProtocolsText {} =
        .ok Mapping.ipProtocols ∧
      Text.Lines Mapping.ipProtocolsText.toList lines ∧
      List.Forall₂ (fun (argument : String) (record : Resolution) =>
        ∃ n, Identifier.Denotes argument.toList n ∧ record.Answers lines n)
        ["0X0006", "11", "fFFFffff"] records ∧
      List.Forall₂ Resolution.IsPrinted records printed ∧
      ipProtocolsStore.run
          (run false (.resolve .array ⟨"maps/ip"⟩ [6, 0x11, 0xffffffff] {} .auto)) =
        ({ output := String.join printed }, ipProtocolsStore) := by
  have hparse : parse ["resolve", "array", "maps/ip", "0X0006", "11", "fFFFffff"] =
      .ok (.resolve .array ⟨"maps/ip"⟩ [6, 0x11, 0xffffffff] {} .auto) := by rfl
  have hread : ipProtocolsStore.read ⟨"maps/ip"⟩ = .ok Mapping.ipProtocolsText.toUTF8 := by rfl
  have hmapping : Mapping.ofSource (Mapping.nameOfPath ⟨"maps/ip"⟩) Mapping.ipProtocolsText {} =
      .ok Mapping.ipProtocols := Mapping.ofSource_ipProtocolsText
  have harguments : ["0X0006", "11", "fFFFffff"].mapM readIdentifier =
      .ok [6, 0x11, 0xffffffff] := by rfl
  obtain ⟨plan, hplan⟩ := Plan.ofMapping_ipProtocols
  obtain ⟨lines, records, printed, hlines, hrecords, hprinted, hrun⟩ :=
    resolve_answers_arguments hread hmapping harguments
  exact ⟨lines, records, printed, hparse, hread, hmapping, hlines, hrecords, hprinted,
    hrun .array plan hplan false .auto⟩

end Command

end Switchboard
