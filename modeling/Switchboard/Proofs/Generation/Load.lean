import Switchboard.Disk.Store
import Switchboard.Generator
import Switchboard.Proofs.Mapping.Names

/-!
Loading mappings from a store. Whether a path is checked to lead to a regular file before it is read
makes a difference to the fault only: a mapping is loaded from exactly the paths that can be read and
hold the text of a mapping, whose name is the stem of the path.
-/

namespace Switchboard

open Disk

theorem String.fromUTF8?_toUTF8 (text : String) : String.fromUTF8? text.toUTF8 = some text := by
  have hvalid : text.toUTF8.IsValidUTF8 := text.isValidUTF8
  rw [String.fromUTF8?, dif_pos hvalid]
  rfl

namespace Disk.Store

variable {store : Store} {path : Path} {bytes : ByteArray}

theorem read_eq_ok_iff : store.read path = .ok bytes ↔
    ∃ location, store.locate path = .ok location ∧
      store.node? location = some (.file (.regular bytes)) := by
  unfold read
  cases store.locate path with
  | error cause => simp [bind, Except.bind]
  | ok location =>
      simp only [bind, Except.bind, Except.ok.injEq, exists_eq_left']
      cases store.node? location with
      | none => simp
      | some node => rcases node with (_ | _) | _ | _ <;> simp

/-- What can be read is a regular file. -/
theorem inspect_of_read (h : store.read path = .ok bytes) : store.inspect path = .ok .file := by
  obtain ⟨location, hlocate, hnode⟩ := read_eq_ok_iff.1 h
  simp [inspect, hlocate, hnode, bind, Except.bind, Node.kind]

theorem run_read (h : store.read path = .ok bytes) :
    store.run (Script.request (.read path) : Script (Except Cause ByteArray)) =
      (.ok bytes, store) := by
  rw [← h]
  rfl

theorem run_inspect {kind : Kind} (h : store.inspect path = .ok kind) :
    store.run (Script.request (.inspect path) : Script (Except Cause Kind)) =
      (.ok kind, store) := by
  rw [← h]
  rfl

end Disk.Store

/-- The path holds the text of a mapping, which is named after the path. -/
def Mapping.IsAt (store : Store) (config : Config) (path : Path) (mapping : Mapping) : Prop :=
  ∃ bytes source, store.read path = .ok bytes ∧ String.fromUTF8? bytes = some source ∧
    Mapping.ofSource (nameOfPath path) source config = .ok mapping

variable {store : Store} {config : Config} {path : Path} {mapping : Mapping}

theorem perform_loadMapping (h : mapping.IsAt store config path) :
    store.perform (Mapping.load config path) = (.ok mapping, store) := by
  obtain ⟨bytes, source, hread, hsource, hmapping⟩ := h
  unfold Mapping.load Job.attempt
  simp only [Store.perform_bind, Store.perform_lift, Store.run_read hread, Store.perform_pure,
    hsource, Store.perform_ofExcept, hmapping]

theorem perform_load (h : mapping.IsAt store config path) (root : Path) :
    store.perform (Generator.load ⟨config, root⟩ path) = (.ok mapping, store) := by
  obtain ⟨bytes, source, hread, -⟩ := id h
  have hinspect := Store.run_inspect (Store.inspect_of_read hread)
  unfold Generator.load requireFile inspectPath
  simp only [Store.perform_bind, Store.perform_lift, hinspect, Store.perform_pure, if_true,
    perform_loadMapping h]

/-- A store with one mapping. -/
def ipProtocolsStore : Store where
  home := []
  nodes := [(["maps"], .directory), (["ip", "maps"], .file (.regular Mapping.ipProtocolsText.toUTF8))]

theorem isAt_ipProtocolsStore : Mapping.ipProtocols.IsAt ipProtocolsStore {} ⟨"maps/ip"⟩ := by
  have hread : ipProtocolsStore.read ⟨"maps/ip"⟩ = .ok Mapping.ipProtocolsText.toUTF8 := by rfl
  exact ⟨_, _, hread, String.fromUTF8?_toUTF8 _, Mapping.ofSource_ipProtocolsText⟩

end Switchboard
