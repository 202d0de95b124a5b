import PresenceCaps.Proofs.Datum.Distinct
import PresenceCaps.Settings.Resolve

/-!
The fields of the settings one by one: where each stands in the data that settings are read from, and what a document
laid over the defaults leaves there.
-/
namespace PresenceCaps
open Datum

namespace Datum
variable {t : Datum}

theorem get?_two (t : Datum) (s k : String) : t.get? [s, k] = (t.child? s).bind fun u => u.child? k := by
  rw [get?_cons]
  cases t.child? s with
  | none => rfl
  | some u =>
    rw [Option.bind_some, Option.bind_some, get?_cons]
    cases u.child? k <;> rfl

/-- A field of a section, which has it under its key or at its position. -/
def field? (key : String) (position : Nat) : Datum → Option Datum
  | table es => Assoc.get? es key
  | list ts => ts[position]?
  | _ => none

/-- Fields are in tables and in lists. -/
def hasFields : Datum → Bool
  | table _ => true
  | list _ => true
  | _ => false

end Datum

/-- A field of the settings: where it stands, and what it is. -/
structure SettingsField where
  sectionName : String
  key : String
  position : Nat
  value : Settings → Datum

/-- Where the field stands that a variable can set. -/
def Fallback.path (b : Fallback) : List String := [b.sectionName, b.key]

namespace SettingsField

def confirmationsRequired : SettingsField :=
  ⟨"trust", "confirmations_required", 0, fun s => ofWord32 s.trust.confirmationsRequired⟩

def queryTimeoutSecs : SettingsField :=
  ⟨"discovery", "query_timeout_secs", 0, fun s => ofWord64 s.discovery.queryTimeoutSecs⟩

def commandBuffer : SettingsField := ⟨"service", "command_buffer", 0, fun s => ofWord64 s.service.commandBuffer⟩

def channelCapacity : SettingsField := ⟨"events", "channel_capacity", 0, fun s => ofWord64 s.events.channelCapacity⟩

def level : SettingsField := ⟨"logging", "level", 0, fun s => text s.logging.level⟩

def format : SettingsField := ⟨"logging", "format", 1, fun s => text s.logging.format⟩

def directives : SettingsField := ⟨"logging", "directives", 2, fun s => ofTexts s.logging.directives⟩

def all : List SettingsField :=
  [confirmationsRequired, queryTimeoutSecs, commandBuffer, channelCapacity, level, format, directives]

def path (f : SettingsField) : List String := [f.sectionName, f.key]

/-- The variable that can set the field, if there is one. -/
def fallback? (f : SettingsField) : Option Fallback := Fallback.all.find? fun b => b.path = f.path

/-- How a field is read from its section: what is not there has its default. -/
structure Reads (f : SettingsField) (s : Option Datum) (v : Datum) : Prop where
  hasFields : ∀ t, s = some t → t.hasFields = true
  value : v = (s.bind (Datum.field? f.key f.position)).getD (f.value .default)

variable {f : SettingsField} {v : Datum}

/-- The defaults have every field, and none of the fields is a table. -/
theorem of_mem_all (hf : f ∈ all) : (∃ t, Settings.default.toDatum.child? f.sectionName = some t ∧ t.isTable = true ∧
    t.child? f.key = some (f.value .default)) ∧ ∀ v, (f.value .default).merge v = v := by
  simp only [all, List.mem_cons, List.not_mem_nil, or_false] at hf
  rcases hf with rfl | rfl | rfl | rfl | rfl | rfl | rfl <;>
    exact ⟨⟨_, rfl, rfl, rfl⟩, fun v => by cases v <;> rfl⟩

/-- In what the document makes of the defaults, a section that is no table stands as it is in the document, and in any
other section a field that the document does not set has its default. -/
theorem child?_overDefaults (hf : f ∈ all) {overlay : Datum} (hd : overlay.DistinctKeys) (ht : overlay.isTable = true) :
    (∀ u, overlay.child? f.sectionName = some u → u.isTable = false →
      (Settings.overDefaults overlay).child? f.sectionName = some u) ∧
    ((∀ u, overlay.child? f.sectionName = some u → u.isTable = true) →
      ∃ t, (Settings.overDefaults overlay).child? f.sectionName = some t ∧ t.isTable = true ∧
        t.child? f.key = some ((overlay.get? f.path).getD (f.value .default))) := by
  obtain ⟨⟨t, hbase, htable, hdefault⟩, hmerge⟩ := of_mem_all hf
  have hdefaults : Settings.default.toDatum.isTable = true := rfl
  have hchild := child?_merge hdefaults ht hd f.sectionName
  rw [hbase] at hchild
  refine ⟨fun u hu hut => ?_, fun hall => ?_⟩
  · rw [hu] at hchild
    exact hchild.trans (congrArg some (t.merge_of_not_isTable hut))
  · cases hu : overlay.child? f.sectionName with
    | none =>
      rw [hu] at hchild
      have hunset : overlay.get? f.path = none := by
        rw [path, get?_two, hu, Option.bind_none]
      exact ⟨t, hchild, htable, by rw [hunset]; exact hdefault⟩
    | some u =>
      rw [hu] at hchild
      have hut := hall u hu
      have hset : overlay.get? f.path = u.child? f.key := by
        rw [path, get?_two, hu, Option.bind_some]
      refine ⟨t.merge u, hchild, (isTable_merge htable).trans hut, ?_⟩
      rw [child?_merge htable hut (hd.child? hu), hset, hdefault]
      cases u.child? f.key with
      | none => rfl
      | some v => exact congrArg some (hmerge v)

end SettingsField

end PresenceCaps
