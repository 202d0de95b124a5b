import PresenceCaps.Proofs.Settings.Fields

/-! What the variables of the environment do to the settings that they are meant for, and to all others. -/
namespace PresenceCaps
open Datum

namespace Fallback
variable {b : Fallback} {env : Environment} {overlay merged merged' : Datum}

/-- The text that the environment has for a field that the document does not set. -/
def raw? (b : Fallback) (env : Environment) (overlay : Datum) : Option String :=
  if b.isSetBy overlay then none else env.get? b.variableName

theorem apply_cases (h : b.apply env overlay merged = .ok merged') :
    (b.raw? env overlay = none ∧ merged' = merged) ∨
    ∃ raw v, b.raw? env overlay = some raw ∧ b.value? raw = some v ∧ merged' = b.put v merged := by
  unfold apply at h
  unfold raw?
  split at h
  · rename_i hnone
    rw [hnone, ite_self]
    exact Or.inl ⟨rfl, (Except.ok.inj h).symm⟩
  · rename_i raw hraw
    split at h
    · rename_i hset
      rw [if_pos hset]
      exact Or.inl ⟨rfl, (Except.ok.inj h).symm⟩
    · rename_i hset
      rw [if_neg hset, hraw]
      split at h
      · exact absurd h (by simp)
      · rename_i v hv
        exact Or.inr ⟨raw, v, rfl, hv, (Except.ok.inj h).symm⟩

theorem exists_of_applyAll_cons {bs : List Fallback} (h : applyAll env overlay (b :: bs) merged = .ok merged') :
    ∃ next, b.apply env overlay merged = .ok next ∧ applyAll env overlay bs next = .ok merged' := by
  rw [applyAll] at h
  cases hnext : b.apply env overlay merged with
  | error e =>
    rw [hnext] at h
    exact absurd h (by simp [Except.bind])
  | ok next =>
    rw [hnext] at h
    exact ⟨next, rfl, h⟩

/-- A field is put into a section that is a table, and all else stays. -/
theorem child?_put (b : Fallback) (v merged : Datum) (s : String) : (b.put v merged).child? s =
    if b.sectionName = s then (merged.child? s).map fun t => match t with
      | .table es => .table (Assoc.set es b.key v)
      | t => t
    else merged.child? s := by
  cases merged with
  | table es => exact Assoc.get?_modify ..
  | _ => exact (ite_self _).symm

/-- Sections that are tables stay tables, and all others stay what they are. -/
def Keeps (merged merged' : Datum) (s : String) : Prop :=
  ∀ t, merged.child? s = some t →
    ∃ t', merged'.child? s = some t' ∧ t'.isTable = t.isTable ∧ (t.isTable = false → t' = t)

end Fallback

end PresenceCaps
