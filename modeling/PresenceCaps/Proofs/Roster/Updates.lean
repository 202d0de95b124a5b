import PresenceCaps.Proofs.Roster.Steps

/-! How one more call changes what a history says of its updates. -/
namespace PresenceCaps.Roster

theorem trustedBits_eq (b : Bundles) (sigs : List CapabilitySignature) :
    trustedBits b sigs = .unionAll (sigs.map fun s => (b.trustedFeatures s).capabilities) := rfl

namespace PastUpdate
variable (x : PastUpdate) (r : Resolution) {s : CapabilitySignature}

@[simp] theorem bundles_extend : (x.extend r).bundles = x.bundles := rfl

@[simp] theorem update_extend : (x.extend r).update = x.update := rfl

@[simp] theorem job_extend : (x.extend r).job = x.job := rfl

@[simp] theorem position_extend : (x.extend r).position = x.position := rfl

theorem resolution?_extend :
    (x.extend r).resolution? s = (x.resolution? s).or (r.features? x.job s) := by
  simp [resolution?, extend]

/-- A resolution for the job takes its bundle off the list. -/
theorem outstanding_extend : (x.extend r).outstanding =
    if r.job = x.job then x.outstanding.filter (· ≠ r.signature) else x.outstanding := by
  split
  · rename_i hj
    rw [outstanding, outstanding, List.filter_filter]
    refine List.filter_congr fun s _ => ?_
    rw [resolution?_extend]
    by_cases hs : r.signature = s
    · simp [Resolution.features?, hj, hs]
    · simp [Resolution.features?, hs, Ne.symm hs]
  · rename_i hj
    refine List.filter_congr fun s _ => ?_
    simp [resolution?_extend, Resolution.features?, hj]

theorem outstanding_extend_of_not_awaits (h : ¬ x.Awaits r) : (x.extend r).outstanding = x.outstanding := by
  rw [outstanding_extend]
  split
  · rename_i hj
    refine List.filter_eq_self.2 fun s hs => ?_
    have hne : s ≠ r.signature := fun he => h ⟨hj, he ▸ hs⟩
    simpa using hne
  · rfl

theorem mem_outstanding : s ∈ x.outstanding ↔
    s ∈ x.update.signatures ∧ x.bundles.isConfirmed s = false ∧ x.resolution? s = none := by
  simp [outstanding, PresenceUpdate.untrusted, and_left_comm, and_comm]

/-- Only the first resolution of a bundle that the update waits for counts. -/
theorem features_extend_of_not_awaits (h : ¬ x.Awaits r) (hs : s ∈ x.update.signatures) :
    (x.extend r).features s = x.features s := by
  rw [features, features, resolution?_extend, bundles_extend]
  split
  · rfl
  · rename_i ht
    cases hr : x.resolution? s with
    | some f => rfl
    | none =>
      have hn : ¬ (r.job = x.job ∧ r.signature = s) := by
        rintro ⟨hj, rfl⟩
        exact h ⟨hj, x.mem_outstanding.2 ⟨hs, by simpa using ht, hr⟩⟩
      simp [Resolution.features?, hn]

theorem bits_extend_of_not_awaits (h : ¬ x.Awaits r) : (x.extend r).bits = x.bits :=
  congrArg Capabilities.unionAll
    (List.map_congr_left fun _ hs => congrArg _ (x.features_extend_of_not_awaits r h hs))

/-- What a resolution brings is added to what is there. -/
theorem bits_extend_of_awaits (h : x.Awaits r) :
    (x.extend r).bits = x.bits.union r.features.capabilities := by
  obtain ⟨hj, hmem⟩ := h
  obtain ⟨hs, ht, hr⟩ := x.mem_outstanding.1 hmem
  have hself : (x.extend r).features r.signature = r.features := by
    simp [features, resolution?_extend, ht, hr, Resolution.features?, hj]
  have hold : x.features r.signature = .empty := by
    simp [features, ht, hr]
  have hother (s : CapabilitySignature) (hne : s ≠ r.signature) : (x.extend r).features s = x.features s := by
    simp [features, resolution?_extend, Resolution.features?, hne.symm]
  -- bit by bit: those of the resolved bundle are the new ones, those of every other bundle stay
  refine Capabilities.eq_of_has_eq fun i => ?_
  rw [Bool.eq_iff_iff, Capabilities.has_union, Bool.or_eq_true, bits, bits, Capabilities.has_unionAll_map,
    Capabilities.has_unionAll_map]
  constructor
  · rintro ⟨s, hmem, hi⟩
    by_cases hne : s = r.signature
    · rw [hne, hself] at hi
      exact Or.inr hi
    · rw [hother s hne] at hi
      exact Or.inl ⟨s, hmem, hi⟩
  · rintro (⟨s, hmem, hi⟩ | hi)
    · have hne : s ≠ r.signature := by
        rintro rfl
        simp [hold] at hi
      exact ⟨s, hmem, by rwa [hother s hne]⟩
    · exact ⟨_, hs, by rwa [hself]⟩

/-- An update that just came has only what its trusted bundles grant. -/
theorem outstanding_of_since_eq_nil (h : x.since = []) : x.outstanding = x.update.untrusted x.bundles := by
  simp [outstanding, resolution?, h]

theorem bits_of_since_eq_nil (h : x.since = []) : x.bits = trustedBits x.bundles x.update.signatures := by
  rw [bits, trustedBits_eq]
  congr 2
  funext s
  by_cases ht : x.bundles.isConfirmed s <;> simp [features, resolution?, h, Bundles.trustedFeatures_eq, ht]

end PastUpdate

namespace History
variable {fits : Call → JobId → Bool} {h : History} {a : FullAddress} {b : Bundles} {u : PresenceUpdate}
  {r : Resolution}

theorem updatesThen_append (since more : List Resolution) (h : History) :
    updatesThen fits (since ++ more) h =
      (updatesThen fits since h).modifyHead fun x => { x with since := x.since ++ more } := by
  induction h generalizing since with
  | nil => rfl
  | cons c h ih =>
    cases c with
    | start b u =>
      simp only [updatesThen]
      split
      · -- all that came since is noted here, and older updates do not see it
        rfl
      · exact ih since
    | resolve r => exact ih (r :: since)

/-- A resolution is noted with the latest update, whatever job it is for. -/
theorem updatesThen_resolve :
    updatesThen fits [] (.resolve r :: h) = (updatesThen fits [] h).modifyHead (·.extend r) :=
  updatesThen_append [] [r] h

theorem updates_start_self : updates (.start b u :: h) u.sender =
    ⟨b, u, h.length, h.nextJob, []⟩ :: h.updates u.sender := by
  simp [updates, updatesThen, Call.sender?]

theorem updates_start_of_ne (hne : u.sender ≠ a) : updates (.start b u :: h) a = h.updates a := by
  simp [updates, updatesThen, Call.sender?, hne]

theorem updates_resolve : updates (.resolve r :: h) a = (h.updates a).modifyHead (·.extend r) :=
  updatesThen_resolve

end History
end PresenceCaps.Roster
