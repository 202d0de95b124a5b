import PresenceCaps.Proofs.Roster.Steps

/-! What every call keeps of every contact: it publishes what its resources grant, and holds each of them once. -/
namespace PresenceCaps.Roster
variable {P : ContactState → Prop}

/-- A property of contacts that the four changes of a contact keep is kept by every call. -/
theorem contact_step {r : Roster} (h : ∀ c, P (r.contact c))
    (hon : ∀ x name priority, P x → P (x.online name priority))
    (hoff : ∀ x name, P x → P (x.offline name).republish)
    (hassign : ∀ x name bits, P x → P (x.assign name bits).republish) (call : Call) (c : BareAddress) :
    P ((r.step call).1.contact c) := by
  have hs (a : FullAddress) : P ((r.supersede a).contact c) := by
    rw [contact_supersede]
    exact h c
  cases call with
  | start b u =>
    -- what an available update does first, whether it waits or not
    have hready (d : BareAddress) : P ((r.ready u).contact d) := by
      rw [ready, contact_updateContact]
      split
      · rw [contact_supersede]
        exact hon _ _ _ (h _)
      · rw [contact_supersede]
        exact h d
    simp only [step]
    obtain ⟨-, -, he⟩ | ⟨-, -, he⟩ | ⟨-, -, he⟩ := r.start_cases b u
    · simp only [he, contact_publish, contact_updateContact, if_true]
      split
      · rw [contact_supersede]
        exact hoff _ _ (h _)
      · exact hs _
    · simp only [he, contact_complete]
      split
      · exact hassign _ _ _ (hready _)
      · exact hready c
    · rw [he]
      exact hready c
  | resolve x =>
    simp only [step]
    obtain ⟨-, he⟩ | ⟨job, -, -, ⟨-, he⟩ | ⟨-, he⟩⟩ := r.resolve_cases x
    · rw [he]
      exact h c
    · rw [he]
      exact h c
    · rw [he, contact_complete]
      split
      · exact hassign _ _ _ (h _)
      · exact h c

theorem published_eq_effective_step {r : Roster} (h : ∀ c, (r.contact c).published = (r.contact c).effective)
    (call : Call) (c : BareAddress) :
    ((r.step call).1.contact c).published = ((r.step call).1.contact c).effective := by
  refine contact_step (P := fun x => x.published = x.effective) h ?_ ?_ ?_ call c
  · intro x name priority hx
    rwa [ContactState.published_online, ContactState.effective_online]
  · intro x name _
    rfl
  · intro x name bits _
    rfl

theorem nodup_resources_step {r : Roster} (h : ∀ c, (r.contact c).resources.keys.Nodup) (call : Call)
    (c : BareAddress) : ((r.step call).1.contact c).resources.keys.Nodup := by
  refine contact_step (P := fun x => x.resources.keys.Nodup) h ?_ ?_ ?_ call c
  · intro x name priority hx
    exact Assoc.nodup_keys_set hx name _
  · intro x name hx
    exact Assoc.nodup_keys_erase hx name
  · intro x name bits hx
    exact Assoc.nodup_keys_modify hx name fun r => { r with bits }

namespace History

theorem published_eq_effective (h : History) (c : BareAddress) :
    (h.roster.contact c).published = (h.roster.contact c).effective := by
  induction h generalizing c with
  | nil => rfl
  | cons call h ih => exact published_eq_effective_step ih call c

theorem nodup_resources (h : History) (c : BareAddress) : (h.roster.contact c).resources.keys.Nodup := by
  induction h generalizing c with
  | nil => exact List.nodup_nil
  | cons call h ih => exact nodup_resources_step ih call c

theorem resource?_eq_some_iff (h : History) {c : BareAddress} {name : String} {x : OnlineResource} :
    h.roster.resource? (c.withResource name) = some x ↔ (name, x) ∈ (h.roster.contact c).resources :=
  Assoc.get?_eq_some_iff_mem (h.nodup_resources c)

/-- A contact's published capabilities are the baseline and what its online resources hold. -/
theorem has_published (h : History) (c : BareAddress) (i : Nat) : (h.roster.published c).has i = true ↔
    Capabilities.baseline.has i = true ∨
      ∃ name x, h.roster.resource? (c.withResource name) = some x ∧ x.bits.has i = true := by
  have hp : h.roster.published c = (h.roster.contact c).effective := h.published_eq_effective c
  rw [hp, ContactState.effective_eq, Capabilities.has_foldl_union]
  -- names come once, so that the entries of the list are what look-up finds
  refine or_congr_right ⟨?_, ?_⟩
  · rintro ⟨d, hd, hi⟩
    obtain ⟨⟨name, x⟩, hmem, rfl⟩ := List.mem_map.1 hd
    exact ⟨name, x, h.resource?_eq_some_iff.2 hmem, hi⟩
  · rintro ⟨name, x, hx, hi⟩
    exact ⟨x.bits, List.mem_map_of_mem (f := fun e => e.2.bits) (h.resource?_eq_some_iff.1 hx), hi⟩

end History
end PresenceCaps.Roster
