import Mathlib.Data.List.Induction
import PresenceCaps.Proofs.Service.Learning

/-!
Discovery happens exactly when trust is missing: an update asks its resource for every bundle that it refers to and that
is not confirmed, and for no other.
-/
namespace PresenceCaps
variable {σ : Type} [Sink σ]

/-- The bundles that an update refers to, in the order of its advertisement and with repetitions. -/
def PresenceUpdate.references (u : PresenceUpdate) : List CapabilitySignature :=
  match u.availability, u.caps with
  | .available, some a => a.baseSignature :: a.ext.map (.ofExtension a.node)
  | _, _ => []

theorem CapsAdvertisement.foldl_addNew (s : CapabilitySignature) (more : List CapabilitySignature) :
    more.foldl (fun sigs t => if t ∈ sigs then sigs else sigs ++ [t]) [s] = (s :: more).eraseDups := by
  -- from the end, since what is added there depends on all that came before
  induction more using List.reverseRecOn with
  | nil => rfl
  | append_singleton more t ih =>
    rw [List.foldl_concat, ih, ← List.cons_append, List.eraseDups_append]
    by_cases ht : t ∈ s :: more
    · have hnone : [t].removeAll (s :: more) = [] := by
        have helem : List.elem t (s :: more) = true := List.elem_eq_true_of_mem ht
        rw [List.removeAll, List.filter_cons_of_neg (by rw [helem]; decide), List.filter_nil]
      rw [if_pos (List.mem_eraseDups.2 ht), hnone, List.eraseDups_nil, List.append_nil]
    · have hone : [t].removeAll (s :: more) = [t] := by
        rw [List.removeAll, List.filter_cons_of_pos (by simpa using ht), List.filter_nil]
      rw [if_neg (mt List.mem_eraseDups.1 ht), hone]
      rfl

theorem PresenceUpdate.signatures_eq (u : PresenceUpdate) : u.signatures = u.references.eraseDups := by
  rw [signatures, references]
  cases u.availability with
  | unavailable => rfl
  | available =>
    cases u.caps with
    | none => rfl
    | some a => exact CapsAdvertisement.foldl_addNew ..

namespace Discovery

/-- Queries come one for each bundle, in the given order. -/
theorem pending_issueAll (d : Discovery) (a : FullAddress) (j : JobId) (sigs : List CapabilitySignature) :
    (d.issueAll a j sigs).1.pending = ((d.issueAll a j sigs).2.zip (sigs.map (Query.ofJob a j))).foldl
      (fun pending e => pending.set e.1 e.2) d.pending := by
  induction sigs generalizing d with
  | nil => rfl
  | cons s sigs ih => exact ih (d.issue s a j).1

end Discovery

namespace Service

theorem exists_handlePresence_eq_ok {s : Service σ} {u : PresenceUpdate} (hrun : s.running = true)
    (hens : ∃ p, s.handles.ensure u.sender.bare = .ok p) : ∃ x, s.handlePresence u = .ok x := by
  obtain ⟨p, hp⟩ := hens
  rw [handlePresence, request, if_pos hrun, hp]
  exact ⟨_, rfl⟩

/-- The queries that come of an update. -/
theorem pending_handlePresence {s : Service σ} {u : PresenceUpdate} {x : Handled σ} (hx : s.handlePresence u = .ok x) :
    x.receipt.scheduled = u.untrusted s.bundles ∧
    x.receipt.job = (if u.untrusted s.bundles = [] then none else some ⟨s.roster.nextJob⟩) ∧
    x.issued.length = x.receipt.scheduled.length ∧
    x.service.discovery.pending =
      (x.issued.zip (x.receipt.scheduled.map (Query.ofJob u.sender ⟨s.roster.nextJob⟩))).foldl
        (fun pending e => pending.set e.1 e.2) s.discovery.pending := by
  obtain ⟨e, he⟩ | ⟨-, handles, n, -, he⟩ := s.handlePresence_cases u
  · rw [he] at hx
    exact absurd hx (by simp)
  · rw [he] at hx
    obtain rfl := Except.ok.inj hx
    refine ⟨rfl, s.roster.job_start s.bundles u, Discovery.length_issueAll .., ?_⟩
    simp only [discovery_publish?]
    exact Discovery.pending_issueAll ..

namespace History
variable {required : UInt32} {capacity : Nat} {h : History σ}

/-- An update is taken by a running service that has a handle for its contact. It asks for the bundles that it refers to
and that are not confirmed, for each once and in the order of the advertisement, and has a job if there are any. A
bundle without a digest that can be checked is among them as long as too few distinct resources had a reply for it
accepted; one with such a digest, as long as no accepted reply recomputes to it. -/
theorem asks_for_what_is_not_confirmed (required : UInt32) (capacity : Nat) (h : History σ) (hp : h.IsPrivate)
    (u : PresenceUpdate) :
    let s := h.service required capacity
    (s.running = true → (∃ p, s.handles.ensure u.sender.bare = .ok p) → ∃ x, s.handlePresence u = .ok x) ∧
    ∀ x, s.handlePresence u = .ok x →
      x.receipt.scheduled = u.references.eraseDups.filter (fun t => !s.bundles.isConfirmed t) ∧
      x.receipt.scheduled.Nodup ∧
      (x.receipt.job.isSome = true ↔ x.receipt.scheduled ≠ []) ∧
      x.issued.length = x.receipt.scheduled.length ∧
      (∃ j, (∀ k, x.receipt.job = some k → k = j) ∧ x.service.discovery.pending =
        (x.issued.zip (x.receipt.scheduled.map (Query.ofJob u.sender j))).foldl
          (fun pending e => pending.set e.1 e.2) s.discovery.pending) ∧
      ∀ t ∈ u.references,
        (t.verifiableDigest = none → (t ∈ x.receipt.scheduled ↔
          (CapabilitySignature.confirmers (h.accepted required capacity t)).length < max required.toNat 1)) ∧
        ∀ d, t.verifiableDigest = some d → (t ∈ x.receipt.scheduled ↔
          ∀ y ∈ h.accepted required capacity t, y.reply.digest? d.algorithm ≠ some d.value) := by
  intro s
  refine ⟨exists_handlePresence_eq_ok, fun x hx => ?_⟩
  obtain ⟨hsched, hjob, hlen, hpending⟩ := pending_handlePresence hx
  have hmem (t : CapabilitySignature) (ht : t ∈ u.references) :
      t ∈ x.receipt.scheduled ↔ ¬ s.bundles.isTrusted t = true := by
    rw [hsched, u.untrusted_eq, u.signatures_eq]
    simp [ht]
  refine ⟨?_, ?_, ?_, hlen, ⟨⟨s.roster.nextJob⟩, ?_, hpending⟩, fun t ht => ⟨fun hd => ?_, fun d hd => ?_⟩⟩
  · rw [hsched, PresenceUpdate.untrusted, u.signatures_eq]
  · rw [hsched]
    exact u.nodup_signatures.filter _
  · rw [hjob, hsched]
    split <;> simp_all
  · intro k hk
    rw [hjob] at hk
    split at hk
    · exact absurd hk (by simp)
    · exact (Option.some.inj hk).symm
  · rw [hmem t ht, isTrusted_iff_of_no_verifiableDigest hp hd, Nat.not_le]
  · rw [hmem t ht, isTrusted_iff_of_verifiableDigest hp hd]
    simp

/-- A single confirmation is required here, so that the laptop's reply of the past is enough for the version; the
laptop's query for the extension is still in flight, and the phone is asked for it nevertheless. -/
theorem asks_phone_of_replacedQueries :
    let s := replacedQueries.service 1 16
    let u := Sample.available Sample.phone { Sample.advertisement "0.1" with ext := ["video", "video"] }
    let video := CapabilitySignature.ofExtension Sample.clientNode "video"
    replacedQueries.IsPrivate ∧ s.running = true ∧
    s.discovery.pending.get? ⟨2⟩ = some (.ofJob Sample.laptop ⟨0⟩ video) ∧
    ∃ x, s.handlePresence u = .ok x ∧ x.receipt.scheduled = [video] ∧ x.receipt.job.isSome = true ∧
      (CapabilitySignature.confirmers (replacedQueries.accepted 1 16 video)).length < 1 := by
  intro s u video
  have hprivate : replacedQueries.IsPrivate := by decide
  have hrun : s.running = true := by decide
  obtain ⟨htaken, hasked⟩ := asks_for_what_is_not_confirmed 1 16 replacedQueries hprivate u
  obtain ⟨x, hx⟩ := htaken hrun ⟨_, rfl⟩
  obtain ⟨hsched, -, hjob, -, -, hwhy⟩ := hasked x hx
  have hvideo : x.receipt.scheduled = [video] := by
    rw [hsched]
    decide
  refine ⟨hprivate, hrun, by decide, x, hx, hvideo, ?_, ?_⟩
  · rw [hjob, hvideo]
    exact List.cons_ne_nil _ _
  · refine ((hwhy video (by decide)).1 (by decide)).1 ?_
    rw [hvideo]
    exact List.mem_singleton_self _

end History
end Service
end PresenceCaps
