import PresenceCaps.Proofs.Service.Steps
import PresenceCaps.Proofs.Trust.Standing

/-!
What the service's bundles learn. Left alone by others, they know of every bundle what the accepted replies to the
service's own queries say of it, and nothing else.
-/
namespace PresenceCaps
variable {σ : Type} [Sink σ]

namespace Discovery
variable (d : Discovery) (o : Outcome)

/-- The reply that an outcome brings to a query in flight, if it names no node or the queried one, and the bundle that
it is for. -/
def accepted? : Option (CapabilitySignature × Answer) :=
  (d.pending.get? o.id).bind fun q =>
    match o.result with
    | .ok reply => if reply.node.all (· = q.node) then some (q.signature, ⟨q.target, reply⟩) else none
    | .error _ => none

/-- What an outcome tells the store of bundles, the latest call first. -/
def settleCalls : Bundles.History :=
  match d.pending.get? o.id with
  | none => []
  | some q =>
    [match d.accepted? o with
      | some x => .success x.1 x.2.sender x.2.reply
      | none => .failure q.signature,
     .detach q.signature o.id]

end Discovery

namespace Service

/-- The reply that an event brings, if it is accepted. -/
def accepted? (s : Service σ) : Event σ → Option (CapabilitySignature × Answer)
  | .outcome o => if s.running then s.discovery.accepted? o else none
  | _ => none

/-- The calls that an event makes to the store of bundles, the latest one first. -/
def bundleCalls (s : Service σ) : Event σ → Bundles.History
  | .presence u =>
    match s.handlePresence u with
    | .error _ => []
    | .ok x =>
      let lookups := u.signatures.map Bundles.Call.lookup
      let attached := (x.receipt.scheduled.zip x.issued).map fun e => Bundles.Call.attach e.1 e.2
      (lookups ++ attached).reverse
  | .outcome o => if s.running then s.discovery.settleCalls o else []
  | .bundle c => [c]
  | .shutdown => if s.running then (s.discovery.pending.map fun e => .detach e.2.signature e.1).reverse else []
  | _ => []

/-- Whether an event reaches the bundles past the service. -/
def Event.isForeign : Event σ → Bool
  | .bundle _ => true
  | _ => false

namespace History
variable (required : UInt32) (capacity : Nat)

/-- Nobody but the service touches its bundles. -/
def IsPrivate (h : History σ) : Prop := ∀ e ∈ h, e.isForeign = false

instance (h : History σ) : Decidable h.IsPrivate := inferInstanceAs (Decidable (∀ e ∈ h, _))

/-- The calls made to the store of bundles, the latest one first. -/
def bundleCalls : History σ → Bundles.History
  | [] => []
  | e :: h => (service required capacity h).bundleCalls e ++ bundleCalls h

/-- The accepted replies, the latest one first. -/
def replies : History σ → List (CapabilitySignature × Answer)
  | [] => []
  | e :: h => ((service required capacity h).accepted? e).toList ++ replies h

/-- The accepted replies for a bundle, the latest one first. -/
def accepted (h : History σ) (s : CapabilitySignature) : List Answer :=
  (h.replies required capacity).filterMap fun x => if x.1 = s then some x.2 else none

end History
end Service

theorem acceptReply_of_all {node : String} {reply : DiscoInfo} (h : reply.node.all (· = node) = true) :
    acceptReply node reply = .ok reply := by
  unfold acceptReply
  cases hn : reply.node with
  | none => rfl
  | some n =>
    rw [hn, Option.all_some, decide_eq_true_iff] at h
    exact if_pos h

theorem exists_acceptReply_eq_error {node : String} {reply : DiscoInfo} (h : reply.node.all (· = node) = false) :
    ∃ e, acceptReply node reply = .error e := by
  unfold acceptReply
  cases hn : reply.node with
  | none => simp [hn] at h
  | some n =>
    rw [hn, Option.all_some, decide_eq_false_iff_not] at h
    exact ⟨_, if_neg h⟩

namespace Bundles

/-- A store after further calls, the latest of them in front. -/
theorem History.bundles_append (n : UInt32) (more h : History) :
    bundles n (more ++ h) = more.foldr (fun c b => b.step c) (bundles n h) := by
  induction more with
  | nil => rfl
  | cons c more ih => exact congrArg (·.step c) ih

theorem foldr_step_reverse (calls : List Call) (b : Bundles) :
    calls.reverse.foldr (fun c b => b.step c) b = calls.foldl step b := List.foldr_reverse

end Bundles

namespace Discovery
variable {d : Discovery} {o : Outcome} {q : Query}

theorem accepted?_of_get?_eq_none (hq : d.pending.get? o.id = none) : d.accepted? o = none := by
  rw [accepted?, hq]
  rfl

/-- A reply is accepted exactly when settling its outcome records it. -/
theorem accepted?_of_get?_eq_some (hq : d.pending.get? o.id = some q) : d.accepted? o =
    (o.result.bind (acceptReply q.node)).toOption.map fun reply => (q.signature, ⟨q.target, reply⟩) := by
  rw [accepted?, hq, Option.bind_some]
  cases o.result with
  | error e => rfl
  | ok reply =>
    cases hn : reply.node.all (· = q.node) with
    | true =>
      have hok : Except.bind (.ok reply) (acceptReply q.node) = .ok reply := acceptReply_of_all hn
      rw [hok]
      exact if_pos hn
    | false =>
      obtain ⟨e, he⟩ := exists_acceptReply_eq_error hn
      have hfail : Except.bind (.ok reply) (acceptReply q.node) = .error e := he
      rw [hfail]
      exact if_neg (by rw [hn]; decide)

/-- Settling an outcome makes its calls to the store of bundles. -/
theorem bundles_settle (d : Discovery) (o : Outcome) :
    (d.settle o).1.bundles = (d.settleCalls o).foldr (fun c b => b.step c) d.bundles := by
  obtain ⟨hq, hs⟩ | ⟨q, hq, ⟨reply, hr, hs⟩ | ⟨e, hr, hs⟩⟩ := d.settle_cases o
  · rw [hs, settleCalls, hq]
    rfl
  · rw [hs, settleCalls, hq]
    simp only [accepted?_of_get?_eq_some hq, hr]
    rfl
  · rw [hs, settleCalls, hq]
    simp only [accepted?_of_get?_eq_some hq, hr]
    rfl

/-- Each query is noted with its bundle, in the order in which they are issued. -/
theorem bundles_issueAll (d : Discovery) (a : FullAddress) (j : JobId) (sigs : List CapabilitySignature) :
    (d.issueAll a j sigs).1.bundles =
      ((sigs.zip (d.issueAll a j sigs).2).map fun e => .attach e.1 e.2).foldl Bundles.step d.bundles := by
  induction sigs generalizing d with
  | nil => rfl
  | cons s sigs ih => exact ih (d.issue s a j).1

theorem bundles_cancelAll (d : Discovery) : d.cancelAll.bundles =
    (d.pending.map fun e => .detach e.2.signature e.1).foldl Bundles.step d.bundles := by
  rw [List.foldl_map]
  rfl

end Discovery

namespace Service

@[simp] theorem bundles_publish? (s : Service σ) (c : Option ContactChange) : (s.publish? c).bundles = s.bundles :=
  congrArg Discovery.bundles (s.discovery_publish? c)

theorem bundles_step (s : Service σ) (e : Event σ) :
    (s.step e).bundles = (s.bundleCalls e).foldr (fun c b => b.step c) s.bundles := by
  cases e with
  | presence u =>
    obtain ⟨e, he⟩ | ⟨-, handles, x, -, he⟩ := s.handlePresence_cases u
    · simp only [step, bundleCalls, he]
      rfl
    · have hlook : u.signatures.foldl Bundles.touch s.bundles =
          (u.signatures.map Bundles.Call.lookup).foldl Bundles.step s.bundles := by
        rw [List.foldl_map]
        rfl
      simp only [step, bundleCalls, he, bundles_publish?]
      rw [Bundles.foldr_step_reverse, List.foldl_append, ← hlook]
      exact Discovery.bundles_issueAll ..
  | outcome o =>
    rw [step, bundleCalls]
    have hsettle := s.discovery.bundles_settle o
    obtain ⟨hr, h⟩ | ⟨hr, -, h⟩ | ⟨hr, x, -, h⟩ := s.handleOutcome_cases o
    · rw [h, hr]
      rfl
    · rw [h, if_pos hr]
      exact hsettle
    · rw [h, bundles_publish?, if_pos hr]
      exact hsettle
  | contact a =>
    obtain h | ⟨handles, h⟩ := s.step_contact_cases a <;> rw [h] <;> rfl
  | bundle c => rfl
  | listening l => rfl
  | shutdown =>
    obtain ⟨hr, h⟩ | ⟨hr, h⟩ := s.step_shutdown_cases
    · rw [h, bundleCalls, hr]
      rfl
    · rw [h, bundleCalls, if_pos hr, Bundles.foldr_step_reverse]
      exact s.discovery.bundles_cancelAll

namespace History
variable {required : UInt32} {capacity : Nat} {h : History σ} {s : CapabilitySignature}

/-- The service's bundles are those of the calls that the events make. -/
theorem bundles_service (required : UInt32) (capacity : Nat) (h : History σ) :
    (h.service required capacity).bundles = (h.bundleCalls required capacity).bundles required := by
  induction h with
  | nil => rfl
  | cons e h ih => rw [service, bundles_step, bundleCalls, Bundles.History.bundles_append, ih]

/-- Only an accepted reply teaches the store anything of a bundle, and only if it counts for the bundle. -/
theorem answers_bundleCalls_of_not_isForeign {e : Event σ} (he : e.isForeign = false) (x : Service σ)
    (s : CapabilitySignature) : Bundles.History.answers (x.bundleCalls e) s =
      ((x.accepted? e).toList.filterMap fun y => if y.1 = s then some y.2 else none).filter
        fun y => s.takes y.reply := by
  have hnone (calls : Bundles.History) (hc : ∀ c ∈ calls, c.answer? s = none) : calls.answers s = [] :=
    List.filterMap_eq_nil_iff.2 hc
  cases e with
  | presence u =>
    refine hnone _ fun c hc => ?_
    -- an update looks bundles up and notes queries with them
    rw [Service.bundleCalls] at hc
    split at hc
    · exact absurd hc List.not_mem_nil
    · rcases List.mem_append.1 (List.mem_reverse.1 hc) with hc | hc
      · obtain ⟨t, -, rfl⟩ := List.mem_map.1 hc
        rfl
      · obtain ⟨t, -, rfl⟩ := List.mem_map.1 hc
        rfl
  | outcome o =>
    rw [Service.bundleCalls, Service.accepted?]
    cases x.running with
    | false => rfl
    | true =>
      rw [if_pos rfl, if_pos rfl, Discovery.settleCalls]
      cases hq : x.discovery.pending.get? o.id with
      | none =>
        rw [Discovery.accepted?_of_get?_eq_none hq]
        rfl
      | some q =>
        rw [Discovery.accepted?_of_get?_eq_some hq]
        cases o.result.bind (acceptReply q.node) with
        | error e => rfl
        | ok reply =>
          by_cases hs : q.signature = s
          · subst hs
            cases ht : q.signature.takes reply <;>
              simp [Bundles.History.answers, Bundles.Call.answer?, Except.toOption, ht]
          · simp [Bundles.History.answers, Bundles.Call.answer?, Except.toOption, hs]
  | contact a => rfl
  | bundle c => exact absurd he (by simp [Event.isForeign])
  | listening l => rfl
  | shutdown =>
    refine hnone _ fun c hc => ?_
    rw [Service.bundleCalls] at hc
    split at hc
    · obtain ⟨t, -, rfl⟩ := List.mem_map.1 (List.mem_reverse.1 hc)
      rfl
    · exact absurd hc List.not_mem_nil

/-- What the store knows of a bundle are the accepted replies that count for it. -/
theorem answers_bundleCalls (hp : h.IsPrivate) (s : CapabilitySignature) :
    (h.bundleCalls required capacity).answers s = (h.accepted required capacity s).filter fun x => s.takes x.reply := by
  induction h with
  | nil => rfl
  | cons e h ih =>
    have hnew := answers_bundleCalls_of_not_isForeign (hp e List.mem_cons_self) (service required capacity h) s
    have hold := ih fun e he => hp e (List.mem_cons_of_mem _ he)
    rw [bundleCalls, Bundles.History.answers, List.filterMap_append, accepted, replies, List.filterMap_append,
      List.filter_append]
    exact congrArg₂ _ hnew hold

theorem isTrusted_service (hp : h.IsPrivate) (s : CapabilitySignature) :
    (h.service required capacity).bundles.isTrusted s =
      s.isTrustedFrom required ((h.accepted required capacity s).filter fun x => s.takes x.reply) := by
  rw [bundles_service, Bundles.History.isTrusted_bundles, answers_bundleCalls hp]

/-- A bundle whose digest can be checked is trusted once a reply that recomputes to it was accepted. -/
theorem isTrusted_iff_of_verifiableDigest (hp : h.IsPrivate) {d : Digest} (hd : s.verifiableDigest = some d) :
    (h.service required capacity).bundles.isTrusted s = true ↔
      ∃ x ∈ h.accepted required capacity s, x.reply.digest? d.algorithm = some d.value := by
  have hs : s.isHashed = true := by simp [CapabilitySignature.isHashed, hd]
  have htakes (reply : DiscoInfo) : s.takes reply = true ↔ reply.digest? d.algorithm = some d.value := by
    rw [CapabilitySignature.takes, hd, Option.all_some, decide_eq_true_iff]
  rw [isTrusted_service hp, CapabilitySignature.isTrustedFrom, if_pos hs]
  simp only [Bool.not_eq_true', List.isEmpty_eq_false_iff_exists_mem, List.mem_filter, htakes]

/-- Any other bundle is trusted once enough distinct resources have answered for it. -/
theorem isTrusted_iff_of_no_verifiableDigest (hp : h.IsPrivate) (hd : s.verifiableDigest = none) :
    (h.service required capacity).bundles.isTrusted s = true ↔
      max required.toNat 1 ≤ (CapabilitySignature.confirmers (h.accepted required capacity s)).length := by
  have hs : s.isHashed = false := by simp [CapabilitySignature.isHashed, hd]
  have htakes (reply : DiscoInfo) : s.takes reply = true := by simp [CapabilitySignature.takes, hd]
  have hall : ((h.accepted required capacity s).filter fun x => s.takes x.reply) = h.accepted required capacity s :=
    List.filter_eq_self.2 fun x _ => htakes x.reply
  rw [isTrusted_service hp, hall, CapabilitySignature.isTrustedFrom_of_not_isHashed hs, decide_eq_true_iff]

end History
end Service
end PresenceCaps
