import PresenceCaps.Proofs.Service.Origins
import PresenceCaps.Proofs.Service.Scheduling
import PresenceCaps.Proofs.Roster.Contacts

/-!
Where published capabilities come from: each of them is granted by a feature that the resource itself was asked for and
answered with, or that was known of a confirmed bundle when the resource's update came.
-/
namespace PresenceCaps
variable {σ : Type} [Sink σ]

namespace Service

namespace History
variable (required : UInt32) (capacity : Nat)

/-- The update of a resource that was completed last: its latest one when last it was not waiting. -/
def completed? : History σ → FullAddress → Option (Arrival σ)
  | [], _ => none
  | e :: h, a =>
    if (service required capacity (e :: h)).roster.isPending a then completed? h a
    else latest? required capacity (e :: h) a

/-- The query that an update issued for a bundle had a reply accepted that has the feature. -/
def Replied (h : History σ) (x : Arrival σ) (s : CapabilitySignature) (f : String) : Prop :=
  ∃ (o : Outcome) (before : History σ) (reply : DiscoInfo), (.outcome o :: before) <:+ h ∧
    before.issuer? required capacity o.id = some x ∧
    (before.service required capacity).accepted? (.outcome o) = some (s, ⟨x.update.sender, reply⟩) ∧ f ∈ reply.features

end History

namespace Arrival
variable (required : UInt32) (capacity : Nat)

/-- A bundle was confirmed when an update came, and the feature was among those known of it. -/
def Cached (x : Arrival σ) (s : CapabilitySignature) (f : String) : Prop :=
  ∃ e, (x.service required capacity).bundles.get? s = some e ∧ e.trust = .confirmed ∧ f ∈ e.featureSet.toList

/-- What the entry of a confirmed bundle rests on: a reply that recomputes to the digest and has these features; if no
digest can be checked, replies of enough distinct resources. -/
def Vouched (x : Arrival σ) (s : CapabilitySignature) (e : Bundle) : Prop :=
  (∀ d, s.verifiableDigest = some d → ∃ y ∈ x.before.accepted required capacity s,
    y.reply.digest? d.algorithm = some d.value ∧ e.featureSet = y.reply.featureSet) ∧
  (s.verifiableDigest = none →
    max required.toNat 1 ≤ (CapabilitySignature.confirmers (x.before.accepted required capacity s)).length)

end Arrival

namespace History

/-- A bundle that an update refers to has a feature that grants a capability. -/
def Grants (required : UInt32) (capacity : Nat) (h : History σ) (x : Arrival σ) (i : Nat) : Prop :=
  ∃ s ∈ x.update.signatures, ∃ f, (Capabilities.ofFeature f).has i = true ∧
    (h.Replied required capacity x s f ∨ x.Cached required capacity s f)

/-- What jobs have collected is granted by the latest updates, what resources have by those completed last. -/
structure Accounted (required : UInt32) (capacity : Nat) (h : History σ) (s : Service σ) : Prop where
  job : ∀ {j job i}, s.roster.jobs.get? j = some job → job.bits.has i = true →
    ∃ x, h.latest? required capacity job.resource = some x ∧ h.Grants required capacity x i
  resource : ∀ {a r i}, s.roster.resource? a = some r → r.bits.has i = true →
    ∃ x, h.completed? required capacity a = some x ∧ h.Grants required capacity x i

variable {required : UInt32} {capacity : Nat} {h : History σ} {e : Event σ} {u : PresenceUpdate} {y : Handled σ}
  {a : FullAddress} {x : Arrival σ} {i : Nat}

theorem Grants.cons (hg : h.Grants required capacity x i) (e : Event σ) : Grants required capacity (e :: h) x i := by
  obtain ⟨s, hs, f, hf, ⟨o, before, reply, hsuf, hreply⟩ | hcached⟩ := hg
  · exact ⟨s, hs, f, hf, Or.inl ⟨o, before, reply, hsuf.trans (List.suffix_cons e h), hreply⟩⟩
  · exact ⟨s, hs, f, hf, Or.inr hcached⟩

theorem completed?_of_not_pending (hp : (h.service required capacity).roster.isPending a = false) :
    h.completed? required capacity a = h.latest? required capacity a := by
  cases h with
  | nil => rfl
  | cons e h => rw [completed?, if_neg (by rw [hp]; decide)]

/-- A resource that waits as it did, with the update that it had, completes nothing. -/
theorem completed?_cons
    (hp : (service required capacity (e :: h)).roster.isPending a = (h.service required capacity).roster.isPending a)
    (hl : latest? required capacity (e :: h) a = h.latest? required capacity a) :
    completed? required capacity (e :: h) a = h.completed? required capacity a := by
  rw [completed?, hp]
  cases hpending : (service required capacity h).roster.isPending a with
  | true => rw [if_pos rfl]
  | false => rw [if_neg (by decide), hl, completed?_of_not_pending hpending]

theorem isPending_of_taken (hy : (h.service required capacity).handlePresence u = .ok y) (a : FullAddress) :
    y.service.roster.isPending a = if u.sender = a then !(u.untrusted (h.service required capacity).bundles).isEmpty
      else (h.service required capacity).roster.isPending a := by
  rw [(of_handlePresence_eq_ok hy).1, Roster.isPending, Assoc.contains, Roster.active_start]
  by_cases hsender : u.sender = a
  · rw [if_pos hsender, if_pos hsender]
    cases u.untrusted (h.service required capacity).bundles <;> rfl
  · rw [if_neg hsender, if_neg hsender]
    rfl

/-- What the trusted bundles of an update grant was known when it came. -/
theorem grants_of_trustedBits (h : History σ) (x : Arrival σ)
    (hi : (Roster.trustedBits (x.service required capacity).bundles x.update.signatures).has i = true) :
    h.Grants required capacity x i := by
  obtain ⟨s, hs, hi⟩ := Capabilities.has_unionAll_map.1 hi
  obtain ⟨f, hf, hi⟩ := FeatureSet.has_capabilities.1 hi
  refine ⟨s, hs, f, hi, Or.inr ?_⟩
  rw [Bundles.trustedFeatures_eq] at hf
  split at hf
  · rename_i htrust
    rw [Bundles.isConfirmed] at htrust
    cases he : (x.service required capacity).bundles.get? s with
    | none => simp [he] at htrust
    | some e =>
      rw [he, Option.any_some, decide_eq_true_iff] at htrust
      refine ⟨e, he, htrust, ?_⟩
      simpa [Bundles.stored, Bundle.featureSet, he] using hf
  · exact absurd hf List.not_mem_nil

namespace Accounted

theorem start (required : UInt32) (capacity : Nat) :
    Accounted required capacity ([] : History σ) (.start required capacity) where
  job hj := absurd hj (by simp [Service.start, Roster.empty])
  resource hr := absurd hr (by simp [Service.start, Roster.empty, Roster.resource?, Roster.contact, ContactState.new])

/-- With the roster and the updates as they were, nothing has to be accounted for. -/
theorem of_same_roster (ha : Accounted required capacity h (h.service required capacity))
    (he : h.arrival? required capacity e = none)
    (hr : (service required capacity (e :: h)).roster = (h.service required capacity).roster) :
    Accounted required capacity (e :: h) (service required capacity (e :: h)) := by
  have hlatest (a : FullAddress) : latest? required capacity (e :: h) a = h.latest? required capacity a := by
    rw [latest?, arrivals_of_arrival?_eq_none he, latest?]
  constructor
  · intro j job i hj hi
    rw [hr] at hj
    obtain ⟨x, hx, hg⟩ := ha.job hj hi
    exact ⟨x, by rw [hlatest, hx], hg.cons e⟩
  · intro a r i hres hi
    rw [hr] at hres
    obtain ⟨x, hx, hg⟩ := ha.resource hres hi
    exact ⟨x, by rw [completed?_cons (by rw [hr]) (hlatest a), hx], hg.cons e⟩

theorem aside (ha : Accounted required capacity h (h.service required capacity)) (he : e.isAside = true) :
    Accounted required capacity (e :: h) (service required capacity (e :: h)) :=
  ha.of_same_roster (arrival?_of_isAside h he) (step_of_isAside _ he).1

/-- The sender's resource has what trusted bundles grant, or still waits and keeps what it had. -/
theorem resource_of_sender (ha : Accounted required capacity h (h.service required capacity))
    (hy : (h.service required capacity).handlePresence u = .ok y) {r : OnlineResource}
    (hr : y.service.roster.resource? u.sender = some r) (hi : r.bits.has i = true) :
    ∃ x, completed? required capacity (.presence u :: h) u.sender = some x ∧
      Grants required capacity (.presence u :: h) x i := by
  have hservice : service required capacity (.presence u :: h) = y.service := by rw [service, step, hy]
  rw [completed?, hservice, isPending_of_taken hy, if_pos rfl]
  rw [(of_handlePresence_eq_ok hy).1, Roster.resource?_start_self] at hr
  split at hr
  · rw [← Option.some.inj hr] at hi
    by_cases hq : u.untrusted (h.service required capacity).bundles = []
    · -- with nothing to ask for the update is completed at once
      rw [if_pos hq] at hi
      rw [hq, if_neg (by decide), latest?_of_taken hy, if_pos rfl]
      exact ⟨⟨h, u⟩, rfl, grants_of_trustedBits _ ⟨h, u⟩ hi⟩
    · -- it waits, and what it had is still that of the update completed before
      rw [if_neg hq] at hi
      rw [if_pos (by simpa using hq)]
      cases hold : (h.service required capacity).roster.resource? u.sender with
      | none => simp [hold] at hi
      | some old =>
        rw [hold] at hi
        obtain ⟨x, hx, hg⟩ := ha.resource hold hi
        exact ⟨x, hx, hg.cons _⟩
  · exact absurd hr (by simp)

theorem presence (ha : Accounted required capacity h (h.service required capacity))
    (hy : (h.service required capacity).handlePresence u = .ok y) :
    Accounted required capacity (.presence u :: h) (service required capacity (.presence u :: h)) := by
  have hservice : service required capacity (.presence u :: h) = y.service := by rw [service, step, hy]
  constructor
  · intro j job i hj hi
    rw [hservice] at hj
    rw [latest?_of_taken hy]
    obtain ⟨-, -, rfl⟩ | ⟨-, hold, hne⟩ := jobs_of_taken hy hj
    · exact ⟨⟨h, u⟩, if_pos rfl, grants_of_trustedBits _ ⟨h, u⟩ hi⟩
    · obtain ⟨x, hx, hg⟩ := ha.job hold hi
      exact ⟨x, by rw [if_neg hne, hx], hg.cons _⟩
  · intro a r i hr hi
    rw [hservice] at hr
    by_cases hsender : u.sender = a
    · subst hsender
      exact ha.resource_of_sender hy hr hi
    · -- what others have and wait for is as it was
      rw [(of_handlePresence_eq_ok hy).1, Roster.resource?_start_of_ne _ _ _ hsender] at hr
      obtain ⟨x, hx, hg⟩ := ha.resource hr hi
      refine ⟨x, ?_, hg.cons _⟩
      rw [completed?_cons, hx]
      · rw [hservice, isPending_of_taken hy, if_neg hsender]
      · rw [latest?_of_taken hy, if_neg hsender]

/-- What a reply grants to a live job is granted to the update that has the job. -/
theorem grants_of_settle (hrun : (h.service required capacity).running = true) {o : Outcome} {r : Resolution}
    (hs : ((h.service required capacity).discovery.settle o).2 = some r) {job : Job}
    (hj : (h.service required capacity).roster.jobs.get? r.job = some job)
    (hi : r.features.capabilities.has i = true) :
    ∃ x, h.latest? required capacity job.resource = some x ∧ Grants required capacity (.outcome o :: h) x i := by
  obtain ⟨-, he⟩ | ⟨q, hq, ⟨reply, hreply, he⟩ | ⟨e, -, he⟩⟩ := (h.service required capacity).discovery.settle_cases o
  · rw [he] at hs
    exact absurd hs (by simp)
  · rw [he] at hs
    obtain rfl := Option.some.inj hs
    obtain ⟨f, hf, hbit⟩ := FeatureSet.has_capabilities.1 hi
    -- the query and the job tell the same update
    obtain ⟨x, hissuer, hlatest, hasked, hof⟩ := (traced required capacity h).exists_update hq hj
    have htarget : q.target = x.update.sender := by
      rw [hof]
      rfl
    refine ⟨x, hlatest, q.signature, List.mem_of_mem_filter hasked, f, hbit, Or.inl ?_⟩
    refine ⟨o, h, reply, List.suffix_rfl, hissuer, ?_, DiscoInfo.mem_featureSet.1 hf⟩
    rw [Service.accepted?, if_pos hrun, Discovery.accepted?_of_get?_eq_some hq, hreply, htarget]
    rfl
  · rw [he] at hs
    rw [← Option.some.inj hs] at hi
    simp at hi

section Outcome
variable {o : Outcome} {r : Resolution} {old : Job}

/-- A job adds what a reply grants to what it has. -/
theorem grants_of_union (ha : Accounted required capacity h (h.service required capacity))
    (hrun : (h.service required capacity).running = true)
    (hs : ((h.service required capacity).discovery.settle o).2 = some r)
    (hold : (h.service required capacity).roster.jobs.get? r.job = some old)
    (hi : (old.bits.union r.features.capabilities).has i = true) :
    ∃ x, h.latest? required capacity old.resource = some x ∧ Grants required capacity (.outcome o :: h) x i := by
  rw [Capabilities.has_union, Bool.or_eq_true] at hi
  rcases hi with hi | hi
  · obtain ⟨x, hx, hg⟩ := ha.job hold hi
    exact ⟨x, hx, hg.cons _⟩
  · exact grants_of_settle hrun hs hold hi

/-- A job that goes on waiting is none of the resources' business. -/
theorem join (ha : Accounted required capacity h (h.service required capacity)) {unresolved : List CapabilitySignature}
    {bits : Capabilities}
    (hall : ∀ i, bits.has i = true → ∃ x, h.latest? required capacity old.resource = some x ∧
      Grants required capacity (.outcome o :: h) x i)
    (hroster : (service required capacity (.outcome o :: h)).roster =
      { (h.service required capacity).roster with
        jobs := (h.service required capacity).roster.jobs.set r.job ⟨old.resource, unresolved, bits⟩ }) :
    Accounted required capacity (.outcome o :: h) (service required capacity (.outcome o :: h)) := by
  constructor
  · intro j job i hj hi
    rw [hroster, Assoc.get?_set] at hj
    split at hj
    · rw [← Option.some.inj hj] at hi ⊢
      exact hall i hi
    · obtain ⟨x, hx, hg⟩ := ha.job hj hi
      exact ⟨x, hx, hg.cons _⟩
  · intro a res i hres hi
    rw [hroster] at hres
    obtain ⟨x, hx, hg⟩ := ha.resource hres hi
    exact ⟨x, by rw [completed?_cons (by rw [hroster]; rfl) rfl, hx], hg.cons _⟩

/-- A job that ends hands over what it has, for the update that is the latest of its resource. -/
theorem finish (ha : Accounted required capacity h (h.service required capacity)) {bits : Capabilities}
    (hall : ∀ i, bits.has i = true → ∃ x, h.latest? required capacity old.resource = some x ∧
      Grants required capacity (.outcome o :: h) x i)
    (hroster : (service required capacity (.outcome o :: h)).roster =
      (({ (h.service required capacity).roster with
        jobs := (h.service required capacity).roster.jobs.erase r.job
        active := (h.service required capacity).roster.active.erase old.resource } : Roster).complete
          old.resource bits).1) :
    Accounted required capacity (.outcome o :: h) (service required capacity (.outcome o :: h)) := by
  have hpending (a : FullAddress) : (service required capacity (.outcome o :: h)).roster.isPending a =
      if old.resource = a then false else (h.service required capacity).roster.isPending a := by
    rw [hroster, Roster.isPending, Assoc.contains, Roster.active_complete, Assoc.get?_erase]
    split <;> rfl
  constructor
  · intro j job i hj hi
    rw [hroster, Roster.jobs_complete, Assoc.get?_erase] at hj
    split at hj
    · exact absurd hj (by simp)
    · obtain ⟨x, hx, hg⟩ := ha.job hj hi
      exact ⟨x, hx, hg.cons _⟩
  · intro a res i hres hi
    rw [hroster, Roster.resource?_complete] at hres
    split at hres
    · rename_i hsame
      subst hsame
      -- the resource waits no longer, so that its latest update is the one completed last
      obtain ⟨before, -, rfl⟩ := Option.map_eq_some_iff.1 hres
      rw [completed?_of_not_pending (by rw [hpending, if_pos rfl])]
      exact hall i hi
    · rename_i hother
      obtain ⟨x, hx, hg⟩ := ha.resource hres hi
      exact ⟨x, by rw [completed?_cons (by rw [hpending, if_neg hother]) rfl, hx], hg.cons _⟩

theorem outcome (ha : Accounted required capacity h (h.service required capacity)) (o : Outcome) :
    Accounted required capacity (.outcome o :: h) (service required capacity (.outcome o :: h)) := by
  cases hrun : (h.service required capacity).running with
  | false =>
    refine ha.of_same_roster rfl ?_
    rw [service, step, handleOutcome, hrun, if_neg (by decide)]
  | true =>
    cases hs : ((h.service required capacity).discovery.settle o).2 with
    | none =>
      refine ha.of_same_roster rfl ?_
      rw [service, step, handleOutcome_of_settle_none hrun hs]
    | some r =>
      have hroster : (service required capacity (.outcome o :: h)).roster =
          ((h.service required capacity).roster.resolve r.job r.signature r.features).1 := by
        rw [service, step, handleOutcome_of_settle_some hrun hs, roster_publish?]
        rfl
      -- for a job that is not live, for one with more to wait for, or the last that a job waits for
      obtain ⟨-, he⟩ | ⟨old, hold, -, ⟨-, he⟩ | ⟨-, he⟩⟩ := (h.service required capacity).roster.resolve_cases r
      · exact ha.of_same_roster rfl (by rw [hroster, he])
      · exact ha.join (fun i hi => ha.grants_of_union hrun hs hold hi) (by rw [hroster, he])
      · exact ha.finish (fun i hi => ha.grants_of_union hrun hs hold hi) (by rw [hroster, he])

end Outcome

end Accounted

theorem accounted (required : UInt32) (capacity : Nat) (h : History σ) :
    Accounted required capacity h (h.service required capacity) := by
  induction h with
  | nil => exact .start required capacity
  | cons e h ih =>
    cases e with
    | presence u =>
      cases hy : (service required capacity h).handlePresence u with
      | ok y => exact ih.presence hy
      | error e =>
        exact ih.of_same_roster (arrival?_of_refused hy) (by rw [service, step, hy])
    | outcome o => exact ih.outcome o
    | _ => exact ih.aside rfl

theorem mem_arrivals_of_completed? (hx : h.completed? required capacity a = some x) :
    x ∈ h.arrivals required capacity ∧ x.update.sender = a := by
  induction h with
  | nil => exact absurd hx (by simp [completed?])
  | cons e h ih =>
    rw [completed?] at hx
    split at hx
    · rw [arrivals, List.mem_append]
      exact ⟨Or.inr (ih hx).1, (ih hx).2⟩
    · exact ⟨List.mem_of_find?_eq_some hx, sender_of_latest? hx⟩

/-- A confirmed bundle rests on the replies that were accepted before. -/
theorem vouched_of_confirmed (hp : x.before.IsPrivate) {s : CapabilitySignature} {e : Bundle}
    (he : (x.service required capacity).bundles.get? s = some e) (ht : e.trust = .confirmed) :
    x.Vouched required capacity s e := by
  have htrusted : (x.before.service required capacity).bundles.isTrusted s = true := by
    have hget : (x.before.service required capacity).bundles.get? s = some e := he
    rw [Bundles.isTrusted_eq_isConfirmed, Bundles.isConfirmed, hget, Option.any_some, decide_eq_true_iff]
    exact ht
  refine ⟨fun d hd => ?_, fun hd => (isTrusted_iff_of_no_verifiableDigest hp hd).1 htrusted⟩
  have hstanding := Bundles.History.get?_bundles required (x.before.bundleCalls required capacity) s
  rw [← bundles_service, ← Arrival.service, he, Bundles.History.bundle?, answers_bundleCalls hp] at hstanding
  split at hstanding
  · -- the features are those of the latest reply that counts, and there is one
    have hfeatures := congrArg Bundle.features (Option.some.inj hstanding)
    rw [isTrusted_service hp, CapabilitySignature.isTrustedFrom, if_pos (by simp [CapabilitySignature.isHashed, hd])]
      at htrusted
    cases hanswers : (x.before.accepted required capacity s).filter fun y => s.takes y.reply with
    | nil => simp [hanswers] at htrusted
    | cons y ys =>
      have hy : y ∈ (x.before.accepted required capacity s).filter fun y => s.takes y.reply := by
        rw [hanswers]
        exact List.mem_cons_self
      obtain ⟨hmem, htakes⟩ := List.mem_filter.1 hy
      rw [CapabilitySignature.takes, hd, Option.all_some, decide_eq_true_iff] at htakes
      rw [hanswers] at hfeatures
      have hfirst : e.features = some y.reply.featureSet := hfeatures
      exact ⟨y, hmem, htakes, by rw [Bundle.featureSet, hfirst, Option.getD_some]⟩
  · exact absurd hstanding (by simp)

/-- Whatever a contact is published to be capable of beyond text, one of its online resources holds. A bundle that the
resource's last completed update refers to has a feature that grants it: the query that this update issued for the
bundle had a reply with the feature accepted, or the bundle was confirmed when the update came and the feature was known
of it. What is known of a confirmed bundle is what a reply that recomputes to its digest says; if it has no digest that
can be checked, enough distinct resources had replies for it accepted. -/
theorem published_bits_have_origins (required : UInt32) (capacity : Nat) (h : History σ) (hp : h.IsPrivate)
    (c : BareAddress) (i : Nat) (hi : ((h.service required capacity).roster.published c).has i = true)
    (htext : Capabilities.text.has i = false) :
    ∃ a bits x s f, a.bare = c ∧ (h.service required capacity).roster.resourceCapabilities? a = some bits ∧
      bits.has i = true ∧ h.completed? required capacity a = some x ∧ x.update.sender = a ∧
      s ∈ x.update.signatures ∧ (Capabilities.ofFeature f).has i = true ∧
      (h.Replied required capacity x s f ∨
        ∃ e, (x.service required capacity).bundles.get? s = some e ∧ e.trust = .confirmed ∧ f ∈ e.featureSet.toList ∧
          x.Vouched required capacity s e) := by
  rw [roster_service, Roster.History.has_published] at hi
  rcases hi with hbase | ⟨name, r, hr, hbit⟩
  · exact absurd hbase (by rw [Capabilities.baseline, htext]; decide)
  · rw [← roster_service] at hr
    obtain ⟨x, hx, s, hs, f, hf, hwhy⟩ := (accounted required capacity h).resource hr hbit
    obtain ⟨hmem, hsender⟩ := mem_arrivals_of_completed? hx
    refine ⟨c.withResource name, r.bits, x, s, f, rfl, ?_, hbit, hx, hsender, hs, hf, hwhy.imp_right ?_⟩
    · rw [Roster.resourceCapabilities?_eq, hr, Option.map_some]
    · rintro ⟨e, he, ht, hfeature⟩
      -- the update came in this history, and so did everything before it
      have hbefore : x.before.IsPrivate := fun e he =>
        hp e ((suffix_of_mem_arrivals hmem).subset (List.mem_cons_of_mem _ he))
      exact ⟨e, he, ht, hfeature, vouched_of_confirmed hbefore he ht⟩

/-- The laptop's reply, too late for its own update, has confirmed the bundle that the phone refers to. -/
theorem published_bits_of_shared_bundle :
    let h : History SinkKind :=
      .presence (Sample.available Sample.phone (Sample.advertisement "0.1")) :: replacedQueries
    h.IsPrivate ∧ ((h.service 1 16).roster.published Sample.bob).has 3 = true ∧
    ∃ a bits x s f, a.bare = Sample.bob ∧ (h.service 1 16).roster.resourceCapabilities? a = some bits ∧
      bits.has 3 = true ∧ h.completed? 1 16 a = some x ∧ s ∈ x.update.signatures ∧
      (Capabilities.ofFeature f).has 3 = true ∧ (h.Replied 1 16 x s f ∨ ∃ e, x.Vouched 1 16 s e) := by
  intro h
  have hprivate : h.IsPrivate := by decide
  have haudio : ((h.service 1 16).roster.published Sample.bob).has 3 = true := by decide
  obtain ⟨a, bits, x, s, f, ha, hbits, hbit, hx, -, hs, hf, hwhy⟩ :=
    published_bits_have_origins 1 16 h hprivate Sample.bob 3 haudio (by decide)
  refine ⟨hprivate, haudio, a, bits, x, s, f, ha, hbits, hbit, hx, hs, hf, hwhy.imp_right ?_⟩
  rintro ⟨e, -, -, -, hvouched⟩
  exact ⟨e, hvouched⟩

end History
end Service
end PresenceCaps
