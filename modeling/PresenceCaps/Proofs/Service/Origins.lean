import PresenceCaps.Proofs.Roster.Coherence
import PresenceCaps.Proofs.Service.Steps

/-!
Where jobs and queries come from: the job that a resource waits for was given to its latest update, and a query in
flight was issued for the update that was given its job. Numbers may come round again: a query whose number is given out
anew is in flight no more, and no job is given out without a query.
-/
namespace PresenceCaps

/-- How many numbers were given out after this one, up to a full round. -/
def age (next number : UInt64) : Nat := (next - number - 1).toNat

theorem age_lt (next number : UInt64) : age next number < 2 ^ 64 := UInt64.toNat_lt _

theorem age_succ_self (next : UInt64) : age (next + 1) next = 0 := by
  have hzero : next + 1 - next - 1 = 0 := by grind
  rw [age, hzero]
  rfl

theorem age_self (next : UInt64) : age next next = 2 ^ 64 - 1 := by
  have hmax : next - next - 1 = -1 := by grind
  rw [age, hmax]
  rfl

theorem age_succ_of_ne {next number : UInt64} (h : number ≠ next) : age (next + 1) number = age next number + 1 := by
  have hstep : next + 1 - number - 1 = next - number - 1 + 1 := by grind
  have hlt : age next number + 1 < 2 ^ 64 := by
    -- only the next number itself has the greatest age
    by_contra hge
    have hmax : age next number = 2 ^ 64 - 1 := by
      have hl := age_lt next number
      omega
    have heq : next - number - 1 = next - next - 1 := UInt64.toNat_inj.1 (hmax.trans (age_self next).symm)
    apply h
    grind
  rw [age, hstep, UInt64.toNat_add]
  exact Nat.mod_eq_of_lt hlt

/-- The age of a job, in jobs. -/
def Roster.age (r : Roster) (j : JobId) : Nat := PresenceCaps.age r.nextJob j.value

theorem Roster.age_start_of_ne {r : Roster} {j : JobId} (hj : j ≠ ⟨r.nextJob⟩) (b : Bundles) (u : PresenceUpdate) :
    (r.start b u).roster.age j = r.age j + if u.untrusted b = [] then 0 else 1 := by
  rw [age, nextJob_start]
  split
  · rfl
  · exact age_succ_of_ne fun he => hj (congrArg JobId.mk he)

theorem Roster.age_start_nextJob (r : Roster) {b : Bundles} {u : PresenceUpdate} (hq : u.untrusted b ≠ []) :
    (r.start b u).roster.age ⟨r.nextJob⟩ = 0 := by
  rw [age, nextJob_start, if_neg hq]
  exact age_succ_self r.nextJob

namespace Discovery
variable {d : Discovery} {a : FullAddress} {j : JobId} {sigs : List CapabilitySignature} {id : QueryId} {q : Query}

/-- The age of a query, in queries. -/
def age (d : Discovery) (id : QueryId) : Nat := PresenceCaps.age d.nextId id.value

theorem age_issue_of_ne (h : id ≠ ⟨d.nextId⟩) (s : CapabilitySignature) : (d.issue s a j).1.age id = d.age id + 1 :=
  age_succ_of_ne fun he => h (congrArg QueryId.mk he)

/-- A query that is in flight after further ones were issued is one of them, or has grown older by all of them. -/
theorem get?_issueAll (h : (d.issueAll a j sigs).1.pending.get? id = some q) :
    (∃ s ∈ sigs, q = .ofJob a j s ∧ id ∈ (d.issueAll a j sigs).2) ∨
    d.pending.get? id = some q ∧ id ∉ (d.issueAll a j sigs).2 ∧
      (d.issueAll a j sigs).1.age id = d.age id + sigs.length := by
  induction sigs generalizing d with
  | nil => exact Or.inr ⟨h, List.not_mem_nil, rfl⟩
  | cons s sigs ih =>
    obtain ⟨t, ht, hq, hid⟩ | ⟨hget, hid, hage⟩ := ih (d := (d.issue s a j).1) h
    · exact Or.inl ⟨t, List.mem_cons_of_mem s ht, hq, List.mem_cons_of_mem _ hid⟩
    · have hset : (d.pending.set ⟨d.nextId⟩ (.ofJob a j s)).get? id = some q := hget
      rw [Assoc.get?_set] at hset
      split at hset
      · rename_i hnew
        exact Or.inl ⟨s, List.mem_cons_self, (Option.some.inj hset).symm, hnew ▸ List.mem_cons_self⟩
      · rename_i hold
        have hstep := age_issue_of_ne (a := a) (j := j) (Ne.symm hold) s
        refine Or.inr ⟨hset, ?_, ?_⟩
        · exact List.not_mem_cons_of_ne_of_not_mem (Ne.symm hold) hid
        · rw [hstep, Nat.add_right_comm] at hage
          exact hage

end Discovery

namespace Service
variable {σ : Type}

theorem get?_scheduled {s : Service σ} {u : PresenceUpdate} {id : QueryId} {q : Query}
    (h : (s.scheduled u).1.pending.get? id = some q) :
    (∃ t ∈ u.untrusted s.bundles, q = .ofJob u.sender ⟨s.roster.nextJob⟩ t ∧ id ∈ (s.scheduled u).2) ∨
    s.discovery.pending.get? id = some q ∧ id ∉ (s.scheduled u).2 ∧
      (s.scheduled u).1.age id = s.discovery.age id + (u.untrusted s.bundles).length :=
  Discovery.get?_issueAll h

variable [Sink σ]

/-- A presence update that the service has taken, with the events before it. -/
structure Arrival (σ : Type) where
  before : History σ
  update : PresenceUpdate

namespace Arrival
variable (required : UInt32) (capacity : Nat) (x : Arrival σ)

/-- The service that has taken the update. -/
def service : Service σ := History.service required capacity x.before

/-- The bundles that it asked for. -/
def asked : List CapabilitySignature := x.update.untrusted (x.service required capacity).bundles

/-- The numbers of its queries. -/
def issued : List QueryId :=
  match (x.service required capacity).handlePresence x.update with
  | .ok y => y.issued
  | .error _ => []

end Arrival

namespace History
variable (required : UInt32) (capacity : Nat)

/-- The update that an event brings, if it is taken. -/
def arrival? (h : History σ) : Event σ → Option (Arrival σ)
  | .presence u => if ((h.service required capacity).handlePresence u).isOk then some ⟨h, u⟩ else none
  | _ => none

/-- The updates that were taken, the latest one first. -/
def arrivals : History σ → List (Arrival σ)
  | [] => []
  | e :: h => (arrival? required capacity h e).toList ++ arrivals h

/-- The updates that were given a job, the latest one first. -/
def begun (h : History σ) : List (Arrival σ) :=
  (h.arrivals required capacity).filter fun x => !(x.asked required capacity).isEmpty

/-- The latest update of a resource. -/
def latest? (h : History σ) (a : FullAddress) : Option (Arrival σ) :=
  (h.arrivals required capacity).find? fun x => x.update.sender = a

/-- The update for which a query was last given this number. -/
def issuer? (h : History σ) (id : QueryId) : Option (Arrival σ) :=
  (h.arrivals required capacity).find? fun x => id ∈ x.issued required capacity

variable {required : UInt32} {capacity : Nat} {h : History σ} {e : Event σ} {u : PresenceUpdate} {y : Handled σ}
  {a : FullAddress} {id : QueryId} {x : Arrival σ}

theorem arrivals_of_taken (hy : (h.service required capacity).handlePresence u = .ok y) :
    arrivals required capacity (.presence u :: h) = ⟨h, u⟩ :: h.arrivals required capacity := by
  rw [arrivals, arrival?, hy]
  rfl

theorem arrivals_of_arrival?_eq_none (he : h.arrival? required capacity e = none) :
    arrivals required capacity (e :: h) = h.arrivals required capacity := by
  rw [arrivals, he]
  rfl

theorem issued_of_taken (hy : (h.service required capacity).handlePresence u = .ok y) :
    Arrival.issued required capacity ⟨h, u⟩ = y.issued := by
  rw [Arrival.issued, Arrival.service, hy]

theorem sender_of_latest? (hx : h.latest? required capacity a = some x) : x.update.sender = a := by
  have hsome := List.find?_some hx
  exact of_decide_eq_true hsome

theorem arrival?_eq_some (hx : h.arrival? required capacity e = some x) : e = .presence x.update ∧ x.before = h := by
  cases e with
  | presence u =>
    rw [arrival?] at hx
    split at hx
    · obtain rfl := Option.some.inj hx
      exact ⟨rfl, rfl⟩
    · exact absurd hx (by simp)
  | _ => exact absurd hx (by simp [arrival?])

theorem arrival?_of_refused {err : ServiceError} (hy : (h.service required capacity).handlePresence u = .error err) :
    h.arrival? required capacity (.presence u) = none := by
  rw [arrival?, hy]
  rfl

theorem suffix_of_mem_arrivals (hx : x ∈ h.arrivals required capacity) : (.presence x.update :: x.before) <:+ h := by
  induction h with
  | nil => exact absurd hx List.not_mem_nil
  | cons e h ih =>
    rw [arrivals, List.mem_append, Option.mem_toList] at hx
    rcases hx with hx | hx
    · obtain ⟨rfl, rfl⟩ := arrival?_eq_some hx
      exact List.suffix_rfl
    · exact (ih hx).trans (List.suffix_cons e h)

theorem length_before_lt (hx : x ∈ h.arrivals required capacity) : x.before.length < h.length :=
  (suffix_of_mem_arrivals hx).length_le

theorem latest?_of_taken (hy : (h.service required capacity).handlePresence u = .ok y) :
    latest? required capacity (.presence u :: h) a =
      if u.sender = a then some ⟨h, u⟩ else h.latest? required capacity a := by
  rw [latest?, arrivals_of_taken hy, List.find?_cons]
  by_cases ha : u.sender = a <;> simp [ha, latest?]

theorem issuer?_of_taken (hy : (h.service required capacity).handlePresence u = .ok y) :
    issuer? required capacity (.presence u :: h) id =
      if id ∈ y.issued then some ⟨h, u⟩ else h.issuer? required capacity id := by
  rw [issuer?, arrivals_of_taken hy, List.find?_cons, issued_of_taken hy]
  by_cases hid : id ∈ y.issued <;> simp [hid, issuer?]

theorem begun_of_taken (hy : (h.service required capacity).handlePresence u = .ok y) :
    begun required capacity (.presence u :: h) =
      if Arrival.asked required capacity ⟨h, u⟩ = [] then h.begun required capacity
      else ⟨h, u⟩ :: h.begun required capacity := by
  rw [begun, arrivals_of_taken hy]
  by_cases hq : Arrival.asked required capacity ⟨h, u⟩ = []
  · rw [List.filter_cons_of_neg (by rw [hq]; decide), if_pos hq, begun]
  · rw [List.filter_cons_of_pos (by simpa using hq), if_neg hq, begun]

end History

/-- What an update leaves of the roster and of the queries in flight. -/
theorem of_handlePresence_eq_ok {s : Service σ} {u : PresenceUpdate} {y : Handled σ} (hy : s.handlePresence u = .ok y) :
    y.service.roster = (s.roster.start s.bundles u).roster ∧ y.service.discovery = (s.scheduled u).1 ∧
      y.issued = (s.scheduled u).2 := by
  obtain ⟨e, he⟩ | ⟨-, handles, n, -, he⟩ := s.handlePresence_cases u
  · rw [he] at hy
    exact absurd hy (by simp)
  · rw [he] at hy
    rw [← Except.ok.inj hy, roster_publish?, discovery_publish?]
    exact ⟨rfl, rfl, rfl⟩

/-- Whether an event is neither a presence update nor an outcome. -/
def Event.isAside : Event σ → Bool
  | .presence _ | .outcome _ => false
  | _ => true

/-- Aside from updates and outcomes, all that can happen to roster and queries is that queries are dropped. -/
theorem step_of_isAside (s : Service σ) {e : Event σ} (he : e.isAside = true) :
    (s.step e).roster = s.roster ∧ (s.step e).discovery.nextId = s.discovery.nextId ∧
      ∀ id q, (s.step e).discovery.pending.get? id = some q → s.discovery.pending.get? id = some q := by
  cases e with
  | presence u => exact absurd he (by simp [Event.isAside])
  | outcome o => exact absurd he (by simp [Event.isAside])
  | contact a =>
    obtain h | ⟨handles, h⟩ := s.step_contact_cases a <;> rw [h] <;> exact ⟨rfl, rfl, fun _ _ hq => hq⟩
  | bundle c => exact ⟨rfl, rfl, fun _ _ hq => hq⟩
  | listening l => exact ⟨rfl, rfl, fun _ _ hq => hq⟩
  | shutdown =>
    obtain ⟨-, h⟩ | ⟨-, h⟩ := s.step_shutdown_cases <;> rw [h]
    · exact ⟨rfl, rfl, fun _ _ hq => hq⟩
    · exact ⟨rfl, rfl, fun _ _ hq => absurd hq (by simp [Discovery.cancelAll])⟩

theorem History.arrival?_of_isAside {required : UInt32} {capacity : Nat} (h : History σ) {e : Event σ}
    (he : e.isAside = true) : h.arrival? required capacity e = none := by
  cases e with
  | presence u => exact absurd he (by simp [Event.isAside])
  | _ => rfl

/-- The age of a job tells the update that it was given to. A live job is that of its resource's latest update. Since a
query in flight was issued no more jobs than queries have come, and it was issued for the update that has its job. -/
structure Traced (required : UInt32) (capacity : Nat) (h : History σ) (s : Service σ) : Prop where
  job : ∀ {j job}, s.roster.jobs.get? j = some job → ∃ x,
    (h.begun required capacity)[s.roster.age j]? = some x ∧ h.latest? required capacity job.resource = some x
  query : ∀ {id q}, s.discovery.pending.get? id = some q → s.roster.age q.job ≤ s.discovery.age id ∧ ∃ x,
    (h.begun required capacity)[s.roster.age q.job]? = some x ∧ h.issuer? required capacity id = some x ∧
      q.signature ∈ x.asked required capacity ∧ q = .ofJob x.update.sender q.job q.signature

/-- A job after an update is the new one, or an old one of another resource. -/
theorem History.jobs_of_taken {required : UInt32} {capacity : Nat} {h : History σ} {u : PresenceUpdate} {y : Handled σ}
    (hy : (h.service required capacity).handlePresence u = .ok y) {j : JobId} {job : Job}
    (hj : y.service.roster.jobs.get? j = some job) :
    let s := h.service required capacity
    (u.untrusted s.bundles ≠ [] ∧ j = ⟨s.roster.nextJob⟩ ∧
      job = ⟨u.sender, u.untrusted s.bundles, Roster.trustedBits s.bundles u.signatures⟩) ∨
    (u.untrusted s.bundles = [] ∨ j ≠ ⟨s.roster.nextJob⟩) ∧ s.roster.jobs.get? j = some job ∧
      u.sender ≠ job.resource := by
  intro s
  rw [(of_handlePresence_eq_ok hy).1, Roster.jobs_start] at hj
  split at hj
  · rename_i hnew
    exact Or.inl ⟨hnew.1, hnew.2.symm, (Option.some.inj hj).symm⟩
  · rename_i hnew
    rw [Roster.jobs_supersede] at hj
    split at hj
    · exact absurd hj (by simp)
    · rename_i hactive
      refine Or.inr ⟨?_, hj, ?_⟩
      · by_cases hq : u.untrusted s.bundles = []
        · exact Or.inl hq
        · exact Or.inr fun he => hnew ⟨hq, he.symm⟩
      · -- the job that the sender waited for is gone
        intro he
        rw [roster_service] at hj hactive
        exact hactive (he ▸ Roster.History.active_of_jobs hj)

namespace Traced
variable {required : UInt32} {capacity : Nat} {h : History σ} {u : PresenceUpdate} {y : Handled σ}

open History

theorem start (required : UInt32) (capacity : Nat) :
    Traced required capacity ([] : History σ) (.start required capacity) where
  job hj := absurd hj (by simp [Service.start, Roster.empty])
  query hq := absurd hq (by simp [Service.start, Discovery.requiring])

/-- A query for a live job was issued for the update that has the job, the latest one of its resource. -/
theorem exists_update {s : Service σ} (ht : Traced required capacity h s) {id : QueryId} {q : Query} {job : Job}
    (hq : s.discovery.pending.get? id = some q) (hj : s.roster.jobs.get? q.job = some job) :
    ∃ x, h.issuer? required capacity id = some x ∧ h.latest? required capacity job.resource = some x ∧
      q.signature ∈ x.asked required capacity ∧ q = .ofJob x.update.sender q.job q.signature := by
  obtain ⟨-, x, hx, hissuer, hasked, hof⟩ := ht.query hq
  obtain ⟨z, hz, hlatest⟩ := ht.job hj
  obtain rfl : z = x := Option.some.inj (hz.symm.trans hx)
  exact ⟨z, hissuer, hlatest, hasked, hof⟩

/-- Updates are looked for in the history alone, and ages told from the counters. -/
theorem of_same_arrivals {s s' : Service σ} (ht : Traced required capacity h s) {e : Event σ}
    (he : h.arrival? required capacity e = none) (hn : s'.roster.nextJob = s.roster.nextJob)
    (hi : s'.discovery.nextId = s.discovery.nextId)
    (hj : ∀ j job, s'.roster.jobs.get? j = some job →
      ∃ old, s.roster.jobs.get? j = some old ∧ old.resource = job.resource)
    (hq : ∀ id q, s'.discovery.pending.get? id = some q → s.discovery.pending.get? id = some q) :
    Traced required capacity (e :: h) s' := by
  have hage (j : JobId) : s'.roster.age j = s.roster.age j := by rw [Roster.age, hn, Roster.age]
  have harrivals := arrivals_of_arrival?_eq_none he
  constructor
  · intro j job hjob
    obtain ⟨old, hold, hres⟩ := hj j job hjob
    rw [hage, begun, latest?, harrivals, ← hres]
    exact ht.job hold
  · intro id q hget
    rw [hage, Discovery.age, hi, begun, issuer?, harrivals]
    exact ht.query (hq id q hget)

/-- With the roster as it was, only queries may have gone. -/
theorem of_same_roster {s s' : Service σ} (ht : Traced required capacity h s) {e : Event σ}
    (he : h.arrival? required capacity e = none) (hr : s'.roster = s.roster)
    (hi : s'.discovery.nextId = s.discovery.nextId)
    (hq : ∀ id q, s'.discovery.pending.get? id = some q → s.discovery.pending.get? id = some q) :
    Traced required capacity (e :: h) s' := by
  refine ht.of_same_arrivals he ?_ hi ?_ hq
  · rw [hr]
  · intro j job hj
    exact ⟨job, hr ▸ hj, rfl⟩

theorem aside {s : Service σ} (ht : Traced required capacity h s) {e : Event σ} (he : e.isAside = true) :
    Traced required capacity (e :: h) (s.step e) := by
  obtain ⟨hroster, hnext, hpending⟩ := s.step_of_isAside he
  exact ht.of_same_roster (arrival?_of_isAside h he) hroster hnext hpending

/-- A job that is not new was there before, is of another resource, and has grown older with its update. -/
theorem job_presence (ht : Traced required capacity h (h.service required capacity))
    (hy : (h.service required capacity).handlePresence u = .ok y) {j : JobId} {job : Job}
    (hj : y.service.roster.jobs.get? j = some job) : ∃ x,
      (begun required capacity (.presence u :: h))[y.service.roster.age j]? = some x ∧
        latest? required capacity (.presence u :: h) job.resource = some x := by
  have hasked : Arrival.asked required capacity ⟨h, u⟩ = u.untrusted (h.service required capacity).bundles := rfl
  have hcases := jobs_of_taken hy hj
  rw [(of_handlePresence_eq_ok hy).1, begun_of_taken hy, latest?_of_taken hy, hasked]
  obtain ⟨hq, rfl, rfl⟩ | ⟨hold, hjob, hne⟩ := hcases
  · rw [Roster.age_start_nextJob _ hq, if_neg hq, if_pos rfl]
    exact ⟨_, rfl, rfl⟩
  · obtain ⟨x, hx, hlatest⟩ := ht.job hjob
    refine ⟨x, ?_, by rw [if_neg hne, hlatest]⟩
    -- a new job in front makes every other one older, and moves its update one further
    by_cases hq : u.untrusted (h.service required capacity).bundles = []
    · rw [if_pos hq, Roster.age, Roster.nextJob_start, if_pos hq]
      exact hx
    · rw [if_neg hq, Roster.age_start_of_ne (hold.resolve_left hq), if_neg hq, List.getElem?_cons_succ]
      exact hx

theorem presence (ht : Traced required capacity h (h.service required capacity))
    (hy : (h.service required capacity).handlePresence u = .ok y) :
    Traced required capacity (.presence u :: h) y.service := by
  have hasked : Arrival.asked required capacity ⟨h, u⟩ = u.untrusted (h.service required capacity).bundles := rfl
  obtain ⟨hroster, hdiscovery, hissued⟩ := of_handlePresence_eq_ok hy
  constructor
  · intro j job hj
    exact ht.job_presence hy hj
  · intro id q hq
    rw [hdiscovery] at hq ⊢
    rw [hroster, begun_of_taken hy, issuer?_of_taken hy, hissued, hasked]
    obtain ⟨s, hs, rfl, hid⟩ | ⟨hold, hid, hage⟩ := get?_scheduled hq
    · -- a new query has the new job, and nothing is younger than that
      have hne : u.untrusted (h.service required capacity).bundles ≠ [] := List.ne_nil_of_mem hs
      have hzero := Roster.age_start_nextJob (h.service required capacity).roster hne
      rw [Query.ofJob, hzero, if_neg hne, if_pos hid]
      exact ⟨Nat.zero_le _, _, rfl, rfl, hs, rfl⟩
    · obtain ⟨hle, x, hx, hissuer, hmem, hof⟩ := ht.query hold
      rw [if_neg hid, hage]
      by_cases hne : u.untrusted (h.service required capacity).bundles = []
      · rw [if_pos hne, hne, List.length_nil, Roster.age, Roster.nextJob_start, if_pos hne]
        exact ⟨hle, x, hx, hissuer, hmem, hof⟩
      · -- the new queries have pushed out all those that are a full round old
        have hlen := List.length_pos_iff.2 hne
        have hold : q.job ≠ ⟨(h.service required capacity).roster.nextJob⟩ := by
          intro he
          have hmax := age_self (h.service required capacity).roster.nextJob
          have hlt := age_lt ((h.service required capacity).scheduled u).1.nextId id.value
          rw [← Discovery.age, hage] at hlt
          rw [he, Roster.age, hmax] at hle
          omega
        rw [if_neg hne, Roster.age_start_of_ne hold, if_neg hne, List.getElem?_cons_succ]
        exact ⟨by omega, x, hx, hissuer, hmem, hof⟩

end Traced

namespace History
variable {required : UInt32} {capacity : Nat} {h : History σ}

/-- An outcome takes its query away; jobs keep their resources. -/
theorem traced_outcome (ht : Traced required capacity h (h.service required capacity)) (o : Outcome) :
    Traced required capacity (.outcome o :: h) ((h.service required capacity).handleOutcome o) := by
  cases hr : (h.service required capacity).running with
  | false =>
    rw [handleOutcome, hr, if_neg (by decide)]
    exact ht.of_same_roster rfl rfl rfl fun id q hq => hq
  | true =>
    cases hs : ((h.service required capacity).discovery.settle o).2 with
    | none =>
      rw [handleOutcome_of_settle_none hr hs]
      exact ht.of_same_roster rfl rfl (Discovery.nextId_settle _ o) fun id q => Discovery.pending_of_settle
    | some x =>
      rw [handleOutcome_of_settle_some hr hs]
      refine ht.of_same_arrivals rfl ?_ ?_ ?_ ?_
      · rw [roster_publish?]
        exact Roster.nextJob_resolve _ x
      · rw [discovery_publish?]
        exact Discovery.nextId_settle _ o
      · rw [roster_publish?]
        intro j job hj
        obtain ⟨old, hold, hres, -⟩ := (h.service required capacity).roster.jobs_resolve_eq_some x hj
        exact ⟨old, hold, hres.symm⟩
      · rw [discovery_publish?]
        exact fun id q => Discovery.pending_of_settle

theorem traced (required : UInt32) (capacity : Nat) (h : History σ) :
    Traced required capacity h (h.service required capacity) := by
  induction h with
  | nil => exact .start required capacity
  | cons e h ih =>
    rw [service]
    cases e with
    | presence u =>
      cases hy : (service required capacity h).handlePresence u with
      | ok y =>
        rw [step, hy]
        exact ih.presence hy
      | error e =>
        rw [step, hy]
        exact ih.of_same_roster (arrival?_of_refused hy) rfl rfl fun id q hq => hq
    | outcome o => exact traced_outcome ih o
    | _ => exact ih.aside rfl

end History

end Service
end PresenceCaps
