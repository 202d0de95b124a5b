import PresenceCaps.Proofs.Roster.Coherence
import PresenceCaps.Proofs.Service.Steps

/-! No job waits in vain: for each bundle that a live job waits for there is a query in flight. -/
namespace PresenceCaps
variable {σ : Type} [Sink σ]

/-- The queries in flight for a live job are those for the bundles it waits for, one for each. -/
structure Attended (r : Roster) (d : Discovery) (k : Nat) : Prop where
  numbered : d.Numbered k
  begun : ∀ {id q}, d.pending.get? id = some q → q.job.value.toNat < r.nextJob.toNat
  queries : ∀ {j job}, r.jobs.get? j = some job → ∀ s, (d.queriesFor j s).map Prod.snd =
    if s ∈ job.unresolved then [.ofJob job.resource j s] else []

namespace Attended
variable {r : Roster} {d : Discovery} {k : Nat}

theorem start (n : UInt32) : Attended .empty (.requiring n) 0 where
  numbered := .requiring n
  begun h := absurd h (by simp [Discovery.requiring])
  queries h := absurd h (by simp [Roster.empty])

/-- What is known of bundles plays no part. -/
theorem of_bundles (h : Attended r d k) (b : Bundles) : Attended r { d with bundles := b } k :=
  ⟨h.numbered.of_bundles b, h.begun, h.queries⟩

/-- The next job has no queries yet. -/
theorem queriesFor_nextJob (h : Attended r d k) (s : CapabilitySignature) : d.queriesFor ⟨r.nextJob⟩ s = [] := by
  refine List.filter_eq_nil_iff.2 fun e he hj => ?_
  have hget : d.pending.get? e.1 = some e.2 := (Assoc.get?_eq_some_iff_mem h.numbered.nodup).2 he
  have hlt := h.begun hget
  rw [(of_decide_eq_true hj).1] at hlt
  exact Nat.lt_irrefl _ hlt

/-- An update is given a job that is new, and a query for each bundle that the job waits for. -/
theorem presence (h : Attended r d k) (hr : r.Coherent) (bs : Bundles) (u : PresenceUpdate)
    (hn : u.untrusted bs ≠ [] → r.nextJob.toNat + 1 < 2 ^ 64) (hk : k + (u.untrusted bs).length < 2 ^ 64) :
    Attended (r.start bs u).roster (d.issueAll u.sender ⟨r.nextJob⟩ (u.untrusted bs)).1
      (k + (u.untrusted bs).length) where
  numbered := h.numbered.issueAll _ hk _ _
  begun {id q} hq := by
    have hmem := Assoc.mem_of_get?_eq_some hq
    rw [h.numbered.pending_issueAll _ hk, List.mem_append] at hmem
    rw [Roster.toNat_nextJob_start r bs u hn]
    -- a query that was there belongs to an older job, and the new ones to the job just numbered
    rcases hmem with hold | hnew
    · have hlt := h.begun ((Assoc.get?_eq_some_iff_mem h.numbered.nodup).2 hold)
      exact Nat.lt_add_right _ hlt
    · obtain ⟨s, hs, rfl⟩ := List.mem_map.1 (List.of_mem_zip hnew).2
      rw [if_neg (List.ne_nil_of_mem hs)]
      exact Nat.lt_succ_self _
  queries {j job} hj s := by
    rw [Roster.jobs_start] at hj
    split at hj
    · rename_i hnew
      obtain ⟨-, rfl⟩ := hnew
      rw [← Option.some.inj hj]
      exact Discovery.map_queriesFor_issueAll_self h.numbered hk (h.queriesFor_nextJob s)
        (u.nodup_signatures.filter _)
    · -- a job that was live before has its queries still, and the new ones are not for it
      have hold : r.jobs.get? j = some job := (hr.jobs_supersede_eq_some.1 hj).1
      have hne : j ≠ ⟨r.nextJob⟩ := by
        rintro rfl
        rw [hr.jobs_get?_nextJob] at hold
        exact absurd hold (by simp)
      rw [Discovery.map_queriesFor_issueAll_of_ne h.numbered hk hne]
      exact h.queries hold s

/-- An outcome takes its query away, and with it the bundle from what the job waits for. -/
theorem outcome (h : Attended r d k) {id : QueryId} {q : Query} (hq : d.pending.get? id = some q) (b : Bundles)
    (features : FeatureSet) :
    Attended (r.resolve q.job q.signature features).1 { d with bundles := b, pending := d.pending.erase id } k where
  numbered := h.numbered.erase b id
  begun {x p} hp := by
    rw [Roster.nextJob_resolve r ⟨q.job, q.signature, features⟩]
    rw [Assoc.get?_erase] at hp
    split at hp
    · exact absurd hp (by simp)
    · exact h.begun hp
  queries {j job} hj s := by
    obtain ⟨old, hold, hres, hun⟩ := r.jobs_resolve_eq_some ⟨q.job, q.signature, features⟩ hj
    have hqueries := h.queries hold s
    rw [hres]
    by_cases hsame : q.job = j ∧ q.signature = s
    · obtain ⟨rfl, rfl⟩ := hsame
      have hone : ((d.queriesFor q.job q.signature).map Prod.snd).length ≤ 1 := by
        rw [hqueries]
        split
        · exact Nat.le_refl _
        · exact Nat.zero_le _
      rw [Discovery.queriesFor_erase_self hq hone, hun, if_pos rfl]
      simp
    · -- of another bundle neither the query nor the wait for it is touched
      have hkeep : s ∈ job.unresolved ↔ s ∈ old.unresolved := by
        rw [hun]
        split
        · rename_i hjob
          have hne : s ≠ q.signature := fun he => hsame ⟨hjob, he.symm⟩
          simp [hne]
        · exact Iff.rfl
      rw [Discovery.queriesFor_erase_of_ne h.numbered.nodup hq hsame, hqueries]
      simp only [hkeep]

theorem queriesFor_of_mem (h : Attended r d k) {j : JobId} {job : Job} {s : CapabilitySignature}
    (hj : r.jobs.get? j = some job) (hs : s ∈ job.unresolved) :
    ∃ id, d.queriesFor j s = [(id, .ofJob job.resource j s)] := by
  have hqueries := h.queries hj s
  rw [if_pos hs] at hqueries
  obtain ⟨e, he, hquery⟩ := List.map_eq_singleton_iff.1 hqueries
  exact ⟨e.1, by rw [he, ← hquery]⟩

theorem mem_unresolved (h : Attended r d k) {id : QueryId} {q : Query} {job : Job} (hq : (id, q) ∈ d.pending)
    (hj : r.jobs.get? q.job = some job) : q.signature ∈ job.unresolved := by
  have hqueries := h.queries hj q.signature
  have hmem : (id, q) ∈ d.queriesFor q.job q.signature := List.mem_filter.2 ⟨hq, by simp⟩
  split at hqueries
  · assumption
  · rw [List.map_eq_nil_iff.1 hqueries] at hmem
    exact absurd hmem List.not_mem_nil

/-- A job waits for some bundle, and so has a query in flight. -/
theorem active_eq_none (h : Attended r d k) (hr : r.Coherent) (hd : d.pending = []) (a : FullAddress) :
    r.active.get? a = none := by
  cases hact : r.active.get? a with
  | none => rfl
  | some j =>
    obtain ⟨job, hjob, -⟩ := hr.active_iff.1 hact
    obtain ⟨s, hs⟩ := List.exists_mem_of_ne_nil _ (hr.unresolved_ne_nil hjob)
    obtain ⟨id, hid⟩ := h.queriesFor_of_mem hjob hs
    rw [Discovery.queriesFor, hd] at hid
    exact absurd hid (by simp)

end Attended

namespace Service

/-- A job that an event begins has a number to be counted by. -/
theorem attended_step {s : Service σ} {k : Nat} (h : Attended s.roster s.discovery k) (hr : s.roster.Coherent)
    (e : Event σ) (hrun : (s.step e).running = true)
    (hn : ∀ c, s.rosterCall? e = some c → c.waits = true → s.roster.nextJob.toNat + 1 < 2 ^ 64)
    (hk : k + s.issuedCount e < 2 ^ 64) :
    Attended (s.step e).roster (s.step e).discovery (k + s.issuedCount e) := by
  rw [running_step] at hrun
  cases e with
  | presence u =>
    obtain ⟨e, he⟩ | ⟨-, handles, x, -, he⟩ := s.handlePresence_cases u
    · simp only [step, issuedCount, he]
      exact h
    · have hlen : s.issuedCount (.presence u) = (u.untrusted s.bundles).length := by
        simp only [issuedCount, he]
        exact Discovery.length_issueAll ..
      have hwaits : u.untrusted s.bundles ≠ [] → s.roster.nextJob.toNat + 1 < 2 ^ 64 := by
        intro hq
        refine hn (.start s.bundles u) ?_ ?_
        · simp only [rosterCall?, he]
          rfl
        · simpa [Roster.Call.waits] using hq
      rw [hlen] at hk ⊢
      simp only [step, he, roster_publish?, discovery_publish?]
      exact (h.of_bundles _).presence hr s.bundles u hwaits hk
  | outcome o =>
    rw [step]
    obtain ⟨-, hs⟩ | ⟨q, hq, ⟨reply, -, hs⟩ | ⟨e, -, hs⟩⟩ := s.discovery.settle_cases o
    · rw [handleOutcome_of_settle_none hrun (congrArg Prod.snd hs), hs]
      exact h
    · rw [handleOutcome_of_settle_some hrun (congrArg Prod.snd hs), hs, roster_publish?, discovery_publish?]
      exact h.outcome hq _ _
    · rw [handleOutcome_of_settle_some hrun (congrArg Prod.snd hs), hs, roster_publish?, discovery_publish?]
      exact h.outcome hq _ _
  | contact a =>
    obtain hs | ⟨handles, hs⟩ := s.step_contact_cases a <;> rw [hs] <;> exact h
  | bundle c => exact h.of_bundles _
  | listening l => exact h
  | shutdown => exact absurd hrun Bool.false_ne_true

namespace History

theorem jobCount_cons (required : UInt32) (capacity : Nat) (h : History σ) (e : Event σ) :
    jobCount required capacity (e :: h) = jobCount required capacity h +
      ((service required capacity h).rosterCall? e).toList.countP Roster.Call.waits := by
  rw [jobCount, rosterCalls, Roster.History.jobCount, List.countP_append, Nat.add_comm]
  rfl

variable {required : UInt32} {capacity : Nat} {h : History σ}

theorem coherent (hj : h.jobCount required capacity < 2 ^ 64) : (h.service required capacity).roster.Coherent := by
  rw [roster_service]
  exact Roster.History.coherent _ hj

theorem toNat_nextJob (hj : h.jobCount required capacity < 2 ^ 64) :
    (h.service required capacity).roster.nextJob.toNat = h.jobCount required capacity := by
  rw [roster_service, Roster.History.roster_nextJob]
  exact UInt64.toNat_ofNat_of_lt' hj

theorem attended (hrun : (h.service required capacity).running = true)
    (hj : h.jobCount required capacity < 2 ^ 64) (hq : h.queryCount required capacity < 2 ^ 64) :
    Attended (h.service required capacity).roster (h.service required capacity).discovery
      (h.queryCount required capacity) := by
  induction h with
  | nil => exact .start required
  | cons e h ih =>
    -- the bounds hold of every earlier history, so that no number was given twice on the way
    have hjobs := jobCount_cons required capacity h e
    have hold : jobCount required capacity h < 2 ^ 64 := by omega
    have hqueries : queryCount required capacity h < 2 ^ 64 := Nat.lt_of_le_of_lt (Nat.le_add_right ..) hq
    have hprev := ih (running_of_step hrun) hold hqueries
    refine attended_step hprev (coherent hold) e hrun (fun c hc hw => ?_) hq
    rw [toNat_nextJob hold]
    rw [hc, Option.toList_some, List.countP_singleton, if_pos hw] at hjobs
    omega

/-- No waiting job is ever stuck. A live job has exactly one query in flight for each bundle it waits for, sent to its
own resource, and no other; it waits for something, on behalf of a resource that is online and has no other job. So
nothing waits when no query is in flight. -/
theorem no_job_is_stuck (required : UInt32) (capacity : Nat) (h : History σ)
    (hrun : (h.service required capacity).running = true) (hj : h.jobCount required capacity < 2 ^ 64)
    (hq : h.queryCount required capacity < 2 ^ 64) :
    let r := (h.service required capacity).roster
    let d := (h.service required capacity).discovery
    (∀ j job s, r.jobs.get? j = some job → s ∈ job.unresolved →
      ∃ id, d.queriesFor j s = [(id, .ofJob job.resource j s)]) ∧
    (∀ id q job, (id, q) ∈ d.pending → r.jobs.get? q.job = some job → q.signature ∈ job.unresolved) ∧
    (∀ j job, r.jobs.get? j = some job →
      job.unresolved ≠ [] ∧ (r.resourceCapabilities? job.resource).isSome = true) ∧
    (∀ a j, r.active.get? a = some j ↔ ∃ job, r.jobs.get? j = some job ∧ job.resource = a) ∧
    (∀ j k job other, r.jobs.get? j = some job → r.jobs.get? k = some other → job.resource = other.resource →
      j = k) ∧
    ((h.service required capacity).pendingQueries = .ok 0 → ∀ a, r.isPending a = false) := by
  intro r d
  have hr : r.Coherent := coherent hj
  have ha : Attended r d _ := attended hrun hj hq
  refine ⟨fun j job s => ha.queriesFor_of_mem, fun id q job => ha.mem_unresolved, ?_, fun a j => hr.active_iff,
    fun j k job other => hr.eq_of_resource_eq, ?_⟩
  · intro j job hjob
    refine ⟨hr.unresolved_ne_nil hjob, ?_⟩
    rw [Roster.resourceCapabilities?_eq, Option.isSome_map]
    exact hr.online hjob
  · intro hnone a
    rw [pendingQueries, request, hrun, if_pos rfl] at hnone
    have hempty : d.pending = [] := List.length_eq_zero_iff.1 (Except.ok.inj hnone)
    rw [Roster.isPending, Assoc.contains, ha.active_eq_none hr hempty a]
    rfl

theorem no_job_is_stuck_of_replacedQueries :
    let s := replacedQueries.service 5 16
    let bundle := (Sample.advertisement "0.2").baseSignature
    let answered : History SinkKind := .outcome ⟨⟨2⟩, .ok .empty⟩ :: .outcome ⟨⟨4⟩, .ok .empty⟩ :: replacedQueries
    s.running = true ∧ replacedQueries.jobCount 5 16 = 3 ∧ replacedQueries.queryCount 5 16 = 4 ∧
    (∃ id, s.discovery.queriesFor ⟨2⟩ bundle = [(id, .ofJob Sample.laptop ⟨2⟩ bundle)]) ∧
    (answered.service 5 16).pendingQueries = .ok 0 ∧
    (answered.service 5 16).roster.isPending Sample.laptop = false := by
  intro s bundle answered
  have hjobs : replacedQueries.jobCount 5 16 = 3 := by decide
  have hqueries : replacedQueries.queryCount 5 16 = 4 := by decide
  obtain ⟨hone, -⟩ := no_job_is_stuck 5 16 replacedQueries (by decide) (by omega) (by omega)
  obtain ⟨-, -, -, -, -, hnone⟩ := no_job_is_stuck 5 16 answered (by decide) (by decide) (by decide)
  have hjob : s.roster.jobs.get? ⟨2⟩ = some ⟨Sample.laptop, [bundle], .none⟩ := by decide
  have hdone : (answered.service 5 16).pendingQueries = .ok 0 := by rfl
  exact ⟨by decide, hjobs, hqueries, hone ⟨2⟩ _ bundle hjob (List.mem_singleton_self _), hdone, hnone hdone _⟩

end History
end Service
end PresenceCaps
