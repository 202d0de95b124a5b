import PresenceCaps.Proofs.Roster.Stale
import PresenceCaps.Proofs.Service.Attended
import PresenceCaps.Proofs.Service.Origins

/-! The answers to a superseded update: they teach the bundles what they say, and nobody else anything. -/
namespace PresenceCaps
variable {σ : Type} [Sink σ]

/-- A live job has one query in flight for a bundle. -/
theorem Attended.eq_of_bundle_eq {r : Roster} {d : Discovery} {k : Nat} (h : Attended r d k) {id i : QueryId}
    {p q : Query} {job : Job} (hj : r.jobs.get? q.job = some job) (hp : d.pending.get? i = some p)
    (hq : d.pending.get? id = some q) (hjob : p.job = q.job) (hbundle : p.signature = q.signature) : i = id := by
  have hwaits := h.mem_unresolved (Assoc.mem_of_get?_eq_some hq) hj
  obtain ⟨only, hone⟩ := h.queriesFor_of_mem hj hwaits
  have hfirst : (id, q) ∈ d.queriesFor q.job q.signature :=
    List.mem_filter.2 ⟨Assoc.mem_of_get?_eq_some hq, by simp⟩
  have hsecond : (i, p) ∈ d.queriesFor q.job q.signature :=
    List.mem_filter.2 ⟨Assoc.mem_of_get?_eq_some hp, by simp [hjob, hbundle]⟩
  rw [hone, List.mem_singleton] at hfirst hsecond
  exact congrArg Prod.fst (hsecond.trans hfirst.symm)

namespace Service

namespace History

/-- The update that a query was last issued for was replaced: its resource has sent a newer one. -/
def IsReplaced (required : UInt32) (capacity : Nat) (h : History σ) (id : QueryId) : Prop :=
  ∃ x y, h.issuer? required capacity id = some x ∧ h.latest? required capacity x.update.sender = some y ∧
    x.before.length < y.before.length

end History

variable {s : Service σ} {o : Outcome} {q : Query}

/-- What an outcome teaches has nothing to do with the job that it is for. -/
theorem discovery_handleOutcome (s : Service σ) (o : Outcome) :
    (s.handleOutcome o).discovery = if s.running then (s.discovery.settle o).1 else s.discovery := by
  obtain ⟨hr, h⟩ | ⟨hr, -, h⟩ | ⟨hr, x, -, h⟩ := s.handleOutcome_cases o
  · rw [h, hr, if_neg Bool.false_ne_true]
  · rw [h, if_pos hr]
  · rw [h, if_pos hr, discovery_publish?]

theorem handleOutcome_of_not_live (hr : s.running = true) (hq : s.discovery.pending.get? o.id = some q)
    (hj : s.roster.jobs.get? q.job = none) :
    s.handleOutcome o = { s with discovery := (s.discovery.settle o).1 } := by
  obtain ⟨x, hx, hjob, -⟩ := Discovery.settle_of_get?_eq_some hq
  have hstep : s.roster.step (.resolve x) = (s.roster, none) := Roster.resolve_of_not_live (hjob ▸ hj)
  rw [handleOutcome_of_settle_some hr hx, hstep]
  rfl

/-- A service that was shut down leaves its queries alone. -/
theorem pending_step_of_not_running (hr : s.running = false) (e : Event σ) :
    (s.step e).discovery.pending = s.discovery.pending := by
  cases e with
  | presence u =>
    obtain ⟨e, he⟩ | ⟨hrun, -⟩ := s.handlePresence_cases u
    · simp only [step, he]
    · exact absurd hrun (by rw [hr]; decide)
  | outcome o => rw [step, handleOutcome, hr, if_neg (by decide)]
  | contact a =>
    obtain h | ⟨handles, h⟩ := s.step_contact_cases a <;> rw [h]
  | bundle c => rfl
  | listening l => rfl
  | shutdown =>
    obtain ⟨-, h⟩ | ⟨hrun, -⟩ := s.step_shutdown_cases
    · rw [h]
    · exact absurd (hr.symm.trans hrun) Bool.false_ne_true

namespace History
variable {required : UInt32} {capacity : Nat} {h : History σ}

theorem pending_of_not_running (hr : (h.service required capacity).running = false) :
    (h.service required capacity).discovery.pending = [] := by
  induction h with
  | nil => exact absurd hr (by simp [service, start])
  | cons e h ih =>
    cases hold : (service required capacity h).running with
    | false => rw [service, pending_step_of_not_running hold, ih hold]
    | true =>
      -- the event is the shutdown itself
      rw [service, running_step] at hr
      cases e with
      | shutdown =>
        simp only [service, step, shutdown, request, hold]
        rfl
      | _ => exact absurd hr (by simp [hold])

theorem running_of_get?_pending {id : QueryId}
    (hq : (h.service required capacity).discovery.pending.get? id = some q) :
    (h.service required capacity).running = true := by
  cases hr : (h.service required capacity).running with
  | true => rfl
  | false =>
    rw [pending_of_not_running hr] at hq
    exact absurd hq (by simp)

theorem not_live_of_isReplaced {id : QueryId}
    (hq : (h.service required capacity).discovery.pending.get? id = some q)
    (hr : h.IsReplaced required capacity id) : (h.service required capacity).roster.jobs.get? q.job = none := by
  obtain ⟨x, y, hx, hy, hlt⟩ := hr
  cases hj : (h.service required capacity).roster.jobs.get? q.job with
  | none => rfl
  | some job =>
    -- the update with this job would be the latest of its resource
    obtain ⟨z, hz, hlatest, -⟩ := (traced required capacity h).exists_update hq hj
    obtain rfl : z = x := Option.some.inj (hz.symm.trans hx)
    rw [sender_of_latest? hlatest, hlatest] at hy
    obtain rfl := Option.some.inj hy
    exact absurd hlt (Nat.lt_irrefl _)

/-- As long as its update is the latest of its resource, a query is for a live job. -/
def Awaited (required : UInt32) (capacity : Nat) (h : History σ) (s : Service σ) : Prop :=
  ∀ ⦃id q x⦄, s.discovery.pending.get? id = some q → h.issuer? required capacity id = some x →
    h.latest? required capacity x.update.sender = some x → ∃ job, s.roster.jobs.get? q.job = some job

theorem Awaited.of_same_roster {s s' : Service σ} (ha : h.Awaited required capacity s) {e : Event σ}
    (he : h.arrival? required capacity e = none) (hr : s'.roster = s.roster)
    (hq : ∀ id q, s'.discovery.pending.get? id = some q → s.discovery.pending.get? id = some q) :
    Awaited required capacity (e :: h) s' := by
  intro id q x hget hx hlatest
  rw [issuer?, arrivals_of_arrival?_eq_none he] at hx
  rw [latest?, arrivals_of_arrival?_eq_none he] at hlatest
  rw [hr]
  exact ha (hq id q hget) hx hlatest

theorem Awaited.aside {s : Service σ} (ha : h.Awaited required capacity s) {e : Event σ} (he : e.isAside = true) :
    Awaited required capacity (e :: h) (s.step e) := by
  obtain ⟨hroster, -, hpending⟩ := s.step_of_isAside he
  exact ha.of_same_roster (arrival?_of_isAside h he) hroster hpending

/-- The updates of other resources leave a job alone. -/
theorem awaited_presence (ha : h.Awaited required capacity (h.service required capacity))
    (hc : (h.service required capacity).roster.Coherent) {u : PresenceUpdate} {y : Handled σ}
    (hy : (h.service required capacity).handlePresence u = .ok y) :
    Awaited required capacity (.presence u :: h) y.service := by
  intro id q x hq hx hlatest
  obtain ⟨hroster, hdiscovery, hissued⟩ := of_handlePresence_eq_ok hy
  rw [hdiscovery] at hq
  rw [hroster, Roster.jobs_start]
  rw [issuer?_of_taken hy, hissued] at hx
  obtain ⟨t, ht, rfl, hid⟩ | ⟨hold, hid, -⟩ := get?_scheduled hq
  · -- a query of the new update, which has a job since there is something to ask for
    exact ⟨_, if_pos ⟨List.ne_nil_of_mem ht, rfl⟩⟩
  · rw [if_neg hid] at hx
    rw [latest?_of_taken hy] at hlatest
    split at hlatest
    · -- the new update is not an old one
      have hlt := length_before_lt (List.mem_of_find?_eq_some hx)
      rw [← Option.some.inj hlatest] at hlt
      exact absurd hlt (Nat.lt_irrefl _)
    · rename_i hne
      -- the update of another resource supersedes no job of this one
      obtain ⟨job, hjob⟩ := ha hold hx hlatest
      have hres : job.resource ≠ u.sender := by
        obtain ⟨w, hw, hjoblatest, -⟩ := (traced required capacity h).exists_update hold hjob
        obtain rfl : w = x := Option.some.inj (hw.symm.trans hx)
        rw [← sender_of_latest? hjoblatest]
        exact Ne.symm hne
      by_cases hnew : u.untrusted (h.service required capacity).bundles ≠ [] ∧
          (⟨(h.service required capacity).roster.nextJob⟩ : JobId) = q.job
      · exact ⟨_, if_pos hnew⟩
      · rw [if_neg hnew]
        exact ⟨job, hc.jobs_supersede_eq_some.2 ⟨hjob, hres⟩⟩

/-- A job ends with the outcome of its last query. -/
theorem awaited_outcome (ha : h.Awaited required capacity (h.service required capacity)) {k : Nat}
    (hatt : Attended (h.service required capacity).roster (h.service required capacity).discovery k)
    (hrun : (h.service required capacity).running = true) (o : Outcome) :
    Awaited required capacity (.outcome o :: h) ((h.service required capacity).handleOutcome o) := by
  intro id q x hq hx hlatest
  rw [discovery_handleOutcome, if_pos hrun] at hq
  cases hp : (h.service required capacity).discovery.pending.get? o.id with
  | none =>
    have hs := Discovery.settle_of_get?_eq_none hp
    rw [handleOutcome_of_settle_none hrun (congrArg Prod.snd hs)]
    rw [hs] at hq
    exact ha hq hx hlatest
  | some p =>
    obtain ⟨r, hr, hjob, hsig, hpending⟩ := Discovery.settle_of_get?_eq_some hp
    rw [hpending, Assoc.get?_erase] at hq
    split at hq
    · exact absurd hq (by simp)
    · rename_i hne
      obtain ⟨job, hlive⟩ := ha hq hx hlatest
      rw [handleOutcome_of_settle_some hrun hr, roster_publish?, Roster.step]
      obtain ⟨-, he⟩ | ⟨old, hold, -, ⟨-, he⟩ | ⟨hlast, he⟩⟩ := (h.service required capacity).roster.resolve_cases r
      · exact ⟨job, by rw [he, hlive]⟩
      · rw [he, Assoc.get?_set]
        split
        · exact ⟨_, rfl⟩
        · exact ⟨job, hlive⟩
      · rw [he, Roster.jobs_complete, Assoc.get?_erase]
        split
        · -- the job would end with two queries for one bundle in flight
          rename_i hsame
          rw [hsame, hlive] at hold
          obtain rfl := Option.some.inj hold
          have hnot := List.filter_eq_nil_iff.1 hlast q.signature
            (hatt.mem_unresolved (Assoc.mem_of_get?_eq_some hq) hlive)
          have hbundle : q.signature = p.signature := by
            rw [← hsig]
            simpa using hnot
          exact absurd (hatt.eq_of_bundle_eq hlive hp hq (hjob.symm.trans hsame) hbundle.symm) hne
        · exact ⟨job, hlive⟩

theorem awaited (hj : h.jobCount required capacity < 2 ^ 64) (hk : h.queryCount required capacity < 2 ^ 64) :
    h.Awaited required capacity (h.service required capacity) := by
  induction h with
  | nil => exact fun _ _ _ hq => absurd hq (by simp [service, start, Discovery.requiring])
  | cons e h ih =>
    have hjobs := jobCount_cons required capacity h e
    have hold : jobCount required capacity h < 2 ^ 64 := by omega
    have hqueries : queryCount required capacity h < 2 ^ 64 := Nat.lt_of_le_of_lt (Nat.le_add_right ..) hk
    have hprev := ih hold hqueries
    -- only updates and outcomes touch jobs, so that these are the steps to look at
    rw [service]
    cases e with
    | presence u =>
      cases hy : (service required capacity h).handlePresence u with
      | ok y =>
        rw [step, hy]
        exact awaited_presence hprev (coherent hold) hy
      | error e =>
        rw [step, hy]
        exact hprev.of_same_roster (arrival?_of_refused hy) rfl fun id q hq => hq
    | outcome o =>
      cases hrun : (service required capacity h).running with
      | true => exact awaited_outcome hprev (attended hrun hold hqueries) hrun o
      | false =>
        rw [step, handleOutcome, hrun, if_neg (by decide)]
        exact hprev.of_same_roster rfl rfl fun id q hq => hq
    | _ => exact hprev.aside rfl

/-- A resource that has sent an update has a latest one, which is that update or came later. -/
theorem exists_latest? {x : Arrival σ} (hx : x ∈ h.arrivals required capacity) :
    ∃ y, h.latest? required capacity x.update.sender = some y ∧ (y = x ∨ x.before.length < y.before.length) := by
  induction h with
  | nil => exact absurd hx List.not_mem_nil
  | cons e h ih =>
    cases he : arrival? required capacity h e with
    | none =>
      rw [arrivals_of_arrival?_eq_none he] at hx
      rw [latest?, arrivals_of_arrival?_eq_none he]
      exact ih hx
    | some z =>
      have harrivals : arrivals required capacity (e :: h) = z :: arrivals required capacity h := by
        rw [arrivals, he]
        rfl
      have hbefore := (arrival?_eq_some he).2
      rw [harrivals, List.mem_cons] at hx
      rw [latest?, harrivals]
      -- the newest update hides those before it from its own resource only
      by_cases hsender : z.update.sender = x.update.sender
      · refine ⟨z, List.find?_cons_of_pos (decide_eq_true hsender), ?_⟩
        rcases hx with rfl | hx
        · exact Or.inl rfl
        · exact Or.inr (hbefore ▸ length_before_lt hx)
      · rw [List.find?_cons_of_neg (by simpa using hsender)]
        rcases hx with rfl | hx
        · exact absurd rfl hsender
        · exact ih hx

theorem isReplaced_of_not_live (hj : h.jobCount required capacity < 2 ^ 64)
    (hk : h.queryCount required capacity < 2 ^ 64) {id : QueryId}
    (hq : (h.service required capacity).discovery.pending.get? id = some q)
    (hnone : (h.service required capacity).roster.jobs.get? q.job = none) : h.IsReplaced required capacity id := by
  obtain ⟨-, x, -, hx, -⟩ := (traced required capacity h).query hq
  obtain ⟨y, hy, rfl | hlt⟩ := exists_latest? (List.mem_of_find?_eq_some hx)
  · -- the latest update of a resource would still have its job
    obtain ⟨job, hjob⟩ := awaited hj hk hq hx hy
    rw [hnone] at hjob
    exact absurd hjob (by simp)
  · exact ⟨x, y, hx, hy, hlt⟩

/-- A query in flight whose update was replaced is for a job that is not live; as long as no number was given out twice,
no other query in flight is. An outcome for a job that is not live is neither noticed by the roster nor published, and
teaches the bundles what it would teach them with any other roster, one in which the job is live among them. Calls of
this kind can be struck from what a roster is told: the others meet the rosters that they met, and get the same
answers. -/
theorem superseded_update_teaches_bundles_only (required : UInt32) (capacity : Nat) (h : History σ) (o : Outcome)
    (q : Query) (hq : (h.service required capacity).discovery.pending.get? o.id = some q) :
    let s := h.service required capacity
    (h.IsReplaced required capacity o.id → s.roster.jobs.get? q.job = none) ∧
    (h.jobCount required capacity < 2 ^ 64 → h.queryCount required capacity < 2 ^ 64 →
      s.roster.jobs.get? q.job = none → h.IsReplaced required capacity o.id) ∧
    (s.roster.jobs.get? q.job = none →
      let after := s.handleOutcome o
      after.roster = s.roster ∧ after.notifier = s.notifier ∧ after.handles = s.handles ∧
      after.discovery = (s.discovery.settle o).1 ∧
      ∀ r : Roster, ({ s with roster := r }.handleOutcome o).discovery = after.discovery) ∧
    ∀ calls : Roster.History, calls.live.roster = calls.roster ∧
      calls.live.transcript = calls.transcript.filter fun e => !e.isStale := by
  intro s
  refine ⟨not_live_of_isReplaced hq, fun hj hk => isReplaced_of_not_live hj hk hq, fun hnone => ?_,
    fun calls => ⟨calls.roster_live, calls.transcript_live⟩⟩
  intro after
  have hafter : after = { s with discovery := (s.discovery.settle o).1 } :=
    handleOutcome_of_not_live (running_of_get?_pending hq) hq hnone
  refine ⟨by rw [hafter], by rw [hafter], by rw [hafter], by rw [hafter], fun r => ?_⟩
  rw [discovery_handleOutcome]
  exact (discovery_handleOutcome s o).symm

/-- The laptop's second query is for the update that was replaced; its reply is still worth a confirmation. -/
theorem teaches_bundles_only_of_replacedQueries :
    let s := replacedQueries.service 5 16
    let o : Outcome := ⟨⟨2⟩, .ok Sample.videoExtensionReply⟩
    let video := CapabilitySignature.ofExtension Sample.clientNode "video"
    replacedQueries.IsReplaced 5 16 o.id ∧ s.discovery.pending.get? o.id = some (.ofJob Sample.laptop ⟨0⟩ video) ∧
    (s.handleOutcome o).roster = s.roster ∧
    (∀ r : Roster, ({ s with roster := r }.handleOutcome o).discovery = (s.handleOutcome o).discovery) ∧
    ((s.handleOutcome o).bundles.get? video).map (·.confirmations) = some 1 := by
  intro s o video
  have hreplaced : replacedQueries.IsReplaced 5 16 o.id := ⟨_, _, rfl, rfl, by decide⟩
  have hq : s.discovery.pending.get? o.id = some (.ofJob Sample.laptop ⟨0⟩ video) := by decide
  obtain ⟨hnone, -, hafter, -⟩ := superseded_update_teaches_bundles_only 5 16 replacedQueries o _ hq
  obtain ⟨hroster, -, -, -, hany⟩ := hafter (hnone hreplaced)
  exact ⟨hreplaced, hq, hroster, hany, by decide⟩

end History
end Service
end PresenceCaps
