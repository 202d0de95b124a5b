import PresenceCaps.Proofs.Roster.Completion
import PresenceCaps.Proofs.Service.Superseded
import PresenceCaps.Proofs.Trust.Standing

/-!
Queries that fail. Be there no answer, a refusal or the answer for another node, the update that asked does without the
bundle, and of the bundle it is known what was known before.
-/
namespace PresenceCaps
variable {σ : Type} [Sink σ]

/-- An outcome that fails the query of a node. -/
inductive Outcome.Fails (o : Outcome) (node : String) : Prop where
  | error {e : CapsError} (h : o.result = .error e)
  | otherNode {reply : DiscoInfo} {n : String} (h : o.result = .ok reply) (hn : reply.node = some n) (hne : n ≠ node)

/-- The resolution of a query's bundle with no features. -/
def Query.failed (q : Query) : Resolution := ⟨q.job, q.signature, .empty⟩

theorem Outcome.Fails.exists_error {o : Outcome} {node : String} (h : o.Fails node) :
    ∃ e, o.result.bind (acceptReply node) = .error e := by
  cases h with
  | @error e h => exact ⟨e, by rw [h]; rfl⟩
  | @otherNode reply n h hn hne =>
    have hrefused : ∃ e, acceptReply node reply = .error e := by
      rw [acceptReply, hn]
      exact ⟨_, if_neg hne⟩
    rw [h]
    exact hrefused

theorem Discovery.settle_of_fails {d : Discovery} {o : Outcome} {q : Query} (hq : d.pending.get? o.id = some q)
    (hf : o.Fails q.node) : d.settle o =
      ({ d with bundles := d.bundles.detach q.signature o.id, pending := d.pending.erase o.id }, some q.failed) := by
  obtain ⟨e, he⟩ := hf.exists_error
  simp only [settle, hq, he]
  rfl

namespace Service
variable {s : Service σ} {o : Outcome} {q : Query}

/-- A service that has lost a query and is none the wiser: its roster is told that the bundle has no features, and what
comes of that is published. -/
structure Drops (s : Service σ) (id : QueryId) (q : Query) (after : Service σ) : Prop where
  bundle : ∀ t, after.bundles.get? t = (s.bundles.get? t).map fun e =>
    if t = q.signature then { e with waiting := e.waiting.filter (· ≠ id) } else e
  required : after.bundles.required = s.bundles.required
  pending : after.discovery.pending = s.discovery.pending.erase id
  nextId : after.discovery.nextId = s.discovery.nextId
  running : after.running = s.running
  handles : after.handles = s.handles
  roster : after.roster = (s.roster.step (.resolve q.failed)).1
  notifier : after.notifier = (s.publish? (s.roster.step (.resolve q.failed)).2).notifier

/-- A change is published under the handle of its contact, in which queries and rosters have no part. -/
theorem notifier_publish?_with (s : Service σ) (d : Discovery) (r : Roster) (c : Option ContactChange) :
    ({ s with discovery := d, roster := r }.publish? c).notifier = (s.publish? c).notifier := by
  cases c with
  | none => rfl
  | some c =>
    rw [publish?, publish?, publish, publish]
    cases s.handles.handle? c.contact <;> rfl

theorem drops_of_fails (hr : s.running = true) (hq : s.discovery.pending.get? o.id = some q) (hf : o.Fails q.node) :
    s.Drops o.id q (s.handleOutcome o) := by
  have hsettle := Discovery.settle_of_fails hq hf
  have hafter := handleOutcome_of_settle_some hr (congrArg Prod.snd hsettle)
  rw [hsettle] at hafter
  have hdiscovery : (s.handleOutcome o).discovery =
      { s.discovery with
        bundles := s.bundles.detach q.signature o.id
        pending := s.discovery.pending.erase o.id } := by
    rw [hafter, discovery_publish?]
    rfl
  refine ⟨fun t => ?_, ?_, ?_, ?_, ?_, ?_, ?_, ?_⟩
  · rw [bundles, hdiscovery, Bundles.get?_detach]
    by_cases ht : q.signature = t
    · rw [if_pos ht]
      simp only [ht, if_true]
    · rw [if_neg ht]
      simp only [Ne.symm ht, if_false, Option.map_id']
  · rw [bundles, hdiscovery]
    rfl
  · rw [hdiscovery]
  · rw [hdiscovery]
  · rw [hafter, running_publish?]
  · rw [hafter, publish?_eq]
  · rw [hafter, roster_publish?]
  · rw [hafter]
    exact s.notifier_publish?_with _ _ _

theorem Drops.standing {after : Service σ} {id : QueryId} (h : s.Drops id q after) (t : CapabilitySignature) :
    (after.bundles.get? t).map Bundle.standing = (s.bundles.get? t).map Bundle.standing := by
  rw [h.bundle, Option.map_map]
  apply congrArg (Option.map · _)
  funext e
  rw [Function.comp]
  split <;> rfl

/-- Outcomes each of which fails its query, if that is still in flight when it comes. -/
inductive AllFail : Service σ → List Outcome → Prop where
  | nil {s : Service σ} : AllFail s []
  | cons {s : Service σ} {o : Outcome} {os : List Outcome}
    (first : ∀ q, s.discovery.pending.get? o.id = some q → o.Fails q.node) (rest : AllFail (s.handleOutcome o) os) :
    AllFail s (o :: os)

theorem standing_handleOutcome (hf : ∀ q, s.discovery.pending.get? o.id = some q → o.Fails q.node)
    (t : CapabilitySignature) :
    ((s.handleOutcome o).bundles.get? t).map Bundle.standing = (s.bundles.get? t).map Bundle.standing := by
  cases hr : s.running with
  | false => rw [handleOutcome, hr, if_neg Bool.false_ne_true]
  | true =>
    cases hq : s.discovery.pending.get? o.id with
    | none =>
      rw [bundles, discovery_handleOutcome, hr, if_pos rfl, Discovery.settle_of_get?_eq_none hq]
      rfl
    | some q => exact (drops_of_fails hr hq (hf q hq)).standing t

/-- Failures teach nothing, however many there are. -/
theorem AllFail.standing {os : List Outcome} (h : s.AllFail os) (t : CapabilitySignature) :
    ((os.foldl handleOutcome s).bundles.get? t).map Bundle.standing = (s.bundles.get? t).map Bundle.standing := by
  induction h with
  | nil => rfl
  | cons first _ ih => exact ih.trans (standing_handleOutcome first t)

namespace History
variable {required : UInt32} {capacity : Nat} {h : History σ}

theorem rosterCalls_of_fails (hq : (h.service required capacity).discovery.pending.get? o.id = some q)
    (hf : o.Fails q.node) :
    rosterCalls required capacity (.outcome o :: h) = .resolve q.failed :: h.rosterCalls required capacity := by
  have hcall : (h.service required capacity).rosterCall? (.outcome o) = some (.resolve q.failed) := by
    rw [rosterCall?, running_of_get?_pending hq, Discovery.settle_of_fails hq hf]
    rfl
  rw [rosterCalls, hcall]
  rfl

/-- The update that a live job stands for, when a query for one of its bundles has failed: it waits for the others
still, or there is none and it is completed with that. -/
theorem exists_update_of_failed (hq : (h.service required capacity).discovery.pending.get? o.id = some q)
    (hf : o.Fails q.node) {job : Job} (hj : (h.service required capacity).roster.jobs.get? q.job = some job)
    (hs : q.signature ∈ job.unresolved) :
    let calls := h.rosterCalls required capacity
    let others := job.unresolved.filter (· ≠ q.signature)
    ∃ x, calls.begun? q.job = some x ∧ job = x.toJob ∧ calls.CompletesWithout x q.signature ∧
      if others = [] then ∃ y, calls.completion? (.resolve q.failed) = some y ∧ y.position = x.position
      else ((h.service required capacity).handleOutcome o).roster.jobs.get? q.job =
        some { job with unresolved := others } := by
  intro calls others
  have hdrops := drops_of_fails (running_of_get?_pending hq) hq hf
  have hroster : (h.service required capacity).roster = calls.roster := roster_service required capacity h
  rw [hroster] at hj
  obtain ⟨x, hx, rfl⟩ := Roster.History.exists_toJob_eq hj
  have hjob : x.job = q.job := Roster.History.job_of_begun?_eq_some hx
  refine ⟨x, hx, rfl, Roster.History.completesWithout (hjob ▸ hx) (hjob ▸ hj) hs, ?_⟩
  split
  · rename_i hlast
    obtain ⟨y, hy, -, -, hc⟩ := Roster.History.completion?_of_last (r := q.failed) hj hs hlast
    obtain rfl := Option.some.inj (hy.symm.trans hx)
    exact ⟨_, hc, rfl⟩
  · rename_i hmore
    have hget : calls.roster.jobs.get? q.failed.job = some x.toJob := hj
    rw [hdrops.roster, hroster, Roster.step]
    obtain ⟨hno, -⟩ | ⟨job, hlive, -, ⟨-, he⟩ | ⟨hlast, -⟩⟩ := calls.roster.resolve_cases q.failed
    · exact absurd hs (hno _ hget)
    · obtain rfl := Option.some.inj (hlive.symm.trans hget)
      have hbits : x.toJob.bits.union q.failed.features.capabilities = x.toJob.bits := Capabilities.union_none _
      rw [he, Assoc.get?_set, if_pos (show q.failed.job = q.job from rfl), hbits]
      rfl
    · obtain rfl := Option.some.inj (hlive.symm.trans hget)
      exact absurd hlast hmore

/-- A query that fails, be it with an error of any kind or with a reply that names another node than the one asked for,
is neutral. Nothing becomes of the bundles but that the query is no longer among those that wait for its own; the query
is in flight no more; and the roster, and what is published, are what they are when the bundle is resolved with no
features. A live job that waits for the bundle goes on without: it waits for the others from then on, or is completed
with that, and what its update grants in the end are the capabilities of its other bundles. As long as no number was
given out twice, every live job waits for the bundle of a query of its own that is in flight. However many queries fail,
and in whatever order, all bundles are known for what they were known for before. -/
theorem failed_query_is_neutral (required : UInt32) (capacity : Nat) (h : History σ) (o : Outcome) (q : Query)
    (hq : (h.service required capacity).discovery.pending.get? o.id = some q) (hf : o.Fails q.node) :
    let s := h.service required capacity
    let after := s.handleOutcome o
    let calls := h.rosterCalls required capacity
    q.node = q.signature.queryNode ∧ s.Drops o.id q after ∧
    rosterCalls required capacity (.outcome o :: h) = .resolve q.failed :: calls ∧
    (∀ job, s.roster.jobs.get? q.job = some job → q.signature ∈ job.unresolved →
      let others := job.unresolved.filter (· ≠ q.signature)
      ∃ x, calls.begun? q.job = some x ∧ job = x.toJob ∧ calls.CompletesWithout x q.signature ∧
        if others = [] then ∃ y, calls.completion? (.resolve q.failed) = some y ∧ y.position = x.position
        else after.roster.jobs.get? q.job = some { job with unresolved := others }) ∧
    (h.jobCount required capacity < 2 ^ 64 → h.queryCount required capacity < 2 ^ 64 →
      ∀ job, s.roster.jobs.get? q.job = some job → q.signature ∈ job.unresolved) ∧
    ∀ os, s.AllFail os → ∀ t, ((os.foldl handleOutcome s).bundles.get? t).map Bundle.standing =
      (s.bundles.get? t).map Bundle.standing := by
  intro s after calls
  have hrun : s.running = true := running_of_get?_pending hq
  refine ⟨?_, drops_of_fails hrun hq hf, rosterCalls_of_fails hq hf,
    fun job hj hs => exists_update_of_failed hq hf hj hs, fun hj hk job hjob => ?_, fun os hos t => hos.standing t⟩
  · obtain ⟨-, x, -, -, -, heq⟩ := (traced required capacity h).query hq
    rw [heq]
    rfl
  · exact (attended hrun hj hk).mem_unresolved (Assoc.mem_of_get?_eq_some hq) hjob

/-- The laptop's first query is answered, and so is its second one, but for the node of the first. -/
theorem neutral_of_misnamedReply :
    let base := (Sample.advertisement "0.1").baseSignature
    let video := CapabilitySignature.ofExtension Sample.clientNode "video"
    let h : History SinkKind := [.outcome ⟨⟨1⟩, .ok Sample.audioReply⟩,
      .presence (Sample.available Sample.laptop { Sample.advertisement "0.1" with ext := ["video"] })]
    let s := h.service 1 16
    let o : Outcome := ⟨⟨2⟩, .ok { Sample.videoExtensionReply with node := some base.queryNode }⟩
    let late : Outcome := ⟨⟨2⟩, .ok Sample.videoExtensionReply⟩
    let q : Query := .ofJob Sample.laptop ⟨0⟩ video
    let after := s.handleOutcome o
    s.discovery.pending.get? o.id = some q ∧ o.Fails q.node ∧
    (s.bundles.get? video).map (·.waiting) = some [⟨2⟩] ∧ (after.bundles.get? video).map (·.waiting) = some [] ∧
    after.discovery.pending = [] ∧
    after.roster.published Sample.bob = Capabilities.baseline.union Sample.audioReply.featureSet.capabilities ∧
    (∃ x y, (h.rosterCalls 1 16).begun? q.job = some x ∧
      (h.rosterCalls 1 16).completion? (.resolve q.failed) = some y ∧ y.position = x.position) ∧
    (([o, late].foldl handleOutcome s).bundles.get? video).map Bundle.standing = some .new := by
  intro base video h s o late q after
  have hq : s.discovery.pending.get? o.id = some q := by decide
  have hf : o.Fails q.node := .otherNode rfl rfl (by decide)
  obtain ⟨-, hdrops, -, hlive, hwaits, hany⟩ := failed_query_is_neutral 1 16 h o q hq hf
  refine ⟨hq, hf, by decide, ?_, ?_, ?_, ?_, ?_⟩
  · rw [hdrops.bundle]
    decide
  · rw [hdrops.pending]
    decide
  · rw [hdrops.roster]
    decide
  · have hjob : s.roster.jobs.get? q.job =
        some ⟨Sample.laptop, [video], Sample.audioReply.featureSet.capabilities⟩ := by decide
    obtain ⟨x, hx, -, -, hdone⟩ := hlive _ hjob (hwaits (by decide) (by decide) _ hjob)
    rw [if_pos (by decide)] at hdone
    obtain ⟨y, hy, hp⟩ := hdone
    exact ⟨x, y, hx, hy, hp⟩
  · -- by the time that the right reply comes there is no query left that it could be for
    have hnone : after.discovery.pending.get? late.id = none := by
      rw [hdrops.pending]
      decide
    have hfirst (r : Query) (hr : s.discovery.pending.get? o.id = some r) : o.Fails r.node := by
      obtain rfl := Option.some.inj (hr.symm.trans hq)
      exact hf
    have hsecond (r : Query) (hr : after.discovery.pending.get? late.id = some r) : late.Fails r.node :=
      absurd (hr.symm.trans hnone) (by simp)
    rw [hany [o, late] (.cons hfirst (.cons hsecond .nil))]
    decide

end History
end Service
end PresenceCaps
