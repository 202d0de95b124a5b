import PresenceCaps.Proofs.Discovery.Pending
import PresenceCaps.Proofs.Roster.Steps
import PresenceCaps.Proofs.Service.History

/-! What every event does to the roster and to the queries in flight. -/
namespace PresenceCaps

namespace Roster
variable (r : Roster) (bs : Bundles) (u : PresenceUpdate)

theorem bundles_start : (r.start bs u).bundles = u.signatures.foldl Bundles.touch bs := by
  obtain ⟨hu, -, hs⟩ | ⟨-, -, hs⟩ | ⟨-, -, hs⟩ := r.start_cases bs u
  · have hsig : u.signatures = [] := by simp [PresenceUpdate.signatures, hu]
    rw [hs, hsig]
    rfl
  · rw [hs]
  · rw [hs]

theorem queries_start : (r.start bs u).queries = u.untrusted bs := by
  obtain ⟨-, hq, hs⟩ | ⟨-, hq, hs⟩ | ⟨-, -, hs⟩ := r.start_cases bs u
  · rw [hs, hq]
  · rw [hs, hq]
  · rw [hs]

theorem job_start : (r.start bs u).job = if u.untrusted bs = [] then none else some ⟨r.nextJob⟩ := by
  obtain ⟨-, hq, hs⟩ | ⟨-, hq, hs⟩ | ⟨-, hq, hs⟩ := r.start_cases bs u
  · rw [hs, if_pos hq]
  · rw [hs, if_pos hq]
  · rw [hs, if_neg hq]

end Roster

namespace Service
variable {σ : Type} (s : Service σ)

/-- The queries that an update issues, one for each bundle that is not trusted. -/
def scheduled (u : PresenceUpdate) : Discovery × List QueryId :=
  Discovery.issueAll { s.discovery with bundles := u.signatures.foldl Bundles.touch s.bundles } u.sender
    ⟨s.roster.nextJob⟩ (u.untrusted s.bundles)

/-- The match on the new job makes no difference: without a job there is nothing to ask for. -/
theorem scheduled_eq (u : PresenceUpdate) :
    (match (s.roster.start s.bundles u).job with
      | none => ({ s.discovery with bundles := (s.roster.start s.bundles u).bundles }, [])
      | some job => Discovery.issueAll { s.discovery with bundles := (s.roster.start s.bundles u).bundles }
          u.sender job (s.roster.start s.bundles u).queries) = s.scheduled u := by
  rw [Roster.job_start, Roster.bundles_start, Roster.queries_start, scheduled]
  by_cases hq : u.untrusted s.bundles = []
  · rw [if_pos hq, hq]
    rfl
  · rw [if_neg hq]

variable [Sink σ]

/-- Publishing is seen by the notifier only. -/
theorem publish?_eq (c : Option ContactChange) : s.publish? c = { s with notifier := (s.publish? c).notifier } := by
  cases c with
  | none => rfl
  | some c =>
    rw [publish?, publish]
    split <;> rfl

@[simp] theorem roster_publish? (c : Option ContactChange) : (s.publish? c).roster = s.roster := by
  rw [publish?_eq]

@[simp] theorem discovery_publish? (c : Option ContactChange) : (s.publish? c).discovery = s.discovery := by
  rw [publish?_eq]

@[simp] theorem running_publish? (c : Option ContactChange) : (s.publish? c).running = s.running := by
  rw [publish?_eq]

/-- A presence update is refused, or it starts its job and issues its queries. -/
theorem handlePresence_cases (u : PresenceUpdate) :
    (∃ e, s.handlePresence u = .error e) ∨
    s.running = true ∧ ∃ handles x, s.handles.ensure u.sender.bare = .ok (handles, x) ∧
      s.handlePresence u = .ok
        { service := { s with
            handles
            roster := (s.roster.start s.bundles u).roster
            discovery := (s.scheduled u).1 }.publish? (s.roster.start s.bundles u).change
          receipt := ⟨x, (s.roster.start s.bundles u).job, u.untrusted s.bundles⟩
          issued := (s.scheduled u).2 } := by
  cases hr : s.running with
  | false =>
    refine Or.inl ⟨.closed, ?_⟩
    rw [handlePresence, request, hr]
    rfl
  | true =>
    rw [handlePresence, request, hr, if_pos rfl]
    cases he : s.handles.ensure u.sender.bare with
    | error e => exact Or.inl ⟨e, rfl⟩
    | ok p =>
      -- the contact has its handle now, whether it is a new one or not
      refine Or.inr ⟨rfl, p.1, p.2, rfl, ?_⟩
      rw [← s.scheduled_eq u, ← Roster.queries_start]
      rfl

/-- A contact gets at most a handle. -/
theorem step_contact_cases (a : BareAddress) :
    s.step (.contact a) = s ∨ ∃ handles, s.step (.contact a) = { s with handles } := by
  rw [step, ensureContact, request]
  cases s.running with
  | false => exact Or.inl rfl
  | true =>
    cases s.handles.ensure a with
    | error e => exact Or.inl rfl
    | ok p => exact Or.inr ⟨p.1, rfl⟩

/-- A shutdown cancels the queries; after it there is nothing left to end. -/
theorem step_shutdown_cases :
    s.running = false ∧ s.step .shutdown = s ∨
    s.running = true ∧ s.step .shutdown = { s with running := false, discovery := s.discovery.cancelAll } := by
  rw [step, shutdown, request]
  cases s.running with
  | false => exact Or.inl ⟨rfl, rfl⟩
  | true => exact Or.inr ⟨rfl, rfl⟩

variable {s}

theorem handleOutcome_of_settle_none {o : Outcome} (hr : s.running = true) (h : (s.discovery.settle o).2 = none) :
    s.handleOutcome o = { s with discovery := (s.discovery.settle o).1 } := by
  rw [handleOutcome, if_pos hr]
  simp only [h]

theorem handleOutcome_of_settle_some {o : Outcome} {x : Resolution} (hr : s.running = true)
    (h : (s.discovery.settle o).2 = some x) : s.handleOutcome o =
      { s with
        discovery := (s.discovery.settle o).1
        roster := (s.roster.step (.resolve x)).1 }.publish? (s.roster.step (.resolve x)).2 := by
  rw [handleOutcome, if_pos hr]
  simp only [h]
  rfl

/-- What an outcome does: nothing after the end, and little if it resolves nothing. -/
theorem handleOutcome_cases (s : Service σ) (o : Outcome) :
    (s.running = false ∧ s.handleOutcome o = s) ∨
    (s.running = true ∧ (s.discovery.settle o).2 = none ∧
      s.handleOutcome o = { s with discovery := (s.discovery.settle o).1 }) ∨
    (s.running = true ∧ ∃ x, (s.discovery.settle o).2 = some x ∧ s.handleOutcome o =
      { s with
        discovery := (s.discovery.settle o).1
        roster := (s.roster.step (.resolve x)).1 }.publish? (s.roster.step (.resolve x)).2) := by
  rcases Bool.eq_false_or_eq_true s.running with hr | hr
  · cases hs : (s.discovery.settle o).2 with
    | none => exact Or.inr (Or.inl ⟨hr, rfl, handleOutcome_of_settle_none hr hs⟩)
    | some x => exact Or.inr (Or.inr ⟨hr, x, rfl, handleOutcome_of_settle_some hr hs⟩)
  · exact Or.inl ⟨hr, by rw [handleOutcome, hr, if_neg Bool.false_ne_true]⟩

/-- The service's roster makes the calls that the events tell it to make. -/
theorem roster_step (s : Service σ) (e : Event σ) :
    (s.step e).roster = match s.rosterCall? e with
      | none => s.roster
      | some c => (s.roster.step c).1 := by
  cases e with
  | presence u =>
    obtain ⟨e, he⟩ | ⟨-, handles, x, -, he⟩ := s.handlePresence_cases u
    · simp only [step, rosterCall?, he]
      rfl
    · simp only [step, rosterCall?, he, roster_publish?]
      rfl
  | outcome o =>
    rw [step, rosterCall?]
    obtain ⟨hr, h⟩ | ⟨hr, hs, h⟩ | ⟨hr, x, hs, h⟩ := s.handleOutcome_cases o
    · rw [h, hr]
      rfl
    · rw [h, hr, hs]
      rfl
    · rw [h, hr, hs, roster_publish?]
      rfl
  | contact a =>
    obtain h | ⟨handles, h⟩ := s.step_contact_cases a <;> rw [h] <;> rfl
  | bundle c => rfl
  | listening l => rfl
  | shutdown =>
    obtain ⟨-, h⟩ | ⟨-, h⟩ := s.step_shutdown_cases <;> rw [h] <;> rfl

/-- Only a shutdown stops the service, and nothing starts it again. -/
theorem running_step (s : Service σ) (e : Event σ) : (s.step e).running =
    match e with
      | .shutdown => false
      | _ => s.running := by
  cases e with
  | presence u =>
    obtain ⟨e, he⟩ | ⟨-, handles, x, -, he⟩ := s.handlePresence_cases u
    · simp only [step, he]
    · simp only [step, he, running_publish?]
  | outcome o =>
    rw [step]
    obtain ⟨-, h⟩ | ⟨-, -, h⟩ | ⟨-, x, -, h⟩ := s.handleOutcome_cases o
    · rw [h]
    · rw [h]
    · rw [h, running_publish?]
  | contact a =>
    obtain h | ⟨handles, h⟩ := s.step_contact_cases a <;> rw [h]
  | bundle c => rfl
  | listening l => rfl
  | shutdown =>
    obtain ⟨hr, h⟩ | ⟨-, h⟩ := s.step_shutdown_cases
    · rw [h, hr]
    · rw [h]

theorem running_of_step {e : Event σ} (h : (s.step e).running = true) : s.running = true := by
  rw [running_step] at h
  split at h
  · exact absurd h Bool.false_ne_true
  · exact h

theorem roster_service (required : UInt32) (capacity : Nat) (h : History σ) :
    (h.service required capacity).roster = (h.rosterCalls required capacity).roster := by
  induction h with
  | nil => rfl
  | cons e h ih =>
    rw [History.service, roster_step, History.rosterCalls, ih]
    cases (History.service required capacity h).rosterCall? e <;> rfl

end Service
end PresenceCaps
