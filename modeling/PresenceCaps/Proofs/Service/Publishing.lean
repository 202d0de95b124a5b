import PresenceCaps.Proofs.Handles.Bijection
import PresenceCaps.Proofs.Roster.Changes
import PresenceCaps.Proofs.Service.Steps

/-! What the service publishes: every change that its roster reports, each of a contact that has a handle by then. -/
namespace PresenceCaps
variable {σ : Type} [Sink σ]

namespace Roster
variable {r : Roster} {call : Call} {c : ContactChange}

theorem contact_of_publish {a : BareAddress} (hc : (r.publish a).2 = some c) : c.contact = a := by
  have hchange : r.change? a = some c := hc
  simp only [change?] at hchange
  split at hchange
  · exact absurd hchange (by simp)
  · rw [← Option.some.inj hchange]

/-- A change is one of the contact whose update came, or whose job ended. -/
theorem contact_of_change (hc : (r.step call).2 = some c) :
    match call with
    | .start _ u => c.contact = u.sender.bare
    | .resolve x => ∃ job, r.jobs.get? x.job = some job ∧ c.contact = job.resource.bare := by
  cases call with
  | start b u =>
    rw [step] at hc
    obtain ⟨-, -, hs⟩ | ⟨-, -, hs⟩ | ⟨-, -, hs⟩ := r.start_cases b u
    · rw [hs] at hc
      exact contact_of_publish hc
    · rw [hs] at hc
      exact contact_of_publish hc
    · rw [hs] at hc
      exact absurd hc (by simp)
  | resolve x =>
    rw [step] at hc
    obtain ⟨-, hs⟩ | ⟨job, hj, -, ⟨-, hs⟩ | ⟨-, hs⟩⟩ := r.resolve_cases x
    · rw [hs] at hc
      exact absurd hc (by simp)
    · rw [hs] at hc
      exact absurd hc (by simp)
    · rw [hs] at hc
      exact ⟨job, hj, contact_of_publish hc⟩

/-- A job after a call is one of the sender, or has the resource of a job before. -/
theorem resource_of_jobs_step {j : JobId} {job : Job} (hj : (r.step call).1.jobs.get? j = some job) :
    call.sender? = some job.resource ∨ ∃ old, r.jobs.get? j = some old ∧ old.resource = job.resource := by
  cases call with
  | start b u =>
    rw [step, jobs_start] at hj
    split at hj
    · rw [← Option.some.inj hj]
      exact Or.inl rfl
    · rw [jobs_supersede] at hj
      split at hj
      · exact absurd hj (by simp)
      · exact Or.inr ⟨job, hj, rfl⟩
  | resolve x =>
    obtain ⟨old, hold, hres, -⟩ := r.jobs_resolve_eq_some x hj
    exact Or.inr ⟨old, hold, hres.symm⟩

end Roster

namespace Service

/-- The change that the roster reports at an event. -/
def reported? (s : Service σ) (e : Event σ) : Option ContactChange :=
  (s.rosterCall? e).bind fun c => (s.roster.step c).2

/-- A notifier after a change, if there is one and its contact has a handle. -/
def announce (n : Notifier σ) (handles : Handles) (c : Option ContactChange) : Notifier σ :=
  match c with
  | none => n
  | some c =>
    match handles.handle? c.contact with
    | none => n
    | some x => (n.publish x c.contact c.old c.new).1

variable {s : Service σ} {e : Event σ}

theorem notifier_publish? (s : Service σ) (c : Option ContactChange) :
    (s.publish? c).notifier = announce s.notifier s.handles c := by
  cases c with
  | none => rfl
  | some c =>
    rw [publish?, publish, announce]
    split <;> simp_all

theorem handles_publish? (s : Service σ) (c : Option ContactChange) : (s.publish? c).handles = s.handles := by
  rw [publish?_eq]

/-- What is done to the notifier from outside is done; else what the roster reports is announced. -/
theorem notifier_step (s : Service σ) (e : Event σ) :
    (∃ l, e = .listening l ∧ (s.step e).notifier = s.notifier.listen l) ∨
    (s.step e).notifier = announce s.notifier (s.step e).handles (s.reported? e) := by
  cases e with
  | listening l => exact Or.inl ⟨l, rfl, rfl⟩
  | presence u =>
    right
    obtain ⟨e, he⟩ | ⟨-, handles, x, -, he⟩ := s.handlePresence_cases u
    · simp only [step, reported?, rosterCall?, he]
      rfl
    · simp only [step, reported?, rosterCall?, he, notifier_publish?, handles_publish?]
      rfl
  | outcome o =>
    right
    rw [step, reported?, rosterCall?]
    obtain ⟨hr, h⟩ | ⟨hr, hs, h⟩ | ⟨hr, x, hs, h⟩ := s.handleOutcome_cases o
    · rw [h, hr]
      rfl
    · rw [h, hr, hs]
      rfl
    · rw [h, hr, hs, notifier_publish?, handles_publish?]
      rfl
  | contact a =>
    right
    obtain h | ⟨handles, h⟩ := s.step_contact_cases a <;> rw [h] <;> rfl
  | bundle c => exact Or.inr rfl
  | shutdown =>
    right
    obtain ⟨-, h⟩ | ⟨-, h⟩ := s.step_shutdown_cases <;> rw [h] <;> rfl

/-- The contact that an event names, if the service takes notice. -/
def named? (s : Service σ) : Event σ → Option BareAddress
  | .presence u => if (s.handlePresence u).isOk then some u.sender.bare else none
  | .contact a => if (s.ensureContact a).isOk then some a else none
  | _ => none

/-- Handles change only so that a contact which is named has one. -/
theorem handles_step (s : Service σ) (e : Event σ) :
    s.named? e = none ∧ (s.step e).handles = s.handles ∨
    ∃ a x, s.named? e = some a ∧ s.handles.ensure a = .ok ((s.step e).handles, x) := by
  cases e with
  | presence u =>
    obtain ⟨e, he⟩ | ⟨-, handles, x, hens, he⟩ := s.handlePresence_cases u
    · refine Or.inl ⟨?_, ?_⟩
      · rw [named?, he]
        rfl
      · rw [step, he]
    · refine Or.inr ⟨u.sender.bare, x, ?_, ?_⟩
      · rw [named?, he]
        rfl
      · rw [step, he, handles_publish?]
        exact hens
  | outcome o =>
    refine Or.inl ⟨rfl, ?_⟩
    rw [step]
    obtain ⟨-, h⟩ | ⟨-, -, h⟩ | ⟨-, x, -, h⟩ := s.handleOutcome_cases o
    · rw [h]
    · rw [h]
    · rw [h, handles_publish?]
  | contact a =>
    rw [named?, step]
    cases he : s.ensureContact a with
    | error e => exact Or.inl ⟨rfl, rfl⟩
    | ok p =>
      rw [ensureContact, request] at he
      split at he
      · cases hens : s.handles.ensure a with
        | error e =>
          rw [hens] at he
          exact absurd he (by simp [bind, Except.bind])
        | ok q =>
          rw [hens] at he
          obtain rfl := Except.ok.inj he
          exact Or.inr ⟨a, q.2, rfl, hens⟩
      · exact absurd he (by simp)
  | bundle c => exact Or.inl ⟨rfl, rfl⟩
  | listening l => exact Or.inl ⟨rfl, rfl⟩
  | shutdown =>
    obtain ⟨-, h⟩ | ⟨-, h⟩ := s.step_shutdown_cases <;> exact Or.inl ⟨rfl, by rw [h]⟩

theorem sound_step (hs : s.handles.Sound) (e : Event σ) : (s.step e).handles.Sound := by
  obtain ⟨-, hsame⟩ | ⟨a, x, -, hens⟩ := s.handles_step e
  · rwa [hsame]
  · exact hs.ensure hens

theorem contact?_step (hs : s.handles.Sound) {x : ContactHandle} {a : BareAddress}
    (hx : s.handles.contact? x = some a) (e : Event σ) : (s.step e).handles.contact? x = some a := by
  obtain ⟨-, hsame⟩ | ⟨b, y, -, hens⟩ := s.handles_step e
  · rwa [hsame]
  · exact hs.contact?_ensure hens hx

/-- Everyone that a job waits for has a handle. -/
structure Named (s : Service σ) : Prop where
  sound : s.handles.Sound
  job : ∀ {j job}, s.roster.jobs.get? j = some job → ∃ x, s.handles.contact? x = some job.resource.bare

/-- The sender of an update that is taken has a handle from then on. -/
theorem exists_contact?_of_sender (hs : s.handles.Sound) {c : Roster.Call} (hc : s.rosterCall? e = some c)
    {a : FullAddress} (ha : c.sender? = some a) : ∃ x, (s.step e).handles.contact? x = some a.bare := by
  have hnamed : s.named? e = some a.bare := by
    cases e with
    | presence u =>
      rw [rosterCall?] at hc
      split at hc
      · rename_i hok
        rw [← Option.some.inj hc] at ha
        rw [named?, if_pos hok, ← Option.some.inj ha]
      · exact absurd hc (by simp)
    | outcome o =>
      rw [rosterCall?] at hc
      split at hc
      · obtain ⟨r, -, rfl⟩ := Option.map_eq_some_iff.1 hc
        exact absurd ha (by simp [Roster.Call.sender?])
      · exact absurd hc (by simp)
    | _ => exact absurd hc (by simp [rosterCall?])
  obtain ⟨hnone, -⟩ | ⟨b, x, hb, hens⟩ := s.handles_step e
  · rw [hnamed] at hnone
    exact absurd hnone (by simp)
  · obtain rfl := Option.some.inj (hnamed.symm.trans hb)
    exact ⟨x, (sound_step hs e).handle?_eq_some_iff.1 (Handles.handle?_ensure hens)⟩

namespace Named

theorem step (hn : s.Named) (e : Event σ) : (s.step e).Named where
  sound := sound_step hn.sound e
  job {j job} hj := by
    have hkeep {x : ContactHandle} {a : BareAddress} (hx : s.handles.contact? x = some a) :=
      contact?_step hn.sound hx e
    rw [roster_step] at hj
    cases hc : s.rosterCall? e with
    | none =>
      rw [hc] at hj
      obtain ⟨x, hx⟩ := hn.job hj
      exact ⟨x, hkeep hx⟩
    | some c =>
      rw [hc] at hj
      obtain hsender | ⟨old, hold, hres⟩ := Roster.resource_of_jobs_step hj
      · exact exists_contact?_of_sender hn.sound hc hsender
      · obtain ⟨x, hx⟩ := hn.job hold
        exact ⟨x, hres ▸ hkeep hx⟩

/-- No change is dropped for want of a handle. -/
theorem exists_handle? (hn : s.Named) {c : ContactChange} (hc : s.reported? e = some c) :
    ∃ x, (s.step e).handles.handle? c.contact = some x := by
  obtain ⟨call, hcall, hchange⟩ := Option.bind_eq_some_iff.1 hc
  have hcontact := Roster.contact_of_change hchange
  -- an update gives its sender a handle, and whoever a job waits for was given one before
  obtain ⟨x, hx⟩ : ∃ x, (s.step e).handles.contact? x = some c.contact := by
    cases call with
    | start b u =>
      have hsender : Roster.Call.sender? (.start b u) = some u.sender := rfl
      obtain ⟨x, hx⟩ := exists_contact?_of_sender hn.sound hcall hsender
      exact ⟨x, hx.trans (congrArg some hcontact.symm)⟩
    | resolve r =>
      obtain ⟨job, hj, heq⟩ := hcontact
      obtain ⟨x, hx⟩ := hn.job hj
      exact ⟨x, heq ▸ contact?_step hn.sound hx e⟩
  exact ⟨x, (sound_step hn.sound e).handle?_eq_some_iff.2 hx⟩

end Named

theorem History.named (required : UInt32) (capacity : Nat) (h : History σ) : (h.service required capacity).Named := by
  induction h with
  | nil => exact ⟨.empty, fun hj => absurd hj (by simp [service, start, Roster.empty])⟩
  | cons e h ih => exact ih.step e

end Service
end PresenceCaps
