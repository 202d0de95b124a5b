import PresenceCaps.Proofs.Roster.Coherence
import PresenceCaps.Proofs.Roster.Stale

/-!
Two resolutions that resolve different bundles, or belong to different jobs, can change places: they leave the same
roster behind. No bound on the number of jobs is needed, for identifiers that come round again end the jobs that had
them.
-/
namespace PresenceCaps

/-- A job after a resolution, whether it waits for the bundle or not. -/
def Job.resolve (job : Job) (x : Resolution) : Job :=
  if x.signature ∈ job.unresolved then
    ⟨job.resource, job.unresolved.filter (· ≠ x.signature), job.bits.union x.features.capabilities⟩
  else job

namespace Job
variable (job : Job) (x : Resolution)

theorem resolve_of_mem {job : Job} {x : Resolution} (h : x.signature ∈ job.unresolved) : job.resolve x =
    ⟨job.resource, job.unresolved.filter (· ≠ x.signature), job.bits.union x.features.capabilities⟩ := if_pos h

theorem resolve_of_not_mem {job : Job} {x : Resolution} (h : x.signature ∉ job.unresolved) : job.resolve x = job :=
  if_neg h

@[simp] theorem resource_resolve : (job.resolve x).resource = job.resource := by
  unfold resolve
  split <;> rfl

theorem unresolved_resolve : (job.resolve x).unresolved = job.unresolved.filter (· ≠ x.signature) := by
  by_cases h : x.signature ∈ job.unresolved
  · rw [resolve_of_mem h]
  · rw [resolve_of_not_mem h]
    symm
    apply List.filter_eq_self.2
    intro s hs
    have hne : s ≠ x.signature := fun he => h (he ▸ hs)
    simpa using hne

theorem resolve_comm {x y : Resolution} (hne : x.signature ≠ y.signature) :
    (job.resolve x).resolve y = (job.resolve y).resolve x := by
  have hx : x.signature ∈ (job.resolve y).unresolved ↔ x.signature ∈ job.unresolved := by
    simp [unresolved_resolve, hne]
  have hy : y.signature ∈ (job.resolve x).unresolved ↔ y.signature ∈ job.unresolved := by
    simp [unresolved_resolve, Ne.symm hne]
  -- a bundle that the job does not wait for is ignored in either place
  by_cases hxm : x.signature ∈ job.unresolved
  · by_cases hym : y.signature ∈ job.unresolved
    · rw [resolve_of_mem (hx.2 hxm), resolve_of_mem (hy.2 hym), resolve_of_mem hxm, resolve_of_mem hym]
      have hlists : (job.unresolved.filter (· ≠ x.signature)).filter (· ≠ y.signature) =
          (job.unresolved.filter (· ≠ y.signature)).filter (· ≠ x.signature) := by
        rw [List.filter_filter, List.filter_filter]
        exact List.filter_congr fun s _ => Bool.and_comm ..
      have hbits : (job.bits.union x.features.capabilities).union y.features.capabilities =
          (job.bits.union y.features.capabilities).union x.features.capabilities := by
        rw [Capabilities.union_assoc, Capabilities.union_comm x.features.capabilities, Capabilities.union_assoc]
      rw [hlists, hbits]
    · rw [resolve_of_not_mem (mt hy.1 hym), resolve_of_not_mem hym]
  · rw [resolve_of_not_mem (mt hx.1 hxm), resolve_of_not_mem hxm]

end Job

theorem ContactState.assign_republish_comm (c : ContactState) {name other : String} (hne : name ≠ other)
    (b d : Capabilities) : ((c.assign name b).republish.assign other d).republish =
      ((c.assign other d).republish.assign name b).republish := by
  have hresources : ((c.assign name b).assign other d).resources = ((c.assign other d).assign name b).resources := by
    simp only [assign]
    exact Assoc.modify_comm c.resources hne _ _
  -- what was published in between is overwritten
  have hpublish (x : ContactState) (n : String) (e : Capabilities) :
      (x.republish.assign n e).republish = (x.assign n e).republish := rfl
  have hsame {x y : ContactState} (h : x.resources = y.resources) : x.republish = y.republish := by
    rw [republish, republish, effective, effective, h]
  rw [hpublish, hpublish]
  exact hsame hresources

/-- The contacts once a job is completed. -/
def Job.grant (job : Job) (m : Assoc BareAddress ContactState) : Assoc BareAddress ContactState :=
  m.set job.resource.bare
    (((m.get? job.resource.bare).getD .new).assign job.resource.resource job.bits).republish

/-- Jobs of different resources can be completed in either order, whether they are of one contact or of two. -/
theorem Job.grant_comm {job other : Job} (hne : job.resource ≠ other.resource)
    {m : Assoc BareAddress ContactState} (hm : (m.get? job.resource.bare).isSome) :
    other.grant (job.grant m) = job.grant (other.grant m) := by
  unfold grant
  by_cases hb : job.resource.bare = other.resource.bare
  · have hname : job.resource.resource ≠ other.resource.resource := by
      intro hn
      apply hne
      cases hj : job.resource
      cases ho : other.resource
      simp_all
    rw [hb, Assoc.set_set, Assoc.set_set, Assoc.get?_set, if_pos rfl, Assoc.get?_set, if_pos rfl]
    exact congrArg _ (ContactState.assign_republish_comm _ hname _ _)
  · rw [Assoc.get?_set, if_neg hb, Assoc.get?_set, if_neg (Ne.symm hb)]
    exact Assoc.set_comm hb hm _ _

namespace Roster
variable {r : Roster} {j k : JobId} {job other : Job} {x y : Resolution}

/-- Completing an update writes its contact and nothing else. -/
theorem complete_eq (r : Roster) (job : Job) :
    (r.complete job.resource job.bits).1 = { r with contacts := job.grant r.contacts } := by
  have hcontact : (r.updateContact job.resource.bare (·.assign job.resource.resource job.bits)).contact
      job.resource.bare = (r.contact job.resource.bare).assign job.resource.resource job.bits := by
    rw [contact_updateContact, if_pos rfl]
  rw [complete, publish, updateContact, hcontact, updateContact, Assoc.set_set]
  rfl

/-- Puts a job in its place, and completes it if it waits for nothing. -/
def putJob (r : Roster) (j : JobId) (job : Job) : Roster :=
  if job.unresolved = [] then
    { r with
      contacts := job.grant r.contacts
      jobs := r.jobs.erase j
      active := r.active.erase job.resource }
  else { r with jobs := r.jobs.set j job }

theorem putJob_of_eq_nil (h : job.unresolved = []) : r.putJob j job =
    { r with
      contacts := job.grant r.contacts
      jobs := r.jobs.erase j
      active := r.active.erase job.resource } := if_pos h

theorem putJob_of_ne_nil (h : job.unresolved ≠ []) : r.putJob j job = { r with jobs := r.jobs.set j job } := if_neg h

theorem jobs_putJob_self : (r.putJob j job).jobs.get? j = if job.unresolved = [] then none else some job := by
  unfold putJob
  split
  · rw [Assoc.get?_erase, if_pos rfl]
  · rw [Assoc.get?_set, if_pos rfl]

theorem jobs_putJob_of_ne (h : j ≠ k) : (r.putJob j job).jobs.get? k = r.jobs.get? k := by
  unfold putJob
  split
  · rw [Assoc.get?_erase, if_neg h]
  · rw [Assoc.get?_set, if_neg h]

/-- A job that still waits is overwritten without a trace. -/
theorem putJob_putJob (h : job.unresolved ≠ []) : (r.putJob j job).putJob j other = r.putJob j other := by
  rw [putJob_of_ne_nil h]
  by_cases ho : other.unresolved = []
  · rw [putJob_of_eq_nil ho, putJob_of_eq_nil ho, Assoc.erase_set_self]
  · rw [putJob_of_ne_nil ho, putJob_of_ne_nil ho, Assoc.set_set]

/-- Jobs of different resources can be put in either order. -/
theorem putJob_comm (hne : j ≠ k) (hres : job.resource ≠ other.resource) (hj : (r.jobs.get? j).isSome)
    (hc : (r.contacts.get? job.resource.bare).isSome) :
    (r.putJob j job).putJob k other = (r.putJob k other).putJob j job := by
  -- each of the two is completed, or goes on waiting
  by_cases hjob : job.unresolved = []
  · by_cases hother : other.unresolved = []
    · simp only [putJob_of_eq_nil hjob, putJob_of_eq_nil hother]
      rw [Job.grant_comm hres hc, Assoc.erase_comm r.jobs, Assoc.erase_comm r.active]
    · simp only [putJob_of_eq_nil hjob, putJob_of_ne_nil hother]
      rw [Assoc.erase_set_of_ne _ (Ne.symm hne)]
  · by_cases hother : other.unresolved = []
    · simp only [putJob_of_ne_nil hjob, putJob_of_eq_nil hother]
      rw [Assoc.erase_set_of_ne _ hne]
    · simp only [putJob_of_ne_nil hjob, putJob_of_ne_nil hother]
      rw [Assoc.set_comm hne hj]

/-- Every live job is the active one of its resource, waits for something, and is of a contact that is known. -/
structure Tidy (r : Roster) : Prop where
  active : ∀ {j job}, r.jobs.get? j = some job → r.active.get? job.resource = some j
  unresolved_ne_nil : ∀ {j job}, r.jobs.get? j = some job → job.unresolved ≠ []
  known : ∀ {j job}, r.jobs.get? j = some job → (r.contacts.get? job.resource.bare).isSome

theorem Tidy.resource_ne (hr : r.Tidy) (hj : r.jobs.get? j = some job) (hk : r.jobs.get? k = some other)
    (hne : j ≠ k) : job.resource ≠ other.resource := by
  intro he
  have hja := hr.active hj
  rw [he, hr.active hk] at hja
  exact hne (Option.some.inj hja).symm

/-- A contact that is known stays so. -/
theorem isSome_contacts_step {c : BareAddress} (hc : (r.contacts.get? c).isSome) (call : Call) :
    ((r.step call).1.contacts.get? c).isSome := by
  have hset (m : Assoc BareAddress ContactState) (d : BareAddress) (v : ContactState)
      (hm : (m.get? c).isSome) : ((m.set d v).get? c).isSome := by
    rw [Assoc.get?_set]
    split
    · rfl
    · exact hm
  have hs (a : FullAddress) : ((r.supersede a).contacts.get? c).isSome := by
    unfold supersede
    split <;> exact hc
  cases call with
  | start bs u =>
    have hready : ((r.ready u).contacts.get? c).isSome := hset _ _ _ (hs u.sender)
    rw [step]
    obtain ⟨-, -, he⟩ | ⟨-, -, he⟩ | ⟨-, -, he⟩ := r.start_cases bs u <;> rw [he]
    · exact hset _ _ _ (hset _ _ _ (hs u.sender))
    · exact hset _ _ _ (hset _ _ _ hready)
    · exact hready
  | resolve x =>
    rw [step]
    obtain ⟨-, he⟩ | ⟨job, -, -, ⟨-, he⟩ | ⟨-, he⟩⟩ := r.resolve_cases x <;> rw [he]
    · exact hc
    · exact hc
    · exact hset _ _ _ (hset _ _ _ hc)

/-- The contact of an update that waits is known. -/
theorem isSome_contacts_start {bs : Bundles} {u : PresenceUpdate} (hq : u.untrusted bs ≠ []) :
    ((r.start bs u).roster.contacts.get? u.sender.bare).isSome := by
  obtain ⟨-, hn, -⟩ | ⟨-, hn, -⟩ | ⟨-, -, he⟩ := r.start_cases bs u
  · exact absurd hn hq
  · exact absurd hn hq
  · have hcontacts : (r.start bs u).roster.contacts = (r.ready u).contacts := by rw [he]; rfl
    rw [hcontacts, ready, updateContact, Assoc.get?_set, if_pos rfl, Option.isSome_some]

namespace Tidy

theorem of_start (hr : r.Tidy) (bs : Bundles) (u : PresenceUpdate) (hj : (r.start bs u).roster.jobs.get? j = some job) :
    job.unresolved ≠ [] ∧ ((r.start bs u).roster.contacts.get? job.resource.bare).isSome := by
  rw [jobs_start] at hj
  split at hj
  · rename_i hnew
    obtain rfl := Option.some.inj hj
    exact ⟨hnew.1, isSome_contacts_start hnew.1⟩
  · rw [jobs_supersede] at hj
    split at hj
    · exact absurd hj (by simp)
    · exact ⟨hr.unresolved_ne_nil hj, isSome_contacts_step (hr.known hj) (.start bs u)⟩

theorem of_resolve (hr : r.Tidy) (x : Resolution)
    (hj : (r.resolve x.job x.signature x.features).1.jobs.get? j = some job) : job.unresolved ≠ [] := by
  obtain ⟨-, he⟩ | ⟨old, -, -, ⟨hl, he⟩ | ⟨-, he⟩⟩ := r.resolve_cases x
  · rw [he] at hj
    exact hr.unresolved_ne_nil hj
  · rw [he, Assoc.get?_set] at hj
    split at hj
    · exact Option.some.inj hj ▸ hl
    · exact hr.unresolved_ne_nil hj
  · rw [he, jobs_complete, Assoc.get?_erase] at hj
    split at hj
    · exact absurd hj (by simp)
    · exact hr.unresolved_ne_nil hj

end Tidy

theorem History.tidy (h : History) : h.roster.Tidy := by
  induction h with
  | nil => constructor <;> simp [roster, Roster.empty]
  | cons c h ih =>
    refine ⟨active_of_jobs, ?_, ?_⟩
    · intro j job hj
      cases c with
      | start bs u => exact (ih.of_start bs u hj).1
      | resolve x => exact ih.of_resolve x hj
    · intro j job hj
      cases c with
      | start bs u => exact (ih.of_start bs u hj).2
      | resolve x =>
        -- a job keeps its resource, and so its contact
        obtain ⟨old, hold, hres, -⟩ := (roster h).jobs_resolve_eq_some x hj
        have hknown := ih.known hold
        rw [← hres] at hknown
        exact isSome_contacts_step hknown (.resolve x)

/-- A resolution for a live job puts the job in its place again. -/
theorem resolve_eq_putJob (hr : r.Tidy) (hj : r.jobs.get? x.job = some job) :
    (r.resolve x.job x.signature x.features).1 = r.putJob x.job (job.resolve x) := by
  obtain ⟨hno, he⟩ | ⟨old, hold, hs, hcase⟩ := r.resolve_cases x
  · have hstays : job.resolve x = job := Job.resolve_of_not_mem (hno job hj)
    rw [he, hstays, putJob_of_ne_nil (hr.unresolved_ne_nil hj), Assoc.set_of_get?_eq_some hj]
  · obtain rfl : job = old := Option.some.inj (hj.symm.trans hold)
    rw [Job.resolve_of_mem hs]
    obtain ⟨hl, he⟩ | ⟨hl, he⟩ := hcase
    · rw [he, putJob_of_ne_nil hl]
    · rw [he, putJob_of_eq_nil hl]
      exact complete_eq _ ⟨job.resource, job.unresolved.filter (· ≠ x.signature), job.bits.union x.features.capabilities⟩

namespace History
variable (h : History)

theorem roster_resolve_of_get?_eq_none (hj : h.roster.jobs.get? x.job = none) :
    roster (.resolve x :: h) = h.roster := by
  rw [roster, step, resolve_of_not_live hj]

theorem roster_resolve_of_get?_eq_some (hj : h.roster.jobs.get? x.job = some job) :
    roster (.resolve x :: h) = h.roster.putJob x.job (job.resolve x) :=
  resolve_eq_putJob h.tidy hj

/-- Two resolutions for one job act on it one after the other, also when the first one ends it. -/
theorem roster_resolve_resolve_of_job_eq (hjob : x.job = y.job) (hj : h.roster.jobs.get? x.job = some job) :
    roster (.resolve y :: .resolve x :: h) = h.roster.putJob x.job ((job.resolve x).resolve y) := by
  have hx := h.roster_resolve_of_get?_eq_some hj
  have hget : (roster (.resolve x :: h)).jobs.get? y.job =
      if (job.resolve x).unresolved = [] then none else some (job.resolve x) := by
    rw [hx, ← hjob, jobs_putJob_self]
  by_cases hdone : (job.resolve x).unresolved = []
  · have hnot : y.signature ∉ (job.resolve x).unresolved := by simp [hdone]
    rw [if_pos hdone] at hget
    rw [roster_resolve_of_get?_eq_none _ hget, hx, Job.resolve_of_not_mem hnot]
  · rw [if_neg hdone] at hget
    rw [roster_resolve_of_get?_eq_some _ hget, hx, ← hjob, putJob_putJob hdone]

/-- A resolution for another job leaves a job where it is. -/
theorem jobs_roster_resolve_of_ne (hne : x.job ≠ j) :
    (roster (.resolve x :: h)).jobs.get? j = h.roster.jobs.get? j := by
  cases hj : h.roster.jobs.get? x.job with
  | none => rw [roster_resolve_of_get?_eq_none _ hj]
  | some job => rw [roster_resolve_of_get?_eq_some _ hj, jobs_putJob_of_ne hne]

/-- Different resolutions can change places. -/
theorem roster_resolve_comm (hne : (x.job, x.signature) ≠ (y.job, y.signature)) :
    roster (.resolve y :: .resolve x :: h) = roster (.resolve x :: .resolve y :: h) := by
  by_cases hjob : x.job = y.job
  · have hsig : x.signature ≠ y.signature := fun he => hne (Prod.ext hjob he)
    cases hj : h.roster.jobs.get? x.job with
    | none =>
      have hx := h.roster_resolve_of_get?_eq_none hj
      have hy := h.roster_resolve_of_get?_eq_none (x := y) (hjob ▸ hj)
      rw [roster_resolve_of_get?_eq_none _ (by rw [hx, ← hjob, hj]), hx,
        roster_resolve_of_get?_eq_none _ (by rw [hy, hj]), hy]
    | some job =>
      rw [h.roster_resolve_resolve_of_job_eq hjob hj,
        h.roster_resolve_resolve_of_job_eq hjob.symm (hjob ▸ hj), job.resolve_comm hsig, hjob]
  · have hy' := h.jobs_roster_resolve_of_ne hjob
    have hx' := h.jobs_roster_resolve_of_ne (Ne.symm hjob)
    -- a resolution for no live job does nothing in either place
    cases hx : h.roster.jobs.get? x.job with
    | none =>
      have hxs := h.roster_resolve_of_get?_eq_none hx
      rw [roster_resolve_of_get?_eq_none (.resolve y :: h) (hx'.trans hx), roster, hxs, roster]
    | some job =>
      cases hy : h.roster.jobs.get? y.job with
      | none =>
        have hys := h.roster_resolve_of_get?_eq_none hy
        rw [roster_resolve_of_get?_eq_none (.resolve x :: h) (hy'.trans hy), roster, roster, hys]
      | some other =>
        have hres := h.tidy.resource_ne hx hy hjob
        rw [roster_resolve_of_get?_eq_some _ (hy'.trans hy), roster_resolve_of_get?_eq_some _ hx,
          roster_resolve_of_get?_eq_some _ (hx'.trans hx), roster_resolve_of_get?_eq_some _ hy]
        apply putJob_comm hjob
        · rw [Job.resource_resolve, Job.resource_resolve]
          exact hres
        · rw [hx]
          rfl
        · rw [Job.resource_resolve]
          exact h.tidy.known hx

end History
end Roster
end PresenceCaps
