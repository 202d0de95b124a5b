import PresenceCaps.Proofs.Roster.Steps

/-!
Jobs and active updates mirror each other in every roster that a history leads to, as long as no job identifier
comes round again.
-/
namespace PresenceCaps.Roster

/-- Every live job is the active one of an online resource, waits for something, and has a number already given. -/
structure Coherent (r : Roster) : Prop where
  active_iff : ∀ {a j}, r.active.get? a = some j ↔ ∃ job, r.jobs.get? j = some job ∧ job.resource = a
  unresolved_ne_nil : ∀ {j job}, r.jobs.get? j = some job → job.unresolved ≠ []
  online : ∀ {j job}, r.jobs.get? j = some job → (r.resource? job.resource).isSome
  fresh : ∀ {j job}, r.jobs.get? j = some job → j.value.toNat < r.nextJob.toNat

namespace Coherent
variable {r : Roster} {a : FullAddress} {j k : JobId} {job other : Job}

theorem empty : Coherent .empty := by
  constructor <;> simp [Roster.empty]

theorem active (hr : r.Coherent) (h : r.jobs.get? j = some job) : r.active.get? job.resource = some j :=
  hr.active_iff.2 ⟨job, h, rfl⟩

/-- No resource has two live jobs. -/
theorem eq_of_resource_eq (hr : r.Coherent) (hj : r.jobs.get? j = some job) (hk : r.jobs.get? k = some other)
    (h : job.resource = other.resource) : j = k := by
  have hja := hr.active hj
  rw [h, hr.active hk] at hja
  exact (Option.some.inj hja).symm

theorem jobs_get?_nextJob (hr : r.Coherent) : r.jobs.get? ⟨r.nextJob⟩ = none := by
  cases h : r.jobs.get? ⟨r.nextJob⟩ with
  | none => rfl
  | some job => exact absurd (hr.fresh h) (Nat.lt_irrefl _)

/-- A live job after superseding is one of another resource. -/
theorem jobs_supersede_eq_some (hr : r.Coherent) :
    (r.supersede a).jobs.get? j = some job ↔ r.jobs.get? j = some job ∧ job.resource ≠ a := by
  rw [jobs_supersede]
  split
  · rename_i ha
    obtain ⟨old, hold, rfl⟩ := hr.active_iff.1 ha
    refine ⟨fun h => absurd h (by simp), ?_⟩
    rintro ⟨h, hne⟩
    rw [hold] at h
    exact absurd (congrArg Job.resource (Option.some.inj h).symm) hne
  · rename_i ha
    refine ⟨fun h => ⟨h, ?_⟩, And.left⟩
    rintro rfl
    exact ha (hr.active h)

theorem supersede (hr : r.Coherent) (a : FullAddress) : (r.supersede a).Coherent where
  active_iff {b j} := by
    rw [active_supersede]
    simp only [hr.jobs_supersede_eq_some]
    -- the resource loses its active update and its job at once, others keep both
    constructor
    · intro h
      split at h
      · exact absurd h (by simp)
      · rename_i hab
        obtain ⟨job, hjob, rfl⟩ := hr.active_iff.1 h
        exact ⟨job, ⟨hjob, Ne.symm hab⟩, rfl⟩
    · rintro ⟨job, ⟨hjob, hne⟩, rfl⟩
      rw [if_neg hne.symm]
      exact hr.active hjob
  unresolved_ne_nil h := hr.unresolved_ne_nil (hr.jobs_supersede_eq_some.1 h).1
  online h := by
    rw [resource?_supersede]
    exact hr.online (hr.jobs_supersede_eq_some.1 h).1
  fresh h := by
    rw [nextJob_supersede]
    exact hr.fresh (hr.jobs_supersede_eq_some.1 h).1

/-- Contacts may change in any way that keeps the resources of live jobs online. -/
theorem of_same_jobs {r' : Roster} (hr : r.Coherent) (hj : r'.jobs = r.jobs) (ha : r'.active = r.active)
    (hn : r'.nextJob = r.nextJob)
    (ho : ∀ j job, r.jobs.get? j = some job → (r.resource? job.resource).isSome →
      (r'.resource? job.resource).isSome) : r'.Coherent where
  active_iff := by
    rw [hj, ha]
    exact hr.active_iff
  unresolved_ne_nil h := hr.unresolved_ne_nil (hj ▸ h)
  online h := ho _ _ (hj ▸ h) (hr.online (hj ▸ h))
  fresh h := by
    rw [hn]
    exact hr.fresh (hj ▸ h)

theorem complete (hr : r.Coherent) (a : FullAddress) (bits : Capabilities) : (r.complete a bits).1.Coherent := by
  refine hr.of_same_jobs rfl rfl rfl fun _ job _ h => ?_
  rw [resource?_complete]
  split
  · simp_all
  · exact h

theorem online_update (hr : r.Coherent) (a : FullAddress) (priority : Int8) :
    (r.updateContact a.bare (·.online a.resource priority)).Coherent := by
  refine hr.of_same_jobs rfl rfl rfl fun _ job _ h => ?_
  rw [resource?_online]
  split
  · rfl
  · exact h

/-- Only a resource without a job may go offline. -/
theorem offline_publish (hr : r.Coherent) (ha : r.active.get? a = none) :
    ((r.updateContact a.bare (·.offline a.resource)).publish a.bare).1.Coherent := by
  refine hr.of_same_jobs rfl rfl rfl fun j job hj h => ?_
  rw [resource?_publish, resource?_offline]
  -- a live job of this resource would be its active one
  split
  · rename_i he
    rw [he, hr.active hj] at ha
    exact absurd ha (by simp)
  · exact h

theorem active_iff_addJob (hr : r.Coherent) (ha : r.active.get? job.resource = none) {b : FullAddress} :
    (r.addJob job).active.get? b = some j ↔ ∃ new, (r.addJob job).jobs.get? j = some new ∧ new.resource = b := by
  rw [active_addJob]
  simp only [jobs_addJob]
  constructor
  · intro h
    split at h
    · rename_i he
      exact ⟨job, if_pos (Option.some.inj h), he⟩
    · -- the number of the new job is that of no old one
      obtain ⟨old, hold, rfl⟩ := hr.active_iff.1 h
      refine ⟨old, ?_, rfl⟩
      rw [if_neg, hold]
      rintro rfl
      simp [hr.jobs_get?_nextJob] at hold
  · rintro ⟨new, h, rfl⟩
    split at h
    · rename_i he
      rw [if_pos (by rw [Option.some.inj h]), he]
    · -- an old job is one of another resource, for this one has none
      have hne : job.resource ≠ new.resource := by
        intro he
        rw [he, hr.active h] at ha
        exact absurd ha (by simp)
      rw [if_neg hne, hr.active h]

theorem addJob (hr : r.Coherent) (ha : r.active.get? job.resource = none) (hu : job.unresolved ≠ [])
    (ho : (r.resource? job.resource).isSome) (hn : r.nextJob.toNat + 1 < 2 ^ 64) : (r.addJob job).Coherent := by
  have hnext : (r.addJob job).nextJob.toNat = r.nextJob.toNat + 1 := by
    rw [nextJob_addJob, UInt64.toNat_add]
    exact Nat.mod_eq_of_lt hn
  refine ⟨hr.active_iff_addJob ha, ?_, ?_, ?_⟩
  -- every job is either the new one, or an old one that kept what it had
  all_goals
    intro j new h
    rw [jobs_addJob] at h
    split at h
  · exact Option.some.inj h ▸ hu
  · exact hr.unresolved_ne_nil h
  · exact Option.some.inj h ▸ ho
  · exact hr.online h
  · rename_i he
    rw [hnext, ← he]
    exact Nat.lt_succ_self _
  · rw [hnext]
    exact Nat.lt_succ_of_lt (hr.fresh h)

theorem set_job (hr : r.Coherent) (h : r.jobs.get? j = some job) (he : other.resource = job.resource)
    (hu : other.unresolved ≠ []) : Coherent { r with jobs := r.jobs.set j other } := by
  constructor
  · intro a k
    simp only [Assoc.get?_set]
    refine hr.active_iff.trans ?_
    by_cases hk : j = k
    · subst hk
      simp [h, he]
    · simp [hk]
  -- as above: the changed job, or one of the others
  all_goals
    intro k new hnew
    rw [Assoc.get?_set] at hnew
    split at hnew
  · exact Option.some.inj hnew ▸ hu
  · exact hr.unresolved_ne_nil hnew
  · rw [← Option.some.inj hnew, he]
    exact hr.online h
  · exact hr.online hnew
  · rename_i hk
    exact hk ▸ hr.fresh h
  · exact hr.fresh hnew

theorem erase_job (hr : r.Coherent) (h : r.jobs.get? j = some job) :
    Coherent { r with jobs := r.jobs.erase j, active := r.active.erase job.resource } := by
  -- erasing the job of a resource is superseding it
  have hs : r.supersede job.resource =
      { r with jobs := r.jobs.erase j, active := r.active.erase job.resource } := by
    rw [Roster.supersede, hr.active h]
  exact hs ▸ hr.supersede job.resource

theorem start (hr : r.Coherent) (b : Bundles) (u : PresenceUpdate)
    (hn : u.untrusted b ≠ [] → r.nextJob.toNat + 1 < 2 ^ 64) : (r.start b u).roster.Coherent := by
  have hs := hr.supersede u.sender
  have hready : (r.ready u).Coherent := hs.online_update u.sender u.priority
  have ha : (r.supersede u.sender).active.get? u.sender = none := by
    rw [active_supersede, if_pos rfl]
  obtain ⟨-, -, he⟩ | ⟨-, -, he⟩ | ⟨-, hq, he⟩ := r.start_cases b u
  · rw [he]
    exact hs.offline_publish ha
  · rw [he]
    exact hready.complete u.sender _
  · rw [he]
    refine hready.addJob ha hq ?_ ?_
    · rw [ready, resource?_online, if_pos rfl]
      rfl
    · simpa [ready] using hn hq

theorem resolve (hr : r.Coherent) (x : Resolution) : (r.resolve x.job x.signature x.features).1.Coherent := by
  obtain ⟨-, he⟩ | ⟨job, hj, -, ⟨hl, he⟩ | ⟨-, he⟩⟩ := r.resolve_cases x
  · rw [he]
    exact hr
  · rw [he]
    exact hr.set_job hj rfl hl
  · rw [he]
    exact (hr.erase_job hj).complete job.resource _

end Coherent

namespace History

/-- The roster's counter counts the jobs of the history. -/
theorem roster_nextJob (h : History) : h.roster.nextJob = .ofNat h.jobCount := by
  induction h with
  | nil => rfl
  | cons c h ih =>
    rw [jobCount, List.countP_cons, ← jobCount]
    cases c with
    | start b u =>
      rw [roster, step, nextJob_start, ih]
      by_cases hq : u.untrusted b = [] <;> simp [Call.waits, hq]
    | resolve r =>
      rw [roster, step, nextJob_resolve, ih]
      simp [Call.waits]

theorem coherent (h : History) (hn : h.jobCount < 2 ^ 64) : h.roster.Coherent := by
  induction h with
  | nil => exact .empty
  | cons c h ih =>
    have hle : jobCount h ≤ jobCount (c :: h) := (List.sublist_cons_self c h).countP_le
    have hr := ih (by omega)
    cases c with
    | resolve r => exact hr.resolve r
    | start b u =>
      refine hr.start b u fun hq => ?_
      have hc : jobCount (.start b u :: h) = jobCount h + 1 :=
        List.countP_cons_of_pos (by simpa [Call.waits] using hq)
      rw [roster_nextJob, UInt64.toNat_ofNat_of_lt' (show jobCount h < 2 ^ 64 by omega)]
      omega

/-- A job that a resource waits for is its active one, also when identifiers come round again. -/
theorem active_of_jobs {h : History} {j : JobId} {job : Job} (hj : h.roster.jobs.get? j = some job) :
    h.roster.active.get? job.resource = some j := by
  induction h generalizing j job with
  | nil => exact absurd hj (by simp [roster, Roster.empty])
  | cons c h ih =>
    cases c with
    | start b u =>
      rw [roster, step, jobs_start] at hj
      rw [roster, step, active_start]
      split at hj
      · rename_i hnew
        rw [← Option.some.inj hj, if_pos rfl, if_neg hnew.1, hnew.2]
      · -- the job of the sender is forgotten, so that an old job is one of another resource
        rw [jobs_supersede] at hj
        split at hj
        · exact absurd hj (by simp)
        · rename_i hne
          have hact := ih hj
          have hother : u.sender ≠ job.resource := fun he => hne (he ▸ hact)
          rw [if_neg hother, hact]
    | resolve x =>
      rw [roster, step] at hj ⊢
      obtain ⟨-, he⟩ | ⟨old, hold, -, ⟨-, he⟩ | ⟨-, he⟩⟩ := (roster h).resolve_cases x
      · rw [he] at hj ⊢
        exact ih hj
      · rw [he] at hj ⊢
        rw [Assoc.get?_set] at hj
        split at hj
        · rename_i hx
          have hact := ih hold
          rw [← Option.some.inj hj, ← hx]
          exact hact
        · exact ih hj
      · rw [he, jobs_complete, Assoc.get?_erase] at hj
        rw [he, active_complete, Assoc.get?_erase]
        split at hj
        · exact absurd hj (by simp)
        · rename_i hx
          have hact := ih hj
          rw [if_neg, hact]
          -- two jobs of one resource would be one and the same
          intro hsame
          rw [← hsame, ih hold] at hact
          exact hx (Option.some.inj hact)

end History
end PresenceCaps.Roster
