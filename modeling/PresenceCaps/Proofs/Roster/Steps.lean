import Mathlib.Algebra.Group.Nat.Defs
import PresenceCaps.Proofs.Roster.History

/-! What every operation of a roster does to contacts, jobs and active updates, and how a call can end. -/
namespace PresenceCaps

namespace ContactState
variable (c : ContactState) (name other : String)

theorem get?_online (priority : Int8) : (c.online name priority).resources.get? other =
    if name = other then some ⟨((c.resources.get? name).map (·.bits)).getD .none, priority⟩
    else c.resources.get? other :=
  Assoc.get?_set ..

theorem get?_offline :
    (c.offline name).resources.get? other = if name = other then none else c.resources.get? other :=
  Assoc.get?_erase ..

theorem get?_assign (bits : Capabilities) : (c.assign name bits).resources.get? other =
    if name = other then (c.resources.get? other).map fun r => { r with bits } else c.resources.get? other := by
  rw [assign, Assoc.get?_modify]

@[simp] theorem get?_republish : c.republish.resources.get? other = c.resources.get? other := rfl

@[simp] theorem published_republish : c.republish.published = c.effective := rfl

@[simp] theorem effective_republish : c.republish.effective = c.effective := rfl

@[simp] theorem published_online (priority : Int8) : (c.online name priority).published = c.published := rfl

@[simp] theorem published_assign (bits : Capabilities) : (c.assign name bits).published = c.published := rfl

@[simp] theorem published_offline : (c.offline name).published = c.published := rfl

theorem effective_eq : c.effective = (c.resources.map fun e => e.2.bits).foldl .union .baseline := by
  rw [effective, List.foldl_map]

end ContactState

/-- Setting the value of a key to one with the same bits leaves the union of all bits as it is. -/
theorem foldl_union_set {m : Assoc String OnlineResource} {name : String} {r : OnlineResource}
    (hr : r.bits = ((m.get? name).map (·.bits)).getD .none) (c : Capabilities) :
    ((m.set name r).map fun e => e.2.bits).foldl .union c = (m.map fun e => e.2.bits).foldl .union c := by
  -- the start is general, for the fold takes up every entry before the name
  induction m generalizing c with
  | nil => simp_all [Assoc.set]
  | cons e m ih =>
    obtain ⟨x, y⟩ := e
    by_cases hx : x = name
    · simp_all [Assoc.set, Assoc.get?_cons]
    · rw [Assoc.get?_cons, if_neg hx] at hr
      simpa [Assoc.set, hx] using ih hr (c.union y.bits)

/-- Coming online, a resource adds nothing to what its contact can do. -/
@[simp] theorem ContactState.effective_online (c : ContactState) (name : String) (priority : Int8) :
    (c.online name priority).effective = c.effective := by
  rw [effective_eq, effective_eq]
  exact foldl_union_set rfl _

namespace Roster
variable (r : Roster) (a b : FullAddress) (c d : BareAddress) (f : ContactState → ContactState)

theorem contact_updateContact : (r.updateContact c f).contact d = if c = d then f (r.contact c) else r.contact d := by
  rw [contact, updateContact, Assoc.get?_set]
  split <;> rfl

@[simp] theorem jobs_updateContact : (r.updateContact c f).jobs = r.jobs := rfl

@[simp] theorem active_updateContact : (r.updateContact c f).active = r.active := rfl

@[simp] theorem nextJob_updateContact : (r.updateContact c f).nextJob = r.nextJob := rfl

theorem contact_publish : (r.publish c).1.contact d = if c = d then (r.contact c).republish else r.contact d :=
  contact_updateContact ..

theorem contact_complete (bits : Capabilities) : (r.complete a bits).1.contact d =
    if a.bare = d then ((r.contact a.bare).assign a.resource bits).republish else r.contact d := by
  simp only [complete, contact_publish, contact_updateContact]
  split <;> simp_all

@[simp] theorem jobs_publish : (r.publish c).1.jobs = r.jobs := rfl

@[simp] theorem active_publish : (r.publish c).1.active = r.active := rfl

@[simp] theorem nextJob_publish : (r.publish c).1.nextJob = r.nextJob := rfl

@[simp] theorem jobs_complete (bits : Capabilities) : (r.complete a bits).1.jobs = r.jobs := rfl

@[simp] theorem active_complete (bits : Capabilities) : (r.complete a bits).1.active = r.active := rfl

@[simp] theorem nextJob_complete (bits : Capabilities) : (r.complete a bits).1.nextJob = r.nextJob := rfl

/-- What is held of a resource that is online. -/
def resource? : Option OnlineResource := (r.contact a.bare).resources.get? a.resource

theorem resourceCapabilities?_eq : r.resourceCapabilities? a = (r.resource? a).map (·.bits) := rfl

theorem resource?_updateContact (h : ∀ x : ContactState, ∀ name, a.resource ≠ name →
    (f x).resources.get? name = x.resources.get? name) :
    (r.updateContact a.bare f).resource? b =
      if a = b then (f (r.contact a.bare)).resources.get? a.resource else r.resource? b := by
  obtain ⟨a, x⟩ := a
  obtain ⟨b, y⟩ := b
  rw [resource?, contact_updateContact]
  by_cases hb : a = b
  · subst hb
    by_cases hx : x = y
    · simp [hx]
    · simp [hx, h _ y hx, resource?]
  · simp [hb, resource?]

theorem resource?_online (priority : Int8) :
    (r.updateContact a.bare (·.online a.resource priority)).resource? b =
      if a = b then some ⟨((r.resource? a).map (·.bits)).getD .none, priority⟩ else r.resource? b := by
  rw [resource?_updateContact _ _ _ _ fun x name h => by rw [ContactState.get?_online, if_neg h]]
  rw [ContactState.get?_online, if_pos rfl]
  rfl

theorem resource?_offline :
    (r.updateContact a.bare (·.offline a.resource)).resource? b = if a = b then none else r.resource? b := by
  rw [resource?_updateContact _ _ _ _ fun x name h => by rw [ContactState.get?_offline, if_neg h]]
  rw [ContactState.get?_offline, if_pos rfl]

@[simp] theorem resource?_publish : (r.publish c).1.resource? b = r.resource? b := by
  rw [resource?, contact_publish]
  split <;> simp_all [resource?]

theorem resource?_complete (bits : Capabilities) : (r.complete a bits).1.resource? b =
    if a = b then (r.resource? a).map fun x => { x with bits } else r.resource? b := by
  rw [complete, resource?_publish,
    resource?_updateContact _ _ _ _ fun x name h => by rw [ContactState.get?_assign, if_neg h]]
  rw [ContactState.get?_assign, if_pos rfl]
  rfl

@[simp] theorem contact_supersede : (r.supersede a).contact c = r.contact c := by
  unfold supersede
  split <;> rfl

@[simp] theorem resource?_supersede : (r.supersede a).resource? b = r.resource? b := by
  rw [resource?, contact_supersede, resource?]

@[simp] theorem nextJob_supersede : (r.supersede a).nextJob = r.nextJob := by
  unfold supersede
  split <;> rfl

theorem active_supersede :
    (r.supersede a).active.get? b = if a = b then none else r.active.get? b := by
  unfold supersede
  split
  · split <;> simp_all
  · exact Assoc.get?_erase ..

theorem jobs_supersede (j : JobId) :
    (r.supersede a).jobs.get? j = if r.active.get? a = some j then none else r.jobs.get? j := by
  unfold supersede
  split
  · simp_all
  · rename_i k hk
    simp [hk, Assoc.get?_erase]

@[simp] theorem contact_addJob (job : Job) : (r.addJob job).contact c = r.contact c := rfl

@[simp] theorem resource?_addJob (job : Job) : (r.addJob job).resource? b = r.resource? b := rfl

theorem active_addJob (job : Job) :
    (r.addJob job).active.get? a = if job.resource = a then some ⟨r.nextJob⟩ else r.active.get? a :=
  Assoc.get?_set ..

theorem jobs_addJob (job : Job) (j : JobId) :
    (r.addJob job).jobs.get? j = if ⟨r.nextJob⟩ = j then some job else r.jobs.get? j :=
  Assoc.get?_set ..

@[simp] theorem nextJob_addJob (job : Job) : (r.addJob job).nextJob = r.nextJob + 1 := rfl

/-- The roster in which an update finds its resource online and without a job. -/
def ready (u : PresenceUpdate) : Roster :=
  (r.supersede u.sender).updateContact u.sender.bare (·.online u.sender.resource u.priority)

/-- An update takes its resource offline, is completed at once, or leaves a job behind. -/
theorem start_cases (bs : Bundles) (u : PresenceUpdate) :
    (u.availability = .unavailable ∧ u.untrusted bs = [] ∧ r.start bs u =
      let p := ((r.supersede u.sender).updateContact u.sender.bare (·.offline u.sender.resource)).publish u.sender.bare
      ⟨p.1, bs, none, [], p.2⟩) ∨
    (u.availability = .available ∧ u.untrusted bs = [] ∧ r.start bs u =
      let p := (r.ready u).complete u.sender (trustedBits bs u.signatures)
      ⟨p.1, u.signatures.foldl Bundles.touch bs, none, [], p.2⟩) ∨
    (u.availability = .available ∧ u.untrusted bs ≠ [] ∧ r.start bs u =
      ⟨(r.ready u).addJob ⟨u.sender, u.untrusted bs, trustedBits bs u.signatures⟩,
        u.signatures.foldl Bundles.touch bs, some ⟨r.nextJob⟩, u.untrusted bs, none⟩) := by
  cases hu : u.availability with
  | unavailable =>
    -- an update that goes offline refers to no bundles
    refine Or.inl ⟨rfl, ?_, by simp only [start, hu]⟩
    simp [PresenceUpdate.untrusted, PresenceUpdate.signatures, hu]
  | available =>
    by_cases hq : u.untrusted bs = []
    · refine Or.inr (Or.inl ⟨rfl, hq, ?_⟩)
      rw [u.untrusted_eq] at hq
      simp only [start, hu, hq, List.isEmpty_nil, if_true, ready]
    · refine Or.inr (Or.inr ⟨rfl, hq, ?_⟩)
      have he : (u.signatures.filter fun s => !bs.isTrusted s).isEmpty = false := by
        simpa [u.untrusted_eq] using hq
      simp only [start, hu, he, Bool.false_eq_true, if_false, ready, u.untrusted_eq, nextJob_updateContact,
        nextJob_supersede]

/-- A resolution is ignored, leaves its job waiting for other bundles, or completes it. -/
theorem resolve_cases (x : Resolution) :
    ((∀ job, r.jobs.get? x.job = some job → x.signature ∉ job.unresolved) ∧
      r.resolve x.job x.signature x.features = (r, none)) ∨
    ∃ job, r.jobs.get? x.job = some job ∧ x.signature ∈ job.unresolved ∧
      (job.unresolved.filter (· ≠ x.signature) ≠ [] ∧ r.resolve x.job x.signature x.features =
        ({ r with jobs := r.jobs.set x.job ⟨job.resource, job.unresolved.filter (· ≠ x.signature),
          job.bits.union x.features.capabilities⟩ }, none) ∨
      job.unresolved.filter (· ≠ x.signature) = [] ∧ r.resolve x.job x.signature x.features =
        { r with jobs := r.jobs.erase x.job, active := r.active.erase job.resource }.complete job.resource
          (job.bits.union x.features.capabilities)) := by
  cases hj : r.jobs.get? x.job with
  | none => exact Or.inl ⟨by simp, by simp only [resolve, hj]⟩
  | some job =>
    by_cases hs : x.signature ∈ job.unresolved
    · refine Or.inr ⟨job, rfl, hs, ?_⟩
      simp only [resolve, hj, hs, if_true]
      by_cases hl : job.unresolved.filter (· ≠ x.signature) = []
      · rw [if_pos (by simpa using hl)]
        exact Or.inr ⟨hl, rfl⟩
      · rw [if_neg (by simpa using hl)]
        exact Or.inl ⟨hl, rfl⟩
    · refine Or.inl ⟨fun other ho => Option.some.inj ho ▸ hs, ?_⟩
      simp only [resolve, hj, hs, if_false]

theorem nextJob_ready (u : PresenceUpdate) : (r.ready u).nextJob = r.nextJob := r.nextJob_supersede u.sender

theorem jobs_ready (u : PresenceUpdate) : (r.ready u).jobs = (r.supersede u.sender).jobs := rfl

theorem nextJob_start (bs : Bundles) (u : PresenceUpdate) :
    (r.start bs u).roster.nextJob = if u.untrusted bs = [] then r.nextJob else r.nextJob + 1 := by
  obtain ⟨-, hq, hs⟩ | ⟨-, hq, hs⟩ | ⟨-, hq, hs⟩ := r.start_cases bs u <;> simp [hs, hq, nextJob_ready]

theorem toNat_nextJob_start (bs : Bundles) (u : PresenceUpdate)
    (hn : u.untrusted bs ≠ [] → r.nextJob.toNat + 1 < 2 ^ 64) :
    (r.start bs u).roster.nextJob.toNat = r.nextJob.toNat + if u.untrusted bs = [] then 0 else 1 := by
  rw [nextJob_start]
  split
  · rfl
  · rename_i hq
    rw [UInt64.toNat_add]
    exact Nat.mod_eq_of_lt (hn hq)

theorem active_ready (u : PresenceUpdate) :
    (r.ready u).active.get? a = if u.sender = a then none else r.active.get? a := by
  rw [ready, active_updateContact, active_supersede]

theorem resource?_ready (u : PresenceUpdate) : (r.ready u).resource? a =
    if u.sender = a then some ⟨((r.resource? u.sender).map (·.bits)).getD .none, u.priority⟩ else r.resource? a := by
  rw [ready, resource?_online, resource?_supersede, resource?_supersede]

/-- An update leaves its resource with the new job or with none, and other resources as they are. -/
theorem active_start (bs : Bundles) (u : PresenceUpdate) : (r.start bs u).roster.active.get? a =
    if u.sender = a then if u.untrusted bs = [] then none else some ⟨r.nextJob⟩ else r.active.get? a := by
  obtain ⟨-, hq, hs⟩ | ⟨-, hq, hs⟩ | ⟨-, hq, hs⟩ := r.start_cases bs u
  · simp only [hs, hq, if_true, active_publish, active_updateContact, active_supersede]
  · simp only [hs, hq, if_true, active_complete, active_ready]
  · simp only [hs, hq, if_false, active_addJob, active_ready, nextJob_ready]
    split <;> rfl

theorem jobs_start (bs : Bundles) (u : PresenceUpdate) (j : JobId) : (r.start bs u).roster.jobs.get? j =
    if u.untrusted bs ≠ [] ∧ ⟨r.nextJob⟩ = j then some ⟨u.sender, u.untrusted bs, trustedBits bs u.signatures⟩
    else (r.supersede u.sender).jobs.get? j := by
  obtain ⟨-, hq, hs⟩ | ⟨-, hq, hs⟩ | ⟨-, hq, hs⟩ := r.start_cases bs u
  · simp [hs, hq]
  · simp [hs, hq, jobs_ready]
  · simp [hs, hq, jobs_addJob, jobs_ready, nextJob_ready]

theorem resource?_start_of_ne (bs : Bundles) {u : PresenceUpdate} (h : u.sender ≠ a) :
    (r.start bs u).roster.resource? a = r.resource? a := by
  obtain ⟨-, -, hs⟩ | ⟨-, -, hs⟩ | ⟨-, -, hs⟩ := r.start_cases bs u
  · simp only [hs, resource?_publish, resource?_offline, h, if_false, resource?_supersede]
  · simp only [hs, resource?_complete, resource?_ready, h, if_false]
  · simp only [hs, resource?_addJob, resource?_ready, h, if_false]

/-- An update decides alone about its own resource, except that one which waits leaves the resource what it had. -/
theorem resource?_start_self (bs : Bundles) (u : PresenceUpdate) :
    (r.start bs u).roster.resource? u.sender = if u.availability = .available then
      some ⟨if u.untrusted bs = [] then trustedBits bs u.signatures
        else ((r.resource? u.sender).map (·.bits)).getD .none, u.priority⟩
    else none := by
  obtain ⟨hu, -, hs⟩ | ⟨hu, hq, hs⟩ | ⟨hu, hq, hs⟩ := r.start_cases bs u
  · simp [hs, hu, resource?_offline]
  · simp [hs, hu, hq, resource?_complete, resource?_ready]
  · simp [hs, hu, hq, resource?_ready]

theorem nextJob_resolve (x : Resolution) :
    (r.resolve x.job x.signature x.features).1.nextJob = r.nextJob := by
  obtain ⟨-, hs⟩ | ⟨job, -, -, ⟨-, hs⟩ | ⟨-, hs⟩⟩ := r.resolve_cases x <;> simp [hs]

theorem jobs_resolve_of_ne {x : Resolution} {j : JobId} (hj : x.job ≠ j) :
    (r.resolve x.job x.signature x.features).1.jobs.get? j = r.jobs.get? j := by
  obtain ⟨-, he⟩ | ⟨job, -, -, ⟨-, he⟩ | ⟨-, he⟩⟩ := r.resolve_cases x
  · rw [he]
  · rw [he, Assoc.get?_set, if_neg hj]
  · rw [he, jobs_complete, Assoc.get?_erase, if_neg hj]

/-- A job that is live after a resolution was so before, and no longer waits for the bundle. -/
theorem jobs_resolve_eq_some (x : Resolution) {j : JobId} {job : Job}
    (h : (r.resolve x.job x.signature x.features).1.jobs.get? j = some job) :
    ∃ old, r.jobs.get? j = some old ∧ job.resource = old.resource ∧ job.unresolved =
      if x.job = j then old.unresolved.filter (· ≠ x.signature) else old.unresolved := by
  obtain ⟨hno, he⟩ | ⟨old, hold, hs, ⟨-, he⟩ | ⟨-, he⟩⟩ := r.resolve_cases x
  · rw [he] at h
    refine ⟨job, h, rfl, ?_⟩
    -- ignored: the job does not wait for the bundle, so that taking it off the list does nothing
    split
    · rename_i hx
      have hnot : x.signature ∉ job.unresolved := hno job (hx ▸ h)
      refine (List.filter_eq_self.2 fun s hs => ?_).symm
      exact decide_eq_true fun heq => hnot (heq ▸ hs)
    · rfl
  · rw [he, Assoc.get?_set] at h
    split at h
    · rename_i hx
      refine ⟨old, hx ▸ hold, ?_⟩
      rw [← Option.some.inj h, if_pos hx]
      exact ⟨rfl, rfl⟩
    · rename_i hx
      exact ⟨job, h, rfl, (if_neg hx).symm⟩
  · rw [he, jobs_complete, Assoc.get?_erase] at h
    split at h
    · exact absurd h (by simp)
    · rename_i hx
      exact ⟨job, h, rfl, (if_neg hx).symm⟩

/-- A resolution that reports a change ends its job. -/
theorem jobs_of_resolve_eq_some {x : Resolution} {c : ContactChange}
    (h : (r.resolve x.job x.signature x.features).2 = some c) :
    (r.resolve x.job x.signature x.features).1.jobs.get? x.job = none := by
  obtain ⟨-, he⟩ | ⟨job, -, -, ⟨-, he⟩ | ⟨-, he⟩⟩ := r.resolve_cases x
  · rw [he] at h
    exact absurd h (by simp)
  · rw [he] at h
    exact absurd h (by simp)
  · rw [he, jobs_complete, Assoc.get?_erase, if_pos rfl]

theorem published_updateContact (hf : (f (r.contact c)).published = (r.contact c).published) :
    (r.updateContact c f).published d = r.published d := by
  rw [published, contact_updateContact]
  split
  · rename_i hd
    rw [hf, hd, published]
  · rfl

@[simp] theorem published_supersede : (r.supersede a).published c = r.published c := by
  rw [published, contact_supersede, published]

/-- Coming online changes nothing that is published. -/
@[simp] theorem published_ready (u : PresenceUpdate) : (r.ready u).published c = r.published c := by
  rw [ready, published_updateContact, published_supersede]
  rfl

end Roster
end PresenceCaps
