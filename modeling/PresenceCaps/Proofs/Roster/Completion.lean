import PresenceCaps.Proofs.Roster.Changes

/-!
Which updates are completed, and what resources have of them. A live job stands for the update that it was last given
to, so that all of this holds however many jobs there were.
-/
namespace PresenceCaps.Roster

/-- The job that an update leaves behind: what it still waits for, and what it has been granted so far. -/
def PastUpdate.toJob (x : PastUpdate) : Job := ⟨x.update.sender, x.outstanding, x.bits⟩

namespace PastUpdate
variable {x : PastUpdate} {r : Resolution}

theorem toJob_extend_of_not_awaits (h : ¬ x.Awaits r) : (x.extend r).toJob = x.toJob := by
  rw [toJob, toJob, outstanding_extend_of_not_awaits x r h, bits_extend_of_not_awaits x r h, update_extend]

theorem toJob_extend_of_awaits (h : x.Awaits r) : (x.extend r).toJob =
    ⟨x.update.sender, x.outstanding.filter (· ≠ r.signature), x.bits.union r.features.capabilities⟩ := by
  rw [toJob, outstanding_extend, if_pos h.1, bits_extend_of_awaits x r h, update_extend]

/-- A bundle that an update waited for and was told nothing of grants it nothing. -/
theorem bits_eq_of_features_eq_empty {s : CapabilitySignature} (h : x.features s = .empty) :
    x.bits = .unionAll ((x.update.signatures.filter (· ≠ s)).map fun t => (x.features t).capabilities) := by
  apply Capabilities.eq_of_has_eq
  intro i
  rw [Bool.eq_iff_iff, bits, Capabilities.has_unionAll_map, Capabilities.has_unionAll_map]
  constructor
  · rintro ⟨t, ht, hi⟩
    have hne : t ≠ s := by
      rintro rfl
      rw [h, FeatureSet.capabilities_empty, Capabilities.has_none] at hi
      exact Bool.false_ne_true hi
    exact ⟨t, List.mem_filter.2 ⟨ht, decide_eq_true hne⟩, hi⟩
  · rintro ⟨t, ht, hi⟩
    exact ⟨t, List.mem_of_mem_filter ht, hi⟩

end PastUpdate

namespace History
variable {h more : History} {a : FullAddress} {b : Bundles} {u : PresenceUpdate} {r : Resolution} {x z : PastUpdate}
  {j : JobId} {job : Job}

/-- The update that a call completes, as it is resolved then: one that waits for nothing when it comes, any other one
when its resource stops to wait. -/
def completion? (h : History) : Call → Option PastUpdate
  | .start b u =>
    if u.availability = .available ∧ u.untrusted b = [] then some ⟨b, u, h.length, h.nextJob, []⟩ else none
  | .resolve r => ((h.begun? r.job).map (·.extend r)).filter fun x =>
      h.roster.isPending x.update.sender && !(h.roster.step (.resolve r)).1.isPending x.update.sender

/-- The latest update of a resource, if that is online. -/
def online? (h : History) (a : FullAddress) : Option PresenceUpdate :=
  (h.findSome? fun
    | .start _ u => if u.sender = a then some u else none
    | .resolve _ => none).filter fun u => u.availability = .available

/-- What the last completed update of a resource grants it. Nothing is left of that when it goes offline. -/
def granted : History → FullAddress → Capabilities
  | [], _ => .none
  | c :: h, a =>
    if (online? (c :: h) a).isSome then
      match (completion? h c).filter fun x => x.update.sender = a with
      | some x => x.bits
      | none => granted h a
    else .none

/-- An online resource: the capabilities of its last completed update, and the priority of its latest one. -/
def standing? (h : History) (a : FullAddress) : Option OnlineResource :=
  (h.online? a).map fun u => ⟨h.granted a, u.priority⟩

theorem online?_start : online? (.start b u :: h) a =
    if u.sender = a then if u.availability = .available then some u else none else h.online? a := by
  rw [online?, List.findSome?_cons]
  by_cases hu : u.sender = a
  · simp only [hu, if_true, Option.filter_some, decide_eq_true_eq]
  · simp only [hu, if_false]
    rfl

theorem online?_resolve : online? (.resolve r :: h) a = h.online? a := rfl

theorem granted_of_offline (ho : h.online? a = none) : h.granted a = .none := by
  cases h with
  | nil => rfl
  | cons c h => rw [granted, ho, Option.isSome_none, if_neg Bool.false_ne_true]

theorem bits_standing? (h : History) (a : FullAddress) : ((h.standing? a).map (·.bits)).getD .none = h.granted a := by
  rw [standing?, Option.map_map]
  cases ho : h.online? a with
  | none => exact (granted_of_offline ho).symm
  | some u => rfl

/-- A call that completes nothing of a resource, and is not an update of it, does nothing to it. -/
theorem standing?_cons_of_ne {c : Call} (hc : (completion? h c).filter (fun x => x.update.sender = a) = none)
    (ho : online? (c :: h) a = h.online? a) : standing? (c :: h) a = h.standing? a := by
  rw [standing?, standing?, ho, granted, hc, ho]
  cases h.online? a <;> rfl

theorem standing?_start_self : standing? (.start b u :: h) u.sender = if u.availability = .available then
    some ⟨if u.untrusted b = [] then trustedBits b u.signatures else h.granted u.sender, u.priority⟩ else none := by
  rw [standing?, online?_start, if_pos rfl]
  split
  · rename_i hu
    rw [Option.map_some, granted, online?_start, if_pos rfl, if_pos hu, Option.isSome_some, if_pos rfl, completion?]
    by_cases hq : u.untrusted b = []
    · rw [if_pos ⟨hu, hq⟩, if_pos hq, Option.filter_some, decide_eq_true rfl, if_pos rfl]
      dsimp only
      rw [PastUpdate.bits_of_since_eq_nil _ rfl]
    · rw [if_neg fun hboth => hq hboth.2, if_neg hq]
      rfl
  · rfl

theorem standing?_start_of_ne (hne : u.sender ≠ a) : standing? (.start b u :: h) a = h.standing? a := by
  apply standing?_cons_of_ne
  · rw [completion?, Option.filter_eq_none_iff]
    intro x hx
    split at hx
    · obtain rfl := Option.some.inj hx
      simpa using hne
    · exact absurd hx (by simp)
  · rw [online?_start, if_neg hne]

theorem standing?_resolve_of_completion (hx : h.completion? (.resolve r) = some x) :
    standing? (.resolve r :: h) a =
      if x.update.sender = a then (h.standing? a).map fun y => { y with bits := x.bits } else h.standing? a := by
  by_cases ha : x.update.sender = a
  · rw [if_pos ha, standing?, standing?, online?_resolve, granted, online?_resolve, hx, Option.filter_some,
      decide_eq_true ha, if_pos rfl]
    cases h.online? a <;> rfl
  · rw [if_neg ha]
    apply standing?_cons_of_ne _ rfl
    rw [hx, Option.filter_some, decide_eq_false ha, if_neg Bool.false_ne_true]

/-- A live job is what its update has left behind. -/
theorem exists_toJob_eq (hj : h.roster.jobs.get? j = some job) : ∃ x, h.begun? j = some x ∧ job = x.toJob := by
  induction h generalizing j job with
  | nil => exact absurd hj (by simp [roster, Roster.empty])
  | cons c h ih =>
    cases c with
    | start b u =>
      have hnext : (⟨(roster h).nextJob⟩ : JobId) = nextJob h := congrArg JobId.mk (roster_nextJob h)
      rw [roster, step, jobs_start, hnext] at hj
      rw [begun?_start]
      split at hj
      · rename_i hnew
        refine ⟨_, if_pos hnew, ?_⟩
        rw [← Option.some.inj hj, PastUpdate.toJob, PastUpdate.outstanding_of_since_eq_nil _ rfl,
          PastUpdate.bits_of_since_eq_nil _ rfl]
      · rename_i hold
        rw [jobs_supersede] at hj
        split at hj
        · exact absurd hj (by simp)
        · obtain ⟨x, hx, hjob⟩ := ih hj
          exact ⟨x, (if_neg hold).trans hx, hjob⟩
    | resolve r =>
      rw [begun?_resolve]
      -- a job that the resolution is not for stays as it is
      have hother {k : JobId} {old : Job} (hk : (roster h).jobs.get? k = some old)
          (hnot : r.job = k → r.signature ∉ old.unresolved) :
          ∃ x, (begun? h k).map (·.extend r) = some x ∧ old = x.toJob := by
        obtain ⟨x, hx, hjob⟩ := ih hk
        have hn : ¬ x.Awaits r := by
          intro hawaits
          apply hnot (hawaits.1.trans (job_of_begun?_eq_some hx))
          rw [hjob]
          exact hawaits.2
        exact ⟨x.extend r, by rw [hx]; rfl, hjob.trans (PastUpdate.toJob_extend_of_not_awaits hn).symm⟩
      rw [roster, step] at hj
      obtain ⟨hno, he⟩ | ⟨old, hold, hs, ⟨-, he⟩ | ⟨-, he⟩⟩ := (roster h).resolve_cases r
      · rw [he] at hj
        exact hother hj fun hk => hno job (hk ▸ hj)
      · rw [he, Assoc.get?_set] at hj
        split at hj
        · rename_i hk
          obtain ⟨x, hx, hjob⟩ := ih hold
          have hawaits : x.Awaits r := ⟨(job_of_begun?_eq_some hx).symm, by rw [hjob] at hs; exact hs⟩
          refine ⟨x.extend r, by rw [← hk, hx]; rfl, ?_⟩
          rw [← Option.some.inj hj, PastUpdate.toJob_extend_of_awaits hawaits, hjob]
          rfl
        · rename_i hk
          exact hother hj fun he => absurd he hk
      · rw [he, jobs_complete, Assoc.get?_erase] at hj
        split at hj
        · exact absurd hj (by simp)
        · rename_i hk
          exact hother hj fun he => absurd he hk

/-- As long as the same resources wait, nothing is completed. -/
theorem completion?_of_active_eq (ha : (h.roster.step (.resolve r)).1.active = h.roster.active) :
    h.completion? (.resolve r) = none := by
  rw [completion?, Option.filter_eq_none_iff]
  intro x _
  rw [isPending, isPending, ha, Bool.and_not_self]
  exact Bool.false_ne_true

/-- The last resolution of a live job completes its update. -/
theorem completion?_of_last (hj : h.roster.jobs.get? r.job = some job) (hs : r.signature ∈ job.unresolved)
    (hlast : job.unresolved.filter (· ≠ r.signature) = []) :
    ∃ x, h.begun? r.job = some x ∧ x.Awaits r ∧ job = x.toJob ∧ h.completion? (.resolve r) = some (x.extend r) := by
  obtain ⟨x, hx, rfl⟩ := exists_toJob_eq hj
  refine ⟨x, hx, ⟨(job_of_begun?_eq_some hx).symm, hs⟩, rfl, ?_⟩
  have hbefore : h.roster.isPending x.update.sender = true := by
    have hactive : h.roster.active.get? x.update.sender = some r.job := active_of_jobs hj
    rw [isPending, Assoc.contains, hactive]
    rfl
  have hafter : (h.roster.step (.resolve r)).1.isPending x.update.sender = false := by
    have herased : (h.roster.step (.resolve r)).1.active = h.roster.active.erase x.update.sender := by
      rw [step, resolve, hj]
      dsimp only
      rw [if_pos hs, hlast]
      rfl
    rw [isPending, Assoc.contains, herased, Assoc.get?_erase, if_pos rfl]
    rfl
  rw [completion?, hx, Option.map_some, Option.filter_some, PastUpdate.update_extend, hbefore, hafter]
  rfl

/-- What a roster holds of a resource is what its history says. -/
theorem resource?_roster (h : History) (a : FullAddress) : h.roster.resource? a = h.standing? a := by
  induction h generalizing a with
  | nil => rfl
  | cons c h ih =>
    rw [roster]
    cases c with
    | start b u =>
      rw [step]
      by_cases ha : u.sender = a
      · subst ha
        rw [resource?_start_self, standing?_start_self, ih, bits_standing?]
      · rw [resource?_start_of_ne _ _ _ ha, standing?_start_of_ne ha, ih]
    | resolve r =>
      -- without a completion the roster holds of each resource what it held
      have hkeeps (ho : ((roster h).step (.resolve r)).1.resource? a = (roster h).resource? a)
          (ha : ((roster h).step (.resolve r)).1.active = (roster h).active) :
          ((roster h).step (.resolve r)).1.resource? a = standing? (.resolve r :: h) a := by
        rw [ho, ih, standing?_cons_of_ne _ online?_resolve]
        rw [completion?_of_active_eq ha]
        rfl
      obtain ⟨-, he⟩ | ⟨job, hj, hs, ⟨-, he⟩ | ⟨hlast, he⟩⟩ := (roster h).resolve_cases r
      · exact hkeeps (by rw [step, he]) (by rw [step, he])
      · exact hkeeps (by rw [step, he]; rfl) (by rw [step, he])
      · obtain ⟨x, -, hawaits, hjob, hx⟩ := completion?_of_last hj hs hlast
        rw [step, he, resource?_complete, standing?_resolve_of_completion hx, hjob,
          PastUpdate.bits_extend_of_awaits x r hawaits, PastUpdate.update_extend]
        have hresource : x.toJob.resource = x.update.sender := rfl
        rw [hresource, ← ih]
        split
        · rename_i ha
          rw [← ha]
          rfl
        · rfl

/-- Further calls add resolutions to an update, unless another one is given its job. -/
theorem begun?_append (hx : h.begun? j = some x)
    (hz : begun? (more ++ h) j = some z) (hp : z.position = x.position) :
    ∃ rs, z = { x with since := x.since ++ rs } := by
  induction more generalizing z with
  | nil =>
    refine ⟨[], ?_⟩
    rw [List.append_nil]
    exact Option.some.inj (hz.symm.trans hx)
  | cons c more ih =>
    cases c with
    | start b u =>
      rw [List.cons_append, begun?_start] at hz
      split at hz
      · -- a new update comes after all those before it
        obtain rfl := Option.some.inj hz
        have hlt := position_lt hx
        have hlength : (more ++ h).length = more.length + h.length := List.length_append
        exact absurd hp (by dsimp only; omega)
      · exact ih hz hp
    | resolve r =>
      rw [List.cons_append, begun?_resolve] at hz
      obtain ⟨y, hy, rfl⟩ := Option.map_eq_some_iff.1 hz
      obtain ⟨rs, rfl⟩ := ih hy hp
      refine ⟨rs ++ [r], ?_⟩
      rw [PastUpdate.extend, List.append_assoc]

/-! Once all that it waits for is resolved, an update is completed, unless its resource has sent another one. -/

/-- An update that more calls have not completed. What they have resolved it waits for no more. -/
structure Persists (h : History) (x : PastUpdate) (more : History) (z : PastUpdate) : Prop where
  begun : begun? (more ++ h) x.job = some z
  live : (roster (more ++ h)).jobs.get? x.job = some z.toJob
  position : z.position = x.position
  sender : z.update.sender = x.update.sender
  waits : z.outstanding ⊆ x.outstanding
  resolved : ∀ r, Call.resolve r ∈ more → r.job = x.job → r.signature ∉ z.outstanding

theorem Persists.start (hz : Persists h x more z) (hr : (roster (more ++ h)).Coherent)
    (hu : u.sender ≠ x.update.sender) : Persists h x (.start b u :: more) z := by
  have hid : (⟨(roster (more ++ h)).nextJob⟩ : JobId) = nextJob (more ++ h) := congrArg JobId.mk (roster_nextJob _)
  -- the job is taken, so that a new update is given another one
  have hnew : ¬ (u.untrusted b ≠ [] ∧ nextJob (more ++ h) = x.job) := by
    rintro ⟨-, hj⟩
    have hfree := hr.jobs_get?_nextJob
    rw [hid, hj, hz.live] at hfree
    exact absurd hfree (by simp)
  refine ⟨?_, ?_, hz.position, hz.sender, hz.waits, fun r hm => ?_⟩
  · rw [List.cons_append, begun?_start, if_neg hnew]
    exact hz.begun
  · rw [List.cons_append, roster, step, jobs_start, hid, if_neg hnew]
    apply hr.jobs_supersede_eq_some.2
    exact ⟨hz.live, fun hs => hu (hs.symm.trans hz.sender)⟩
  · exact hz.resolved r (by simpa using hm)

/-- A resolution leaves an update waiting or completes it. -/
theorem Persists.resolve (hz : Persists h x more z) (r : Resolution) :
    Persists h x (.resolve r :: more) (z.extend r) ∨
      ∃ y, completion? (more ++ h) (.resolve r) = some y ∧ y.position = x.position := by
  have hjob : z.job = x.job := job_of_begun?_eq_some hz.begun
  have hsub : (z.extend r).outstanding ⊆ z.outstanding := by
    rw [PastUpdate.outstanding_extend]
    split
    · exact fun t ht => List.mem_of_mem_filter ht
    · exact List.Subset.refl _
  -- the update waits on as long as its job lives
  have hlives (hl : ((roster (more ++ h)).resolve r.job r.signature r.features).1.jobs.get? x.job =
      some (z.extend r).toJob) : Persists h x (.resolve r :: more) (z.extend r) := by
    refine ⟨?_, hl, hz.position, hz.sender, fun t ht => hz.waits (hsub ht), fun r' hr' hj ht => ?_⟩
    · rw [List.cons_append, begun?_resolve, hz.begun]
      rfl
    · rcases List.mem_cons.1 hr' with heq | hmore
      · obtain rfl := Call.resolve.inj heq
        rw [PastUpdate.outstanding_extend, if_pos (hj.trans hjob.symm)] at ht
        exact absurd (List.mem_filter.1 ht).2 (by simp)
      · exact hz.resolved r' hmore hj (hsub ht)
  by_cases hj : r.job = x.job
  · have hlive : (roster (more ++ h)).jobs.get? r.job = some z.toJob := hj ▸ hz.live
    obtain ⟨hno, he⟩ | ⟨job, hget, hs, ⟨-, he⟩ | ⟨hlast, -⟩⟩ := (roster (more ++ h)).resolve_cases r
    · left
      apply hlives
      rw [he, hz.live, PastUpdate.toJob_extend_of_not_awaits fun ha => hno _ hlive ha.2]
    · left
      apply hlives
      obtain rfl := Option.some.inj (hget.symm.trans hlive)
      rw [he, Assoc.get?_set, if_pos hj, PastUpdate.toJob_extend_of_awaits ⟨hj.trans hjob.symm, hs⟩]
      rfl
    · right
      obtain ⟨y, hy, -, -, hc⟩ := completion?_of_last hget hs hlast
      rw [hj, hz.begun] at hy
      obtain rfl := Option.some.inj hy
      exact ⟨_, hc, hz.position⟩
  · left
    apply hlives
    rw [jobs_resolve_of_ne _ hj, hz.live, PastUpdate.toJob_extend_of_not_awaits fun ha => hj (ha.1.trans hjob)]

/-- Whether one of more calls completes an update. -/
def Completes (h : History) (x : PastUpdate) (more : History) : Prop :=
  ∃ later r earlier y, more = later ++ .resolve r :: earlier ∧
    completion? (earlier ++ h) (.resolve r) = some y ∧ y.position = x.position

theorem completes_or_persists (hn : jobCount (more ++ h) < 2 ^ 64) (hx : h.begun? x.job = some x)
    (hl : h.roster.jobs.get? x.job = some x.toJob)
    (hu : ∀ b u, Call.start b u ∈ more → u.sender ≠ x.update.sender) :
    Completes h x more ∨ ∃ z, Persists h x more z := by
  induction more with
  | nil =>
    have hnothing (r : Resolution) (hr : Call.resolve r ∈ []) : r.job = x.job → r.signature ∉ x.outstanding :=
      absurd hr List.not_mem_nil
    exact Or.inr ⟨x, hx, hl, rfl, rfl, List.Subset.refl _, hnothing⟩
  | cons c more ih =>
    have hold : jobCount (more ++ h) < 2 ^ 64 := Nat.lt_of_le_of_lt (List.sublist_cons_self c _).countP_le hn
    obtain ⟨later, r, earlier, y, hmore, hy⟩ | ⟨z, hz⟩ := ih hold fun b u hm => hu b u (List.mem_cons_of_mem c hm)
    · exact Or.inl ⟨c :: later, r, earlier, y, by rw [hmore, List.cons_append], hy⟩
    · cases c with
      | start b u => exact Or.inr ⟨z, hz.start (coherent _ hold) (hu b u List.mem_cons_self)⟩
      | resolve r =>
        obtain hz | ⟨y, hy⟩ := hz.resolve r
        · exact Or.inr ⟨_, hz⟩
        · exact Or.inl ⟨[], r, more, y, rfl, hy⟩

theorem completes (hn : jobCount (more ++ h) < 2 ^ 64) (hx : h.begun? x.job = some x)
    (hl : h.roster.jobs.get? x.job = some x.toJob)
    (hu : ∀ b u, Call.start b u ∈ more → u.sender ≠ x.update.sender)
    (hall : ∀ t ∈ x.outstanding, ∃ r, Call.resolve r ∈ more ∧ r.job = x.job ∧ r.signature = t) :
    Completes h x more := by
  obtain hc | ⟨z, hz⟩ := completes_or_persists hn hx hl hu
  · exact hc
  · -- a live job waits for something, but all of it was resolved
    have hne : z.outstanding ≠ [] := (coherent _ hn).unresolved_ne_nil hz.live
    obtain ⟨t, ht⟩ := List.exists_mem_of_ne_nil _ hne
    obtain ⟨r, hr, hj, rfl⟩ := hall t (hz.waits ht)
    exact absurd ht (hz.resolved r hr hj)

/-! An update of which one bundle brings nothing. -/

/-- How an update fares once it was told nothing of a bundle: it is completed as soon as all others are resolved, unless
its resource has sent another one, and whenever it is, the others are what it grants. -/
structure CompletesWithout (h : History) (x : PastUpdate) (s : CapabilitySignature) : Prop where
  completes : ∀ more : History, jobCount (more ++ .resolve ⟨x.job, s, .empty⟩ :: h) < 2 ^ 64 →
    (∀ b u, Call.start b u ∈ more → u.sender ≠ x.update.sender) →
    (∀ t ∈ x.outstanding, t ≠ s → ∃ r, Call.resolve r ∈ more ∧ r.job = x.job ∧ r.signature = t) →
    Completes h x (more ++ [.resolve ⟨x.job, s, .empty⟩])
  grants : ∀ (k : History) (r : Resolution) (y : PastUpdate), .resolve ⟨x.job, s, .empty⟩ :: h <:+ .resolve r :: k →
    r.job = x.job → k.completion? (.resolve r) = some y → y.position = x.position →
    y.bits = .unionAll ((y.update.signatures.filter (· ≠ s)).map fun t => (y.features t).capabilities) ∧
    (roster (.resolve r :: k)).resourceCapabilities? y.update.sender =
      (k.roster.resourceCapabilities? y.update.sender).map fun _ => y.bits

theorem resourceCapabilities?_of_completion (hx : h.completion? (.resolve r) = some x) :
    (roster (.resolve r :: h)).resourceCapabilities? x.update.sender =
      (h.roster.resourceCapabilities? x.update.sender).map fun _ => x.bits := by
  rw [resourceCapabilities?_eq, resourceCapabilities?_eq, resource?_roster, resource?_roster,
    standing?_resolve_of_completion hx, if_pos rfl, Option.map_map, Option.map_map]
  rfl

/-- The first that an update is told of a bundle is what it gets of it. -/
theorem bits_of_completion {s : CapabilitySignature} {k : History} {y : PastUpdate} (hx : h.begun? x.job = some x)
    (hs : s ∈ x.outstanding) (hk : .resolve ⟨x.job, s, .empty⟩ :: h <:+ .resolve r :: k) (hr : r.job = x.job)
    (hy : k.completion? (.resolve r) = some y) (hp : y.position = x.position) :
    y.bits = .unionAll ((y.update.signatures.filter (· ≠ s)).map fun t => (y.features t).capabilities) := by
  obtain ⟨-, htrust, hnone⟩ := x.mem_outstanding.1 hs
  let e : Resolution := ⟨x.job, s, .empty⟩
  have hfirst : begun? (.resolve e :: h) x.job = some (x.extend e) := by
    rw [begun?_resolve, hx]
    rfl
  obtain ⟨rs, hlast⟩ : ∃ rs, y = { x.extend e with since := (x.extend e).since ++ rs } := by
    obtain ⟨hmap, -⟩ := Option.filter_eq_some_iff.1 hy
    obtain ⟨more, hmore⟩ := hk
    have hthen : begun? (more ++ .resolve e :: h) x.job = some y := by
      rw [hmore, begun?_resolve, ← hr, hmap]
    exact begun?_append hfirst hthen hp
  have hextend : (x.extend e).resolution? s = some .empty := by
    rw [PastUpdate.resolution?_extend, hnone, Resolution.features?, if_pos ⟨rfl, rfl⟩]
    rfl
  have hresolved : y.resolution? s = some .empty := by
    rw [PastUpdate.resolution?] at hextend
    rw [hlast, PastUpdate.resolution?, List.findSome?_append, hextend]
    rfl
  apply PastUpdate.bits_eq_of_features_eq_empty
  have hbundles : y.bundles = x.bundles := by rw [hlast, PastUpdate.bundles_extend]
  rw [PastUpdate.features, hbundles, htrust, if_neg Bool.false_ne_true, hresolved, Option.getD_some]

theorem completesWithout {s : CapabilitySignature} (hx : h.begun? x.job = some x)
    (hl : h.roster.jobs.get? x.job = some x.toJob) (hs : s ∈ x.outstanding) : CompletesWithout h x s where
  completes more hn hu hall := by
    apply History.completes _ hx hl
    · intro b u hm
      exact hu b u (by simpa using hm)
    · intro t ht
      by_cases hts : t = s
      · exact ⟨⟨x.job, s, .empty⟩, by simp, rfl, hts.symm⟩
      · obtain ⟨r, hr, hj⟩ := hall t ht hts
        exact ⟨r, List.mem_append_left _ hr, hj⟩
    · rw [List.append_assoc]
      exact hn
  grants k r y hk hr hy hp := ⟨bits_of_completion hx hs hk hr hy hp, resourceCapabilities?_of_completion hy⟩

end History
end PresenceCaps.Roster
