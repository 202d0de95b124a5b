import PresenceCaps.Proofs.Roster.Coherence
import PresenceCaps.Proofs.Roster.Contacts
import PresenceCaps.Proofs.Roster.Updates

/-!
A roster is what its history says: its resources, active updates and live jobs are those that the calls alone
determine, and a contact's published capabilities are the union of what its online resources grant.
-/
namespace PresenceCaps.Roster

namespace History
variable {h : History} {a : FullAddress} {b : Bundles} {u : PresenceUpdate} {r : Resolution} {x : PastUpdate}
  {xs : List PastUpdate}

theorem completedBits_cons : completedBits (x :: xs) =
    if x.isAvailable then if x.isComplete then x.bits else completedBits xs else .none := by
  unfold completedBits
  cases ha : x.isAvailable with
  | false => simp [ha]
  | true => cases hc : x.isComplete <;> simp [ha, hc]

theorem isAvailable_of_not_isComplete (hx : x.isComplete = false) : x.isAvailable = true := by
  cases hu : x.update.availability with
  | available => simp [PastUpdate.isAvailable, hu]
  | unavailable =>
    simp [PastUpdate.isComplete, PastUpdate.outstanding, PresenceUpdate.untrusted, PresenceUpdate.signatures, hu]
      at hx

theorem isComplete_eq_false_of_awaits (hx : x.Awaits r) : x.isComplete = false := by
  have hne : x.outstanding ≠ [] := List.ne_nil_of_mem hx.2
  simpa [PastUpdate.isComplete] using hne

theorem waiting?_eq_some_iff :
    h.waiting? a = some x ↔ (h.updates a).head? = some x ∧ x.isComplete = false := by
  simp [waiting?, Option.filter_eq_some_iff]

/-! What one more call does to the view of a resource. -/

theorem resource?_of_updates_eq {k : History} (he : k.updates a = h.updates a) : k.resource? a = h.resource? a := by
  rw [resource?, resource?, bits, bits, he]

theorem waiting?_of_updates_eq {k : History} (he : k.updates a = h.updates a) : k.waiting? a = h.waiting? a := by
  rw [waiting?, waiting?, he]

theorem resource?_of_updates_eq_cons (hx : h.updates a = x :: xs) : h.resource? a =
    if x.isAvailable then some ⟨if x.isComplete then x.bits else completedBits xs, x.update.priority⟩ else none := by
  rw [resource?, bits, hx, completedBits_cons, List.head?_cons, Option.filter_some]
  cases x.isAvailable <;> rfl

theorem waiting?_of_updates_eq_cons (hx : h.updates a = x :: xs) :
    h.waiting? a = if x.isComplete then none else some x := by
  rw [waiting?, hx]
  cases hc : x.isComplete <;> simp [hc]

/-- A resource that is not online grants nothing. -/
theorem bits_eq_of_resource? (h : History) (a : FullAddress) :
    ((h.resource? a).map (·.bits)).getD .none = h.bits a := by
  cases hx : h.updates a with
  | nil => simp [resource?, bits, hx, completedBits]
  | cons x xs =>
    rw [resource?_of_updates_eq_cons hx, bits, hx, completedBits_cons]
    split <;> rfl

theorem waiting?_start_self : waiting? (.start b u :: h) u.sender =
    if u.untrusted b = [] then none else some ⟨b, u, h.length, h.nextJob, []⟩ := by
  rw [waiting?_of_updates_eq_cons updates_start_self, PastUpdate.isComplete,
    PastUpdate.outstanding_of_since_eq_nil _ rfl]
  simp only [List.isEmpty_iff]

theorem resource?_start_self : resource? (.start b u :: h) u.sender = if u.availability = .available then
      some ⟨if u.untrusted b = [] then trustedBits b u.signatures else h.bits u.sender, u.priority⟩
    else none := by
  rw [resource?_of_updates_eq_cons updates_start_self, PastUpdate.isAvailable, PastUpdate.isComplete,
    PastUpdate.outstanding_of_since_eq_nil _ rfl, PastUpdate.bits_of_since_eq_nil _ rfl]
  simp only [List.isEmpty_iff, decide_eq_true_eq]
  rfl

theorem updates_resolve_of_eq_cons (hu : h.updates a = x :: xs) :
    updates (.resolve r :: h) a = x.extend r :: xs := by
  rw [updates_resolve, hu]
  rfl

theorem isComplete_extend_of_not_awaits (hn : ¬ x.Awaits r) : (x.extend r).isComplete = x.isComplete := by
  rw [PastUpdate.isComplete, x.outstanding_extend_of_not_awaits r hn, PastUpdate.isComplete]

/-- Only an update that waits can await a resolution. -/
theorem not_awaits_of_waiting? (hu : h.updates a = x :: xs) (hx : ∀ y, h.waiting? a = some y → ¬ y.Awaits r) :
    ¬ x.Awaits r := by
  intro ha
  refine hx x ?_ ha
  rw [waiting?_of_updates_eq_cons hu, if_neg (by simp [isComplete_eq_false_of_awaits ha])]

/-- A resolution that no update of the resource awaits changes nothing there. -/
theorem resource?_resolve_of_not_awaits (hx : ∀ x, h.waiting? a = some x → ¬ x.Awaits r) :
    resource? (.resolve r :: h) a = h.resource? a := by
  cases hu : h.updates a with
  | nil => exact resource?_of_updates_eq (by rw [updates_resolve, hu]; rfl)
  | cons x xs =>
    have hn := not_awaits_of_waiting? hu hx
    rw [resource?_of_updates_eq_cons (updates_resolve_of_eq_cons hu), resource?_of_updates_eq_cons hu,
      isComplete_extend_of_not_awaits hn, x.bits_extend_of_not_awaits r hn]
    rfl

theorem waiting?_resolve_of_not_awaits (hx : ∀ x, h.waiting? a = some x → ¬ x.Awaits r) :
    waiting? (.resolve r :: h) a = (h.waiting? a).map (·.extend r) := by
  cases hu : h.updates a with
  | nil =>
    rw [waiting?, updates_resolve, waiting?, hu]
    rfl
  | cons x xs =>
    have hn := not_awaits_of_waiting? hu hx
    rw [waiting?_of_updates_eq_cons (updates_resolve_of_eq_cons hu), waiting?_of_updates_eq_cons hu,
      isComplete_extend_of_not_awaits hn]
    split <;> rfl

/-- A resolution that the waiting update of a resource awaits completes it or shortens what it waits for. -/
theorem waiting?_resolve_of_awaits (hy : h.waiting? a = some x) :
    waiting? (.resolve r :: h) a = if (x.extend r).isComplete then none else some (x.extend r) := by
  obtain ⟨hhead, -⟩ := waiting?_eq_some_iff.1 hy
  obtain ⟨xs, hxs⟩ := List.head?_eq_some_iff.1 hhead
  rw [waiting?_of_updates_eq_cons (updates_resolve_of_eq_cons hxs)]

theorem resource?_resolve_of_awaits (hy : h.waiting? a = some x) : resource? (.resolve r :: h) a =
    if (x.extend r).isComplete then (h.resource? a).map fun y => { y with bits := (x.extend r).bits }
    else h.resource? a := by
  obtain ⟨hhead, hopen⟩ := waiting?_eq_some_iff.1 hy
  obtain ⟨xs, hxs⟩ := List.head?_eq_some_iff.1 hhead
  have ha : x.isAvailable = true := isAvailable_of_not_isComplete hopen
  -- being completed or not, the update stays available
  have ha' : (x.extend r).isAvailable = true := ha
  rw [resource?_of_updates_eq_cons (updates_resolve_of_eq_cons hxs), resource?_of_updates_eq_cons hxs, ha, ha',
    hopen]
  cases (x.extend r).isComplete <;> rfl

end History

open History

/-- The roster holds what the history says of every resource and of every update that waits. -/
structure Replays (h : History) (r : Roster) : Prop where
  resource : ∀ a, r.resource? a = h.resource? a
  active : ∀ a, r.active.get? a = (h.waiting? a).map PastUpdate.job
  job : ∀ {a x}, h.waiting? a = some x → r.jobs.get? x.job = some ⟨a, x.outstanding, x.bits⟩

namespace Replays
variable {h : History} {r : Roster}

theorem empty : Replays [] .empty := by
  constructor
  · intro a
    rfl
  · intro a
    rfl
  · intro a x hx
    simp [waiting?, updates, updatesThen] at hx

/-- A new update has no resolutions yet. -/
theorem start (hr : Replays h r) (hc : r.Coherent) (hn : (⟨r.nextJob⟩ : JobId) = h.nextJob) (b : Bundles)
    (u : PresenceUpdate) : Replays (.start b u :: h) (r.start b u).roster := by
  constructor
  · intro a
    by_cases ha : u.sender = a
    · subst ha
      rw [Roster.resource?_start_self, History.resource?_start_self, hr.resource, h.bits_eq_of_resource?]
    · rw [resource?_start_of_ne _ _ b ha, resource?_of_updates_eq (updates_start_of_ne ha)]
      exact hr.resource a
  · intro a
    rw [active_start]
    by_cases ha : u.sender = a
    · subst ha
      rw [if_pos rfl, waiting?_start_self, hn]
      split <;> rfl
    · rw [if_neg ha, waiting?_of_updates_eq (updates_start_of_ne ha)]
      exact hr.active a
  · intro a y hy
    rw [jobs_start]
    by_cases ha : u.sender = a
    · subst ha
      rw [waiting?_start_self] at hy
      split at hy
      · exact absurd hy (by simp)
      · rename_i hq
        obtain rfl := Option.some.inj hy
        rw [if_pos ⟨hq, hn⟩, PastUpdate.outstanding_of_since_eq_nil _ rfl, PastUpdate.bits_of_since_eq_nil _ rfl]
    · -- another resource's job is neither the superseded nor the new one
      rw [waiting?_of_updates_eq (updates_start_of_ne ha)] at hy
      have hj := hr.job hy
      have hne : (⟨r.nextJob⟩ : JobId) ≠ y.job := by
        intro he
        rw [← he, hc.jobs_get?_nextJob] at hj
        exact absurd hj (by simp)
      rw [if_neg fun hb => hne hb.2]
      exact hc.jobs_supersede_eq_some.2 ⟨hj, Ne.symm ha⟩

/-- The live job of a roster is that of an update which waits. -/
theorem exists_waiting (hr : Replays h r) (hc : r.Coherent) {j : JobId} {job : Job}
    (hj : r.jobs.get? j = some job) : ∃ x, h.waiting? job.resource = some x ∧ x.job = j ∧
      job.unresolved = x.outstanding ∧ job.bits = x.bits := by
  have ha := hc.active hj
  rw [hr.active, Option.map_eq_some_iff] at ha
  obtain ⟨x, hx, rfl⟩ := ha
  have hjob := hr.job hx
  rw [hj] at hjob
  have he := Option.some.inj hjob
  exact ⟨x, hx, rfl, congrArg Job.unresolved he, congrArg Job.bits he⟩

/-- What a resolution does to the resources that do not await it. -/
theorem of_not_awaits (hr : Replays h r) {x : Resolution} {a : FullAddress}
    (hn : ∀ y, h.waiting? a = some y → ¬ y.Awaits x) :
    r.resource? a = History.resource? (.resolve x :: h) a ∧
      r.active.get? a = (waiting? (.resolve x :: h) a).map PastUpdate.job ∧
      ∀ y, waiting? (.resolve x :: h) a = some y → r.jobs.get? y.job = some ⟨a, y.outstanding, y.bits⟩ := by
  rw [resource?_resolve_of_not_awaits hn, waiting?_resolve_of_not_awaits hn]
  refine ⟨hr.resource a, ?_, ?_⟩
  · rw [hr.active, Option.map_map]
    rfl
  · intro y hy
    obtain ⟨z, hz, rfl⟩ := Option.map_eq_some_iff.1 hy
    rw [z.outstanding_extend_of_not_awaits x (hn z hz), z.bits_extend_of_not_awaits x (hn z hz)]
    exact hr.job hz

/-- An awaited resolution concerns one resource and one job; the rest stays as it is. -/
theorem of_awaits (hr : Replays h r) {x : Resolution} {job : Job} (hj : r.jobs.get? x.job = some job)
    {r' : Roster} (hres : ∀ a, job.resource ≠ a → r'.resource? a = r.resource? a)
    (hact : ∀ a, job.resource ≠ a → r'.active.get? a = r.active.get? a)
    (hjobs : ∀ j, x.job ≠ j → r'.jobs.get? j = r.jobs.get? j)
    (hres' : r'.resource? job.resource = History.resource? (.resolve x :: h) job.resource)
    (hact' : r'.active.get? job.resource = (waiting? (.resolve x :: h) job.resource).map PastUpdate.job)
    (hjob' : ∀ y, waiting? (.resolve x :: h) job.resource = some y →
      r'.jobs.get? y.job = some ⟨job.resource, y.outstanding, y.bits⟩) : Replays (.resolve x :: h) r' := by
  -- an update of another resource has another job
  have hother {a : FullAddress} {j : JobId} {other : Job} (ha : job.resource ≠ a)
      (ho : r.jobs.get? j = some other) (hoa : other.resource = a) : x.job ≠ j := by
    rintro rfl
    rw [hj] at ho
    exact ha ((congrArg Job.resource (Option.some.inj ho)).trans hoa)
  -- and so does not await the resolution
  have hn (a : FullAddress) (ha : job.resource ≠ a) (y : PastUpdate) (hy : h.waiting? a = some y) :
      ¬ y.Awaits x := fun haw => hother ha (hr.job hy) rfl haw.1
  constructor
  · intro a
    by_cases ha : job.resource = a
    · exact ha ▸ hres'
    · rw [hres a ha]
      exact (hr.of_not_awaits (hn a ha)).1
  · intro a
    by_cases ha : job.resource = a
    · exact ha ▸ hact'
    · rw [hact a ha]
      exact (hr.of_not_awaits (hn a ha)).2.1
  · intro a y hy
    by_cases ha : job.resource = a
    · subst ha
      exact hjob' y hy
    · have hy' := (hr.of_not_awaits (hn a ha)).2.2 y hy
      rw [hjobs y.job (hother ha hy' rfl), hy']

/-- The waiting update loses one bundle and goes on waiting, as does its job. -/
theorem shorten (hr : Replays h r) {x : Resolution} {job : Job} {y : PastUpdate} (hj : r.jobs.get? x.job = some job)
    (hy : h.waiting? job.resource = some y) (hyj : y.job = x.job) (hopen : (y.extend x).isComplete = false) :
    Replays (.resolve x :: h)
      { r with jobs := r.jobs.set x.job ⟨job.resource, (y.extend x).outstanding, (y.extend x).bits⟩ } := by
  have hwait : waiting? (.resolve x :: h) job.resource = some (y.extend x) := by
    rw [waiting?_resolve_of_awaits hy, hopen]
    rfl
  refine hr.of_awaits hj (fun _ _ => rfl) (fun _ _ => rfl) (fun j hne => ?_) ?_ ?_ fun z hz => ?_
  · rw [Assoc.get?_set, if_neg hne]
  · rw [resource?_resolve_of_awaits hy, hopen]
    exact hr.resource _
  · rw [hwait]
    exact (hr.active _).trans (by rw [hy]; rfl)
  · rw [hwait] at hz
    obtain rfl := Option.some.inj hz
    rw [Assoc.get?_set, y.job_extend, if_pos hyj.symm]

/-- The waiting update is completed: its job ends, and its resource is given what it grants. -/
theorem finish (hr : Replays h r) {x : Resolution} {job : Job} {y : PastUpdate} (hj : r.jobs.get? x.job = some job)
    (hy : h.waiting? job.resource = some y) (hdone : (y.extend x).isComplete = true) :
    Replays (.resolve x :: h)
      (complete { r with jobs := r.jobs.erase x.job, active := r.active.erase job.resource } job.resource
        (y.extend x).bits).1 := by
  have hwait : waiting? (.resolve x :: h) job.resource = none := by
    rw [waiting?_resolve_of_awaits hy, hdone]
    rfl
  refine hr.of_awaits hj (fun a ha => ?_) (fun a ha => ?_) (fun j hne => ?_) ?_ ?_ fun z hz => ?_
  · rw [resource?_complete, if_neg ha]
    rfl
  · rw [active_complete, Assoc.get?_erase, if_neg ha]
  · rw [jobs_complete, Assoc.get?_erase, if_neg hne]
  · rw [resource?_complete, if_pos rfl, resource?_resolve_of_awaits hy, hdone, ← hr.resource]
    rfl
  · rw [active_complete, Assoc.get?_erase, if_pos rfl, hwait]
    rfl
  · rw [hwait] at hz
    exact absurd hz (by simp)

theorem resolve (hr : Replays h r) (hc : r.Coherent) (x : Resolution) :
    Replays (.resolve x :: h) (r.resolve x.job x.signature x.features).1 := by
  obtain ⟨hi, he⟩ | ⟨job, hj, hs, hcase⟩ := r.resolve_cases x
  · -- no update awaits what the roster ignores
    have hn (a : FullAddress) (y : PastUpdate) (hy : h.waiting? a = some y) : ¬ y.Awaits x := by
      rintro ⟨hjob, hmem⟩
      exact hi _ (hjob ▸ hr.job hy) hmem
    rw [he]
    exact ⟨fun a => (hr.of_not_awaits (hn a)).1, fun a => (hr.of_not_awaits (hn a)).2.1,
      fun hy => (hr.of_not_awaits (hn _)).2.2 _ hy⟩
  · -- the job is that of a waiting update, and after the call it is so again
    obtain ⟨y, hy, hyj, hout, hbits⟩ := hr.exists_waiting hc hj
    have hout' : (y.extend x).outstanding = job.unresolved.filter (· ≠ x.signature) := by
      rw [y.outstanding_extend, if_pos hyj.symm, hout]
    have hbits' : (y.extend x).bits = job.bits.union x.features.capabilities := by
      rw [y.bits_extend_of_awaits x ⟨hyj.symm, hout ▸ hs⟩, hbits]
    rw [← hout', ← hbits'] at hcase
    obtain ⟨hl, he⟩ | ⟨hl, he⟩ := hcase
    · rw [he]
      exact hr.shorten hj hy hyj (by simpa [PastUpdate.isComplete] using hl)
    · rw [he]
      exact hr.finish hj hy (by simpa [PastUpdate.isComplete] using hl)

end Replays

/-- A roster replays its history as long as no job identifier comes round again. -/
theorem replays (h : History) (hn : h.jobCount < 2 ^ 64) : Replays h h.roster := by
  induction h with
  | nil => exact .empty
  | cons c h ih =>
    have hle : jobCount h ≤ jobCount (c :: h) := (List.sublist_cons_self c h).countP_le
    have hr := ih (by omega)
    have hc := coherent h (by omega)
    cases c with
    | start b u => exact hr.start hc (congrArg JobId.mk (roster_nextJob h)) b u
    | resolve x => exact hr.resolve hc x

namespace History
variable {h : History} {a : FullAddress}

theorem resource?_map_bits (h : History) (a : FullAddress) :
    (h.resource? a).map (·.bits) = if h.isOnline a then some (h.bits a) else none := by
  rw [resource?, isOnline]
  cases (h.updates a).head? with
  | none => rfl
  | some x => cases ha : x.isAvailable <;> simp [ha]

/-- A resource that is online has sent an update. -/
theorem mem_senders_of_isOnline (ha : h.isOnline a = true) : a ∈ h.filterMap Call.sender? := by
  have hne : h.updates a ≠ [] := by
    intro he
    simp [isOnline, he] at ha
  clear ha
  induction h with
  | nil => exact absurd rfl hne
  | cons c h ih =>
    rw [List.mem_filterMap]
    cases c with
    | start b u =>
      by_cases hu : u.sender = a
      · exact ⟨_, List.mem_cons_self, congrArg some hu⟩
      · obtain ⟨c, hc, hs⟩ := List.mem_filterMap.1 (ih (updates_start_of_ne hu ▸ hne))
        exact ⟨c, List.mem_cons_of_mem _ hc, hs⟩
    | resolve r =>
      have hne' : updates h a ≠ [] := fun he => hne (by rw [updates_resolve, he]; rfl)
      obtain ⟨c, hc, hs⟩ := List.mem_filterMap.1 (ih hne')
      exact ⟨c, List.mem_cons_of_mem _ hc, hs⟩

theorem mem_online {c : BareAddress} : a ∈ h.online c ↔ a.bare = c ∧ h.isOnline a = true := by
  rw [online, List.mem_filter]
  simp only [decide_eq_true_eq]
  exact ⟨And.right, fun ha => ⟨mem_senders_of_isOnline ha.2, ha⟩⟩

theorem resourceCapabilities?_eq_history (h : History) (hn : h.jobCount < 2 ^ 64) (a : FullAddress) :
    h.roster.resourceCapabilities? a = if h.isOnline a then some (h.bits a) else none := by
  rw [resourceCapabilities?_eq, (replays h hn).resource, resource?_map_bits]

theorem published_eq_history (h : History) (hn : h.jobCount < 2 ^ 64) (c : BareAddress) :
    h.roster.published c = .unionAll (.baseline :: (h.online c).map h.bits) := by
  have hcaps (a : FullAddress) (d : Capabilities) :
      (∃ x, h.roster.resource? a = some x ∧ x.bits = d) ↔ h.isOnline a = true ∧ h.bits a = d := by
    have he := h.resourceCapabilities?_eq_history hn a
    rw [resourceCapabilities?_eq] at he
    rw [← Option.map_eq_some_iff, he]
    split <;> simp_all
  -- both sides are unions, in different orders: compare them bit by bit
  refine Capabilities.eq_of_has_eq fun i => ?_
  rw [Bool.eq_iff_iff, has_published, Capabilities.has_unionAll_cons, Capabilities.has_unionAll_map]
  refine or_congr_right ⟨?_, ?_⟩
  · rintro ⟨name, x, hx, hi⟩
    obtain ⟨ho, hb⟩ := (hcaps _ _).1 ⟨x, hx, rfl⟩
    exact ⟨_, mem_online.2 ⟨rfl, ho⟩, hb ▸ hi⟩
  · rintro ⟨a, ha, hi⟩
    obtain ⟨rfl, ho⟩ := mem_online.1 ha
    obtain ⟨x, hx, hb⟩ := (hcaps a _).2 ⟨ho, rfl⟩
    exact ⟨a.resource, x, hx, hb ▸ hi⟩

/-- What a contact publishes and what its resources grant are functions of the calls: the baseline with what
the online resources grant, each of them its latest update that was completed since it came online. -/
theorem capabilities_eq_history (h : History) (hn : h.jobCount < 2 ^ 64) :
    (∀ c, h.roster.published c = .unionAll (.baseline :: (h.online c).map h.bits)) ∧
      ∀ a, h.roster.resourceCapabilities? a = if h.isOnline a then some (h.bits a) else none :=
  ⟨h.published_eq_history hn, h.resourceCapabilities?_eq_history hn⟩

/-- When the laptop comes online, its version is trusted and its extension has had one reply of the five that it needs.
The features that this reply had are not those that the extension is resolved to. -/
def trustedUpdate : History :=
  let version := CapabilitySignature.ofVersion Sample.clientNode "0.1"
  let video := CapabilitySignature.ofExtension Sample.clientNode "video"
  let bundles : Bundles :=
    ⟨5, [(version, ⟨.confirmed, 5, [], some Sample.tubesReply.featureSet, none, []⟩),
      (video, ⟨.pending, 1, [Sample.phone], some Sample.audioReply.featureSet, none, []⟩)]⟩
  [.resolve ⟨⟨0⟩, video, Sample.videoExtensionReply.featureSet⟩,
    .start bundles (Sample.available Sample.laptop { Sample.advertisement "0.1" with ext := ["video"] })]

/-- In the one run all bundles are asked for. In the other, the features stored for the trusted version count beside the
resolved ones of the extension. -/
theorem capabilities_of_replacedUpdate : (replacedUpdate.jobCount < 2 ^ 64 ∧
    replacedUpdate.roster.published Sample.bob = Capabilities.baseline.union .tubes ∧
    replacedUpdate.roster.resourceCapabilities? Sample.laptop = some .tubes ∧
    replacedUpdate.roster.resourceCapabilities? Sample.phone = some .none) ∧
    trustedUpdate.jobCount < 2 ^ 64 ∧
    trustedUpdate.roster.published Sample.bob = .unionAll [.baseline, .tubes, .fileTransfer, .jingleVideo] ∧
    trustedUpdate.roster.resourceCapabilities? Sample.laptop =
      some (.unionAll [.tubes, .fileTransfer, .jingleVideo]) := by
  have hn : replacedUpdate.jobCount < 2 ^ 64 := by decide
  obtain ⟨hp, hr⟩ := capabilities_eq_history replacedUpdate hn
  have hn' : trustedUpdate.jobCount < 2 ^ 64 := by decide
  obtain ⟨hp', hr'⟩ := capabilities_eq_history trustedUpdate hn'
  refine ⟨⟨hn, ?_, ?_, ?_⟩, hn', ?_, ?_⟩
  · rw [hp]
    decide
  · rw [hr]
    decide
  · rw [hr]
    decide
  · rw [hp']
    decide
  · rw [hr']
    decide

end History
end PresenceCaps.Roster
