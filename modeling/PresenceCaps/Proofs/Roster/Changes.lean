import Mathlib.Data.List.Chain
import Mathlib.Data.List.Nodup
import PresenceCaps.Proofs.Roster.Coherence
import PresenceCaps.Proofs.Roster.Contacts
import PresenceCaps.Proofs.Roster.Updates

/-!
The changes that a roster reports. Every update gives rise to one at most, a waiting one not before its last
bundle is resolved, and those of a contact lead from the baseline to what it publishes.
-/
namespace PresenceCaps.Roster

/-- How a reported change relates what was published before and after a call. -/
def Reports (before after : BareAddress → Capabilities) : Option ContactChange → Prop
  | none => ∀ a, after a = before a
  | some x => x.old = before x.contact ∧ x.new = after x.contact ∧ x.old ≠ x.new ∧
    ∀ a, a ≠ x.contact → after a = before a

section
variable {r : Roster} {before : BareAddress → Capabilities}

/-- Publishing reports the change of one contact, or nothing where nothing changes. -/
theorem reports_publish (h : ∀ a, r.published a = before a) (c : BareAddress) :
    Reports before (r.publish c).1.published (r.publish c).2 := by
  have hafter (a : BareAddress) : (r.publish c).1.published a =
      if c = a then (r.contact c).effective else r.published a := by
    rw [published, contact_publish]
    split <;> rfl
  have hchange : (r.publish c).2 = if (r.contact c).effective = r.published c then none
      else some ⟨c, r.published c, (r.contact c).effective⟩ := rfl
  rw [hchange]
  split
  · rename_i he
    intro a
    rw [hafter, ← h]
    split
    · rename_i ha
      rw [he, ha]
    · rfl
  · rename_i hne
    refine ⟨h c, ?_, Ne.symm hne, fun a ha => ?_⟩
    · rw [hafter, if_pos rfl]
    · rw [hafter, if_neg (Ne.symm ha), h]

theorem reports_complete (h : ∀ a, r.published a = before a) (a : FullAddress) (bits : Capabilities) :
    Reports before (r.complete a bits).1.published (r.complete a bits).2 := by
  refine reports_publish (fun c => ?_) a.bare
  rw [published_updateContact, h]
  rfl

theorem reports_step (r : Roster) (call : Call) : Reports r.published (r.step call).1.published (r.step call).2 := by
  cases call with
  | start b u =>
    simp only [step]
    obtain ⟨-, -, hs⟩ | ⟨-, -, hs⟩ | ⟨-, -, hs⟩ := r.start_cases b u
    · rw [hs]
      refine reports_publish (fun c => ?_) _
      rw [published_updateContact, published_supersede]
      rfl
    · rw [hs]
      exact reports_complete (fun c => r.published_ready c u) _ _
    · -- the new job is none of the contacts' business
      rw [hs]
      exact fun c => r.published_ready c u
  | resolve x =>
    simp only [step]
    obtain ⟨-, hs⟩ | ⟨job, -, -, ⟨-, hs⟩ | ⟨-, hs⟩⟩ := r.resolve_cases x
    · rw [hs]
      exact fun _ => rfl
    · rw [hs]
      exact fun _ => rfl
    · rw [hs]
      exact reports_complete (fun _ => rfl) _ _

end

namespace History
variable {fits : Call → JobId → Bool} {since : List Resolution} {h : History} {j k : JobId} {b : Bundles}
  {u : PresenceUpdate} {r : Resolution} {x y : PastUpdate}

/-- The update on whose behalf a call is made, by the number of calls before it: the update itself, or the one
that was last given the job. -/
def cause? (h : History) : Call → Option Nat
  | .start .. => some h.length
  | .resolve r => (h.begun? r.job).map PastUpdate.position

/-- The reported changes, the latest first, each with the update that gave rise to it. -/
def changes : History → List (Option Nat × ContactChange)
  | [] => []
  | c :: h => (((roster h).step c).2.map fun x => (cause? h c, x)).toList ++ changes h

/-- The changes of a contact, the latest first. -/
def changesOf (h : History) (a : BareAddress) : List ContactChange :=
  (h.changes.map Prod.snd).filter fun x => x.contact = a

/-- The bundles that the update which was last given this job still waits for. -/
def outstanding (h : History) (j : JobId) : List CapabilitySignature :=
  ((h.begun? j).map PastUpdate.outstanding).getD []

/-- An update of the past is a call of the history, and its job the next one at the time. -/
theorem exists_suffix_of_mem_updatesThen (hx : x ∈ updatesThen fits since h) :
    fits (.start x.bundles x.update) x.job = true ∧ ∃ earlier : History,
      (.start x.bundles x.update :: earlier) <:+ h ∧ x.position = earlier.length ∧ x.job = earlier.nextJob := by
  induction h generalizing since with
  | nil => simp [updatesThen] at hx
  | cons c h ih =>
    have hlift {since : List Resolution} (hx : x ∈ updatesThen fits since h) :
        fits (.start x.bundles x.update) x.job = true ∧ ∃ earlier : History,
          (.start x.bundles x.update :: earlier) <:+ c :: h ∧ x.position = earlier.length ∧
            x.job = earlier.nextJob := by
      obtain ⟨hf, earlier, hs, hp⟩ := ih hx
      exact ⟨hf, earlier, hs.trans (List.suffix_cons c h), hp⟩
    cases c with
    | start b u =>
      rw [updatesThen] at hx
      split at hx
      · rename_i hf
        rcases List.mem_cons.1 hx with rfl | hx
        · exact ⟨hf, h, List.suffix_rfl, rfl, rfl⟩
        · exact hlift hx
      · exact hlift hx
    | resolve r => exact hlift hx

theorem mem_of_begun?_eq_some (hx : h.begun? j = some x) :
    x ∈ updatesThen (fun c k => c.waits && k = j) [] h := List.mem_of_mem_head? hx

theorem job_of_begun?_eq_some (hx : h.begun? j = some x) : x.job = j := by
  have hf := (exists_suffix_of_mem_updatesThen (mem_of_begun?_eq_some hx)).1
  simp only [Bool.and_eq_true, decide_eq_true_eq] at hf
  exact hf.2

theorem position_lt (hx : h.begun? j = some x) : x.position < h.length := by
  obtain ⟨-, earlier, hs, hp, -⟩ := exists_suffix_of_mem_updatesThen (mem_of_begun?_eq_some hx)
  have hl := hs.length_le
  rw [List.length_cons] at hl
  omega

/-- Updates that were given different jobs are different. -/
theorem eq_of_position_eq (hx : h.begun? j = some x) (hy : h.begun? k = some y) (hp : x.position = y.position) :
    j = k := by
  obtain ⟨-, e, he, hep, hej⟩ := exists_suffix_of_mem_updatesThen (mem_of_begun?_eq_some hx)
  obtain ⟨-, f, hf, hfp, hfj⟩ := exists_suffix_of_mem_updatesThen (mem_of_begun?_eq_some hy)
  have hl : (Call.start x.bundles x.update :: e).length = (Call.start y.bundles y.update :: f).length := by
    simp only [List.length_cons]
    omega
  -- two ends of one history that are equally long are the same
  have hs := (List.suffix_of_suffix_length_le he hf hl.le).eq_of_length hl
  rw [← job_of_begun?_eq_some hx, ← job_of_begun?_eq_some hy, hej, hfj, (List.cons.inj hs).2]

theorem begun?_start : begun? (.start b u :: h) j =
    if u.untrusted b ≠ [] ∧ h.nextJob = j then some ⟨b, u, h.length, h.nextJob, []⟩ else h.begun? j := by
  rw [begun?, updatesThen]
  by_cases hq : u.untrusted b = [] <;> by_cases hj : h.nextJob = j <;> simp [Call.waits, hq, hj, begun?]

theorem begun?_resolve : begun? (.resolve r :: h) j = (h.begun? j).map (·.extend r) := by
  rw [begun?, updatesThen_resolve, List.head?_modifyHead, begun?]

theorem nodup_outstanding (x : PastUpdate) : x.outstanding.Nodup :=
  (x.update.nodup_signatures.filter _).filter _

/-- The update behind a live job waits for the same bundles, and has given rise to no change. -/
def Unreported (h : History) : Prop :=
  ∀ {j job}, h.roster.jobs.get? j = some job →
    ∃ x, h.begun? j = some x ∧ job.unresolved = x.outstanding ∧ some x.position ∉ h.changes.map Prod.fst

/-- Every change is caused by an update of the history. -/
def Attributed (h : History) : Prop :=
  ∀ e ∈ h.changes, ∃ b u, ∃ earlier : History, (.start b u :: earlier) <:+ h ∧ e.1 = some earlier.length

theorem mem_changes_cons {c : Call} {e : Option Nat × ContactChange} :
    e ∈ changes (c :: h) ↔ (h.roster.step c).2 = some e.2 ∧ e.1 = h.cause? c ∨ e ∈ h.changes := by
  rw [changes, List.mem_append, Option.mem_toList, Option.map_eq_some_iff]
  constructor
  · rintro (⟨x, hx, rfl⟩ | he)
    · exact Or.inl ⟨hx, rfl⟩
    · exact Or.inr he
  · rintro (⟨hx, hc⟩ | he)
    · exact Or.inl ⟨e.2, hx, Prod.ext hc.symm rfl⟩
    · exact Or.inr he

theorem changes_cons_of_none (c : Call) (hc : (h.roster.step c).2 = none) : changes (c :: h) = h.changes := by
  rw [changes, hc]
  rfl

theorem length_not_mem_causes (ha : h.Attributed) : some h.length ∉ h.changes.map Prod.fst := by
  intro hm
  obtain ⟨e, he, hl⟩ := List.mem_map.1 hm
  obtain ⟨b, u, earlier, hs, hp⟩ := ha e he
  have hle := hs.length_le
  rw [hl] at hp
  rw [List.length_cons, ← Option.some.inj hp] at hle
  omega

theorem change_of_untrusted_ne_nil (r : Roster) (hq : u.untrusted b ≠ []) :
    (r.step (.start b u)).2 = none := by
  obtain ⟨-, hn, -⟩ | ⟨-, hn, -⟩ | ⟨-, -, hs⟩ := r.start_cases b u
  · exact absurd hn hq
  · exact absurd hn hq
  · rw [step, hs]

theorem unreported_start (hu : h.Unreported) (ha : h.Attributed) : Unreported (.start b u :: h) := by
  intro j job hj
  rw [roster, step, jobs_start, show (⟨(roster h).nextJob⟩ : JobId) = nextJob h from
    congrArg JobId.mk (roster_nextJob h)] at hj
  rw [begun?_start]
  split at hj
  · rename_i hnew
    rw [if_pos hnew, changes_cons_of_none _ (change_of_untrusted_ne_nil _ hnew.1)]
    refine ⟨_, rfl, ?_, length_not_mem_causes ha⟩
    rw [← Option.some.inj hj, PastUpdate.outstanding_of_since_eq_nil _ rfl]
  · rename_i hold
    rw [jobs_supersede] at hj
    split at hj
    · exact absurd hj (by simp)
    · obtain ⟨x, hx, hout, hp⟩ := hu hj
      rw [if_neg hold]
      refine ⟨x, hx, hout, ?_⟩
      rintro hm
      obtain ⟨e, he, hep⟩ := List.mem_map.1 hm
      rcases mem_changes_cons.1 he with ⟨-, hc⟩ | he
      · -- the new change belongs to the new update, which comes after all others
        have hlt := position_lt hx
        rw [hep, cause?] at hc
        exact absurd (Option.some.inj hc) (by omega)
      · exact hp (hep ▸ List.mem_map_of_mem he)

theorem unreported_resolve (hu : h.Unreported) : Unreported (.resolve r :: h) := by
  intro j job hj
  obtain ⟨old, hold, -, hun⟩ := (roster h).jobs_resolve_eq_some r hj
  obtain ⟨x, hx, hout, hp⟩ := hu hold
  have hxj : x.job = j := job_of_begun?_eq_some hx
  refine ⟨x.extend r, ?_, ?_, ?_⟩
  · rw [begun?_resolve, hx]
    rfl
  · rw [hun, hout, x.outstanding_extend, hxj]
  · intro hm
    obtain ⟨e, he, hep⟩ := List.mem_map.1 hm
    rcases mem_changes_cons.1 he with ⟨hc, hcause⟩ | he
    · -- the change belongs to a job that has ended with it, and this one is live
      have hne : r.job ≠ j := by
        rintro rfl
        rw [roster, step, (roster h).jobs_of_resolve_eq_some hc] at hj
        exact absurd hj (by simp)
      rw [hep, cause?] at hcause
      obtain ⟨y, hy, hyp⟩ := Option.map_eq_some_iff.1 hcause.symm
      exact hne (eq_of_position_eq hy hx hyp)
    · exact hp (hep ▸ List.mem_map_of_mem he)

/-- A call that reports a change is made for an update that has given rise to none yet. -/
theorem cause?_not_mem (hu : h.Unreported) (ha : h.Attributed) {c : Call} {x : ContactChange}
    (hc : (h.roster.step c).2 = some x) : h.cause? c ∉ h.changes.map Prod.fst := by
  cases c with
  | start b u => exact length_not_mem_causes ha
  | resolve r =>
    rw [step] at hc
    obtain ⟨-, hs⟩ | ⟨job, hj, -, -⟩ := h.roster.resolve_cases r
    · rw [hs] at hc
      exact absurd hc (by simp)
    · obtain ⟨y, hy, -, hp⟩ := hu hj
      rw [cause?, hy]
      exact hp

theorem attributed_cons (hu : h.Unreported) (ha : h.Attributed) (c : Call) : Attributed (c :: h) := by
  intro e he
  rcases mem_changes_cons.1 he with ⟨hx, hc⟩ | he
  · cases c with
    | start b u => exact ⟨b, u, h, List.suffix_rfl, hc⟩
    | resolve r =>
      rw [step] at hx
      obtain ⟨-, hs⟩ | ⟨job, hj, -, -⟩ := h.roster.resolve_cases r
      · rw [hs] at hx
        exact absurd hx (by simp)
      · -- the job is live, so an update was given it
        obtain ⟨y, hy, -, -⟩ := hu hj
        obtain ⟨-, earlier, hsuf, hp, -⟩ := exists_suffix_of_mem_updatesThen (mem_of_begun?_eq_some hy)
        refine ⟨_, _, earlier, hsuf.trans (List.suffix_cons _ h), ?_⟩
        rw [hc, cause?, hy, Option.map_some, hp]
  · obtain ⟨b, u, earlier, hs, hp⟩ := ha e he
    exact ⟨b, u, earlier, hs.trans (List.suffix_cons c h), hp⟩

/-- Every history attributes its changes to updates, and to each at most one. -/
theorem unreported_and_attributed (h : History) : h.Unreported ∧ h.Attributed := by
  induction h with
  | nil => exact ⟨fun hj => absurd hj (by simp [roster, Roster.empty]), fun e he => absurd he (by simp [changes])⟩
  | cons c h ih =>
    refine ⟨?_, attributed_cons ih.1 ih.2 c⟩
    cases c with
    | start b u => exact unreported_start ih.1 ih.2
    | resolve r => exact unreported_resolve ih.1

theorem nodup_causes (h : History) : (h.changes.map Prod.fst).Nodup := by
  induction h with
  | nil => exact List.nodup_nil
  | cons c h ih =>
    obtain ⟨hu, ha⟩ := unreported_and_attributed h
    cases hc : (roster h |>.step c).2 with
    | none => rwa [changes_cons_of_none c hc]
    | some x =>
      rw [changes, hc]
      exact List.nodup_cons.2 ⟨cause?_not_mem hu ha hc, ih⟩

/-! The changes of one contact follow each other. -/

theorem changesOf_cons_of_some {c : Call} {x : ContactChange} (hc : (h.roster.step c).2 = some x) (a : BareAddress) :
    changesOf (c :: h) a = if x.contact = a then x :: h.changesOf a else h.changesOf a := by
  rw [changesOf, changes, hc]
  by_cases ha : x.contact = a <;> simp [changesOf, ha]

theorem old_ne_new (h : History) : ∀ e ∈ h.changes, e.2.old ≠ e.2.new := by
  induction h with
  | nil => simp [changes]
  | cons c h ih =>
    intro e he
    rcases mem_changes_cons.1 he with ⟨hx, -⟩ | he
    · have hr := reports_step (roster h) c
      rw [hx] at hr
      exact hr.2.2.1
    · exact ih e he

/-- What a contact publishes is where its latest change led to. -/
theorem published_eq_head_changesOf (h : History) (a : BareAddress) :
    h.roster.published a = ((h.changesOf a).head?.map (·.new)).getD .baseline := by
  induction h with
  | nil => rfl
  | cons c h ih =>
    have hr := reports_step (roster h) c
    cases hc : (roster h |>.step c).2 with
    | none =>
      rw [hc] at hr
      rw [changesOf, changes_cons_of_none c hc]
      exact (hr a).trans ih
    | some x =>
      rw [hc] at hr
      obtain ⟨-, hnew, -, hother⟩ := hr
      rw [changesOf_cons_of_some hc]
      split
      · rename_i ha
        exact ha ▸ hnew.symm
      · rename_i ha
        exact (hother a (Ne.symm ha)).trans ih

theorem isChain_changesOf (h : History) (a : BareAddress) :
    (h.changesOf a).IsChain (fun later earlier => later.old = earlier.new) ∧
      ∀ x ∈ (h.changesOf a).getLast?, x.old = .baseline := by
  induction h with
  | nil => exact ⟨.nil, by simp [changesOf, changes]⟩
  | cons c h ih =>
    cases hc : (roster h |>.step c).2 with
    | none =>
      rw [changesOf, changes_cons_of_none c hc]
      exact ih
    | some x =>
      rw [changesOf_cons_of_some hc]
      split
      · rename_i ha
        have hr := reports_step (roster h) c
        rw [hc] at hr
        -- a change starts at what was published, which is where the one before it led to
        have hold : x.old = ((changesOf h a).head?.map (·.new)).getD .baseline := by
          rw [hr.1, ha, published_eq_head_changesOf]
        refine ⟨List.isChain_cons.2 ⟨fun y hy => ?_, ih.1⟩, ?_⟩
        · rw [hold, Option.mem_def.1 hy]
          rfl
        · intro y hy
          cases he : changesOf h a with
          | nil =>
            rw [he] at hy hold
            obtain rfl := Option.some.inj hy
            exact hold
          | cons z zs =>
            rw [he, List.getLast?_cons_cons] at hy
            exact ih.2 y (he ▸ hy)
      · exact ih

/-! A waiting update reports nothing before its last bundle is resolved. -/

theorem published_eq_of_change_eq_none {r : Roster} {c : Call} (hc : (r.step c).2 = none) :
    (r.step c).1.published = r.published := by
  have hr := reports_step r c
  rw [hc] at hr
  exact funext hr

theorem start_of_job_eq_some (h : History) (hj : (h.roster.start b u).job = some j) :
    (h.roster.step (.start b u)).2 = none ∧ outstanding (.start b u :: h) j = (h.roster.start b u).queries := by
  obtain ⟨-, -, hs⟩ | ⟨-, -, hs⟩ | ⟨-, hq, hs⟩ := h.roster.start_cases b u
  · rw [hs] at hj
    exact absurd hj (by simp)
  · rw [hs] at hj
    exact absurd hj (by simp)
  · rw [hs] at hj
    have hnext : h.nextJob = j := by
      rw [← Option.some.inj hj, h.roster_nextJob]
      rfl
    refine ⟨change_of_untrusted_ne_nil _ hq, ?_⟩
    rw [outstanding, begun?_start, if_pos ⟨hq, hnext⟩, hs]
    exact PastUpdate.outstanding_of_since_eq_nil _ rfl

theorem eq_singleton_of_filter_ne_eq_nil {l : List CapabilitySignature} {s : CapabilitySignature} (hl : l.Nodup)
    (hs : s ∈ l) (hf : l.filter (· ≠ s) = []) : l = [s] := by
  by_contra hne
  obtain rfl | ⟨t, ht, hts⟩ := (hl.ne_singleton_iff s).1 hne
  · exact List.not_mem_nil hs
  · exact List.not_mem_nil (hf ▸ List.mem_filter.2 ⟨ht, decide_eq_true hts⟩)

theorem change_of_outstanding_ne (h : History) (hr : h.outstanding r.job ≠ [r.signature]) :
    (h.roster.step (.resolve r)).2 = none := by
  rw [step]
  obtain ⟨-, hs⟩ | ⟨job, hj, hmem, ⟨-, hs⟩ | ⟨hl, -⟩⟩ := h.roster.resolve_cases r
  · rw [hs]
  · rw [hs]
  · obtain ⟨x, hx, hout, -⟩ := (unreported_and_attributed h).1 hj
    rw [hout] at hmem hl
    refine absurd ?_ hr
    rw [outstanding, hx]
    exact eq_singleton_of_filter_ne_eq_nil (nodup_outstanding x) hmem hl

/-- Every change is due to one update, and every update gives rise to at most one. An update that leaves a job
waiting reports nothing, nor does any resolution for that job but the one of its last outstanding bundle, and
nothing published changes until then. The changes of a contact differ in what they lead from and to, start at the
baseline, follow each other, and end at what the contact publishes. -/
theorem one_change_per_update (h : History) :
    (∀ e ∈ h.changes, ∃ b u, ∃ earlier : History, (.start b u :: earlier) <:+ h ∧ e.1 = some earlier.length) ∧
    (h.changes.map Prod.fst).Nodup ∧
    (∀ b u j, (h.roster.start b u).job = some j → (h.roster.start b u).change = none ∧
      (h.roster.start b u).roster.published = h.roster.published ∧
      outstanding (.start b u :: h) j = (h.roster.start b u).queries) ∧
    (∀ r : Resolution, h.outstanding r.job ≠ [r.signature] →
      (h.roster.resolve r.job r.signature r.features).2 = none ∧
        (h.roster.resolve r.job r.signature r.features).1.published = h.roster.published) ∧
    (∀ e ∈ h.changes, e.2.old ≠ e.2.new) ∧
    ∀ a, (h.changesOf a).IsChain (fun later earlier => later.old = earlier.new) ∧
      (∀ x ∈ (h.changesOf a).getLast?, x.old = .baseline) ∧
      h.roster.published a = ((h.changesOf a).head?.map (·.new)).getD .baseline := by
  refine ⟨(unreported_and_attributed h).2, h.nodup_causes, fun b u j hj => ?_, fun r hr => ?_, h.old_ne_new,
    fun a => ⟨(h.isChain_changesOf a).1, (h.isChain_changesOf a).2, h.published_eq_head_changesOf a⟩⟩
  · obtain ⟨hc, hout⟩ := h.start_of_job_eq_some hj
    exact ⟨hc, published_eq_of_change_eq_none hc, hout⟩
  · have hc := h.change_of_outstanding_ne hr
    exact ⟨hc, published_eq_of_change_eq_none hc⟩

/-- The replaced update of the laptop reports nothing, its successor one change. -/
theorem one_change_of_replacedUpdate :
    replacedUpdate.changes = [(some 2, ⟨Sample.bob, .baseline, Capabilities.baseline.union .tubes⟩)] ∧
    (replacedUpdate.changes.map Prod.fst).Nodup ∧
    outstanding (replacedUpdate.drop 5) ⟨0⟩ ≠ [.ofExtension Sample.clientNode "video"] ∧
    (roster (replacedUpdate.drop 4)).published = (roster (replacedUpdate.drop 5)).published := by
  have hne : outstanding (replacedUpdate.drop 5) ⟨0⟩ ≠ [.ofExtension Sample.clientNode "video"] := by decide
  obtain ⟨-, -, -, hwait, -⟩ := one_change_per_update (replacedUpdate.drop 5)
  exact ⟨by decide, (one_change_per_update replacedUpdate).2.1, hne,
    (hwait ⟨⟨0⟩, .ofExtension Sample.clientNode "video", ⟨[Feature.jingle015Video], by decide⟩⟩ hne).2⟩

end History
end PresenceCaps.Roster
