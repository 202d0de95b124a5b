import PresenceCaps.Proofs.Roster.Changes
import PresenceCaps.Proofs.Roster.Commuting

/-!
Resolutions that arrive in another order. As long as no bundle of a job is resolved twice, the roster ends up the same,
every job reports one change at most, and the changes of a contact lead from the same capabilities to the same ones.
The resolutions of a single job report the same change, and that at the end.
-/
namespace PresenceCaps

/-- The changes of a contact among what some calls returned, in the order in which they came. -/
def contactChanges (c : BareAddress) (returned : List (Option ContactChange)) : List ContactChange :=
  (returned.filterMap id).filter fun x => x.contact = c

/-- Where the changes of a contact lead from and to, unless they lead back to where they began. -/
def netChange? (changes : List ContactChange) : Option (Capabilities × Capabilities) :=
  match changes.head?, changes.getLast? with
  | some first, some last => if first.old = last.new then none else some (first.old, last.new)
  | _, _ => none

namespace Roster

/-- The roster after some resolutions one after the other, and what each of them returned. -/
def resolveAll (r : Roster) : List Resolution → Roster × List (Option ContactChange)
  | [] => (r, [])
  | x :: xs =>
    let p := r.resolve x.job x.signature x.features
    let q := p.1.resolveAll xs
    (q.1, p.2 :: q.2)

/-- The changes that the resolutions for a job reported. -/
def reportedFor (r : Roster) (j : JobId) (xs : List Resolution) : List ContactChange :=
  ((xs.zip (r.resolveAll xs).2).filter fun p => p.1.job = j).filterMap Prod.snd

section
variable {r : Roster} {j : JobId} {job : Job} {x : Resolution} {xs ys : List Resolution} {c : BareAddress}

@[simp] theorem length_resolveAll (r : Roster) (xs : List Resolution) : (r.resolveAll xs).2.length = xs.length := by
  induction xs generalizing r with
  | nil => rfl
  | cons x xs ih => simp [resolveAll, ih]

/-! The state at the end. -/

/-- Each step is one of two neighbours that change places: the induction is on how the order arises. -/
theorem History.resolveAll_perm (h : History) (hp : xs.Perm ys)
    (hd : (xs.map fun x => (x.job, x.signature)).Nodup) :
    (h.roster.resolveAll xs).1 = (h.roster.resolveAll ys).1 := by
  induction hp generalizing h with
  | nil => rfl
  | cons x _ ih =>
    rw [List.map_cons, List.nodup_cons] at hd
    exact ih (.resolve x :: h) hd.2
  | swap x y l =>
    have hne : (x.job, x.signature) ≠ (y.job, y.signature) := by
      intro he
      simp [he] at hd
    have hswap := h.roster_resolve_comm hne
    have hboth (u v : Resolution) : (h.roster.resolveAll (u :: v :: l)).1 =
        ((roster (.resolve v :: .resolve u :: h)).resolveAll l).1 := rfl
    rw [hboth, hboth, hswap]
  | trans hxy _ ihxy ihyz =>
    have hy := (hxy.map fun x => (x.job, x.signature)).nodup_iff.1 hd
    exact (ihxy h hd).trans (ihyz h hy)

/-! What each job reports. -/

theorem resolve_jobs_eq_none (hj : r.jobs.get? j = none) (x : Resolution) :
    (r.resolve x.job x.signature x.features).1.jobs.get? j = none := by
  cases hget : (r.resolve x.job x.signature x.features).1.jobs.get? j with
  | none => rfl
  | some job =>
    obtain ⟨old, hold, -⟩ := r.jobs_resolve_eq_some x hget
    rw [hj] at hold
    exact absurd hold (by simp)

theorem reportedFor_cons (r : Roster) (j : JobId) (x : Resolution) (xs : List Resolution) :
    r.reportedFor j (x :: xs) =
      (if x.job = j then (r.resolve x.job x.signature x.features).2.toList else []) ++
        (r.resolve x.job x.signature x.features).1.reportedFor j xs := by
  unfold reportedFor
  rw [resolveAll]
  by_cases hx : x.job = j
  · rw [if_pos hx, List.zip_cons_cons, List.filter_cons_of_pos (by simpa using hx), List.filterMap_cons]
    cases (r.resolve x.job x.signature x.features).2 <;> rfl
  · rw [if_neg hx, List.zip_cons_cons, List.filter_cons_of_neg (by simpa using hx), List.nil_append]

theorem reportedFor_of_not_live (hj : r.jobs.get? j = none) (xs : List Resolution) : r.reportedFor j xs = [] := by
  induction xs generalizing r with
  | nil => rfl
  | cons x xs ih =>
    rw [reportedFor_cons, ih (resolve_jobs_eq_none hj x), List.append_nil]
    split
    · rename_i hx
      rw [resolve_of_not_live (hx ▸ hj)]
      rfl
    · rfl

/-- A job is gone once it has reported. -/
theorem length_reportedFor_le (r : Roster) (j : JobId) (xs : List Resolution) : (r.reportedFor j xs).length ≤ 1 := by
  induction xs generalizing r with
  | nil => exact Nat.zero_le 1
  | cons x xs ih =>
    rw [reportedFor_cons]
    split
    · rename_i hx
      cases hc : (r.resolve x.job x.signature x.features).2 with
      | none => exact ih _
      | some y =>
        have hgone := r.jobs_of_resolve_eq_some hc
        rw [reportedFor_of_not_live (hx ▸ hgone)]
        exact Nat.le_refl 1
    · exact ih _

/-! What each contact went through. -/

theorem contactChanges_cons_none (c : BareAddress) (cs : List (Option ContactChange)) :
    contactChanges c (none :: cs) = contactChanges c cs := by
  rw [contactChanges, List.filterMap_cons_none rfl, contactChanges]

theorem contactChanges_cons_some (c : BareAddress) (x : ContactChange) (cs : List (Option ContactChange)) :
    contactChanges c (some x :: cs) = if x.contact = c then x :: contactChanges c cs else contactChanges c cs := by
  rw [contactChanges, List.filterMap_cons, contactChanges]
  by_cases hx : x.contact = c <;> simp [hx]

/-- The changes of a contact lead from what it published to what it publishes. -/
theorem ends_contactChanges (r : Roster) (xs : List Resolution) (c : BareAddress) :
    let changes := contactChanges c (r.resolveAll xs).2
    (changes = [] → (r.resolveAll xs).1.published c = r.published c) ∧
    (∀ x ∈ changes.head?, x.old = r.published c) ∧
    ∀ x ∈ changes.getLast?, x.new = (r.resolveAll xs).1.published c := by
  induction xs generalizing r with
  | nil => simp [resolveAll, contactChanges]
  | cons x xs ih =>
    intro changes
    obtain ⟨hnil, hfirst, hlast⟩ := ih (r.resolve x.job x.signature x.features).1
    have hreport := reports_step r (.resolve x)
    rw [step] at hreport
    -- the first call either says nothing of the contact, and then its set is what it was, or reports a change of it
    cases hc : (r.resolve x.job x.signature x.features).2 with
    | none =>
      have hsame : changes = contactChanges c ((r.resolve x.job x.signature x.features).1.resolveAll xs).2 := by
        rw [← contactChanges_cons_none, ← hc]
        rfl
      rw [hc] at hreport
      rw [hsame, resolveAll, ← hreport c]
      exact ⟨hnil, hfirst, hlast⟩
    | some y =>
      have hcons : changes = if y.contact = c
          then y :: contactChanges c ((r.resolve x.job x.signature x.features).1.resolveAll xs).2
          else contactChanges c ((r.resolve x.job x.signature x.features).1.resolveAll xs).2 := by
        rw [← contactChanges_cons_some, ← hc]
        rfl
      rw [hc] at hreport
      obtain ⟨hold, hnew, -, hother⟩ := hreport
      rw [hcons, resolveAll]
      split
      · rename_i hy
        subst hy
        refine ⟨by simp, ?_, ?_⟩
        · intro z hz
          obtain rfl := Option.some.inj hz
          exact hold
        · intro z hz
          rw [List.getLast?_cons] at hz
          obtain rfl := Option.some.inj hz
          cases hrest : (contactChanges y.contact ((r.resolve x.job x.signature x.features).1.resolveAll xs).2).getLast? with
          | none =>
            rw [Option.getD_none, hnew]
            exact (hnil (List.getLast?_eq_none_iff.1 hrest)).symm
          | some w => exact hlast w hrest
      · rename_i hy
        rw [← hother c (Ne.symm hy)]
        exact ⟨hnil, hfirst, hlast⟩

/-- The net change of a contact can be read off what it publishes before and after. -/
theorem netChange?_contactChanges (r : Roster) (xs : List Resolution) (c : BareAddress) :
    netChange? (contactChanges c (r.resolveAll xs).2) =
      if r.published c = (r.resolveAll xs).1.published c then none
      else some (r.published c, (r.resolveAll xs).1.published c) := by
  obtain ⟨hnil, hfirst, hlast⟩ := r.ends_contactChanges xs c
  unfold netChange?
  cases hh : (contactChanges c (r.resolveAll xs).2).head? with
  | none =>
    have hsame := hnil (List.head?_eq_none_iff.1 hh)
    rw [if_pos hsame.symm]
  | some first =>
    cases hl : (contactChanges c (r.resolveAll xs).2).getLast? with
    | none =>
      rw [List.getLast?_eq_none_iff.1 hl] at hh
      exact absurd hh (by simp)
    | some last =>
      have hold : first.old = r.published c := hfirst first hh
      have hnew : last.new = (r.resolveAll xs).1.published c := hlast last hl
      simp only [hold, hnew]

/-! The resolutions of a single job. -/

/-- What a call reports is determined by what is published before and after it. -/
theorem Reports.unique {before after : BareAddress → Capabilities} {s t : Option ContactChange}
    (hs : Reports before after s) (ht : Reports before after t) : s = t := by
  cases s with
  | none =>
    cases t with
    | none => rfl
    | some y =>
      obtain ⟨hold, hnew, hne, -⟩ := ht
      rw [hold, hnew, hs y.contact] at hne
      exact absurd rfl hne
  | some x =>
    obtain ⟨hxold, hxnew, hxne, hxother⟩ := hs
    cases t with
    | none =>
      rw [hxold, hxnew, ht x.contact] at hxne
      exact absurd rfl hxne
    | some y =>
      obtain ⟨hyold, hynew, -, hyother⟩ := ht
      -- the contact is the only one whose set differs
      have hcontact : x.contact = y.contact := by
        by_contra hne
        rw [hxold, hxnew, hyother x.contact hne] at hxne
        exact hxne rfl
      obtain ⟨xc, xo, xn⟩ := x
      obtain ⟨yc, yo, yn⟩ := y
      obtain rfl : xc = yc := hcontact
      obtain rfl : xo = yo := hxold.trans hyold.symm
      obtain rfl : xn = yn := hxnew.trans hynew.symm
      rfl

/-- What a job still waits for after one of its resolutions is what the others are for. -/
theorem perm_unresolved_resolve (hd : ((x :: xs).map (·.signature)).Nodup)
    (hp : ((x :: xs).map (·.signature)).Perm job.unresolved) :
    (xs.map (·.signature)).Perm (job.resolve x).unresolved := by
  rw [List.map_cons, List.nodup_cons] at hd
  have hrest : ((x :: xs).map (·.signature)).filter (· ≠ x.signature) = xs.map (·.signature) := by
    rw [List.map_cons, List.filter_cons_of_neg (by simp), List.filter_eq_self]
    intro s hs
    have hsx : s ≠ x.signature := fun he => hd.1 (he ▸ hs)
    simpa using hsx
  have hfilter := hp.filter (· ≠ x.signature)
  rw [hrest] at hfilter
  rw [Job.unresolved_resolve]
  exact hfilter

/-- A resolution that leaves a job waiting reports nothing. -/
theorem resolve_of_open (hj : r.jobs.get? x.job = some job) (hs : x.signature ∈ job.unresolved)
    (hopen : (job.resolve x).unresolved ≠ []) : r.resolve x.job x.signature x.features =
      ({ r with jobs := r.jobs.set x.job (job.resolve x) }, none) := by
  rw [Job.unresolved_resolve] at hopen
  obtain ⟨hno, -⟩ | ⟨old, hold, -, ⟨-, hr⟩ | ⟨hdone, -⟩⟩ := r.resolve_cases x
  · exact absurd hs (hno job hj)
  · obtain rfl : job = old := Option.some.inj (hj.symm.trans hold)
    rw [hr, Job.resolve_of_mem hs]
  · obtain rfl : job = old := Option.some.inj (hj.symm.trans hold)
    exact absurd hdone hopen

/-- All bundles of a job resolved, only the last resolution may report something. -/
theorem resolveAll_of_one_job (hj : r.jobs.get? j = some job) (hjobs : ∀ x ∈ xs, x.job = j)
    (hd : (xs.map (·.signature)).Nodup) (hp : (xs.map (·.signature)).Perm job.unresolved) (hne : xs ≠ []) :
    ∃ s, (r.resolveAll xs).2 = List.replicate (xs.length - 1) none ++ [s] ∧
      Reports r.published (r.resolveAll xs).1.published s := by
  induction xs generalizing r job with
  | nil => exact absurd rfl hne
  | cons x xs ih =>
    obtain rfl : x.job = j := hjobs x List.mem_cons_self
    cases xs with
    | nil => exact ⟨(r.resolve x.job x.signature x.features).2, rfl, reports_step r (.resolve x)⟩
    | cons y ys =>
      have hleft := perm_unresolved_resolve hd hp
      have hmem : x.signature ∈ job.unresolved := hp.mem_iff.1 (by simp)
      have hopen : (job.resolve x).unresolved ≠ [] := by
        intro he
        rw [he] at hleft
        exact absurd hleft.length_eq (by simp)
      -- the job goes on waiting for the bundles of the other resolutions, which then report as claimed
      have hr := resolve_of_open hj hmem hopen
      have hget : (r.resolve x.job x.signature x.features).1.jobs.get? x.job = some (job.resolve x) := by
        rw [hr, Assoc.get?_set, if_pos rfl]
      have hrest : ((y :: ys).map (·.signature)).Nodup := by
        rw [List.map_cons, List.nodup_cons] at hd
        exact hd.2
      obtain ⟨s, hs, hends⟩ := ih hget (fun z hz => hjobs z (List.mem_cons_of_mem x hz)) hrest hleft (by simp)
      have hfirst : (r.resolveAll (x :: y :: ys)).2 =
          none :: ((r.resolve x.job x.signature x.features).1.resolveAll (y :: ys)).2 := by
        rw [resolveAll, hr]
      have hsame : (r.resolve x.job x.signature x.features).1.published = r.published := by
        rw [hr]
        rfl
      refine ⟨s, ?_, ?_⟩
      · rw [hfirst, hs]
        rfl
      · rw [hsame] at hends
        exact hends

namespace History

/-- Resolutions of different bundles or jobs leave the same roster behind in whatever order they arrive. In either
order every job reports at most one change, and the changes of each contact lead from the same capabilities to the same
ones, unless they lead back. If they are the resolutions that one live job waits for, both orders report the same, and
nothing before the last of them. -/
theorem order_of_resolutions_irrelevant (h : History) {xs ys : List Resolution} (hp : xs.Perm ys)
    (hd : (xs.map fun x => (x.job, x.signature)).Nodup) :
    let r := h.roster
    (r.resolveAll xs).1 = (r.resolveAll ys).1 ∧
    (∀ j, (r.reportedFor j xs).length ≤ 1 ∧ (r.reportedFor j ys).length ≤ 1) ∧
    (∀ c, netChange? (contactChanges c (r.resolveAll xs).2) = netChange? (contactChanges c (r.resolveAll ys).2)) ∧
    ∀ j job, r.jobs.get? j = some job → (∀ x ∈ xs, x.job = j) → (xs.map (·.signature)).Perm job.unresolved →
      ∃ s, (r.resolveAll xs).2 = List.replicate (xs.length - 1) none ++ [s] ∧
        (r.resolveAll ys).2 = List.replicate (xs.length - 1) none ++ [s] := by
  intro r
  have hfinal : (r.resolveAll xs).1 = (r.resolveAll ys).1 := h.resolveAll_perm hp hd
  refine ⟨hfinal, fun j => ⟨r.length_reportedFor_le j xs, r.length_reportedFor_le j ys⟩, ?_, ?_⟩
  · intro c
    rw [netChange?_contactChanges, netChange?_contactChanges, hfinal]
  · intro j job hj hjobs hsigs
    have hne : xs ≠ [] := by
      rintro rfl
      have hnil : job.unresolved = [] := hsigs.symm.eq_nil
      exact h.tidy.unresolved_ne_nil hj hnil
    have hdx : (xs.map (·.signature)).Nodup := by
      have hpairs : (xs.map fun x => (x.job, x.signature)) = (xs.map (·.signature)).map (Prod.mk j) := by
        rw [List.map_map]
        exact List.map_congr_left fun x hx => Prod.ext (hjobs x hx) rfl
      rw [hpairs] at hd
      exact hd.of_map
    have hjobs' : ∀ y ∈ ys, y.job = j := fun y hy => hjobs y (hp.mem_iff.2 hy)
    have hsigs' : (ys.map (·.signature)).Perm job.unresolved := (hp.map _).symm.trans hsigs
    obtain ⟨s, hs, hxr⟩ := resolveAll_of_one_job hj hjobs hdx hsigs hne
    obtain ⟨t, ht, hyr⟩ := resolveAll_of_one_job hj hjobs' ((hp.map _).nodup_iff.1 hdx) hsigs'
      (fun he => hne (he ▸ hp).eq_nil)
    -- both orders begin and end at the same, so that they report the same
    rw [← hfinal] at hyr
    obtain rfl := hxr.unique hyr
    rw [← hp.length_eq] at ht
    exact ⟨s, hs, ht⟩

/-- The laptop and the phone are answered in either order: what is published in between differs, the ends do not. Both
bundles of the update that the laptop had before are resolved in either order, with one and the same change. -/
theorem order_irrelevant_of_replacedUpdate :
    let two : List Resolution := [⟨⟨1⟩, .ofVersion Sample.clientNode "0.2", ⟨[Feature.tubes], by decide⟩⟩,
      ⟨⟨2⟩, .ofVersion Sample.clientNode "0.3", ⟨[Feature.jingle], by decide⟩⟩]
    let one : List Resolution := [⟨⟨0⟩, .ofVersion Sample.clientNode "0.1", ⟨[Feature.tubes], by decide⟩⟩,
      ⟨⟨0⟩, .ofExtension Sample.clientNode "video", ⟨[Feature.jingle015Video], by decide⟩⟩]
    let r := roster (replacedUpdate.drop 2)
    let s := roster (replacedUpdate.drop 5)
    (r.resolveAll two).2 ≠ (r.resolveAll two.reverse).2 ∧
    (r.resolveAll two).1 = (r.resolveAll two.reverse).1 ∧
    netChange? (contactChanges Sample.bob (r.resolveAll two.reverse).2) =
      some (.baseline, (Capabilities.baseline.union .jingle).union .tubes) ∧
    (s.resolveAll one).2 = [none, some ⟨Sample.bob, .baseline, (Capabilities.baseline.union .tubes).union .jingleVideo⟩] ∧
    (s.resolveAll one.reverse).2 = (s.resolveAll one).2 := by
  intro two one r s
  have htwo : two.Perm two.reverse := two.reverse_perm.symm
  have hone : one.Perm one.reverse := one.reverse_perm.symm
  obtain ⟨hroster, -, hnet, -⟩ := order_of_resolutions_irrelevant (replacedUpdate.drop 2) htwo (by decide)
  obtain ⟨-, -, -, hlast⟩ := order_of_resolutions_irrelevant (replacedUpdate.drop 5) hone (by decide)
  obtain ⟨c, hc, hc'⟩ := hlast ⟨0⟩ ⟨Sample.laptop, one.map (·.signature), .none⟩ (by decide) (by decide) (.refl _)
  have hchange : (s.resolveAll one).2 =
      [none, some ⟨Sample.bob, .baseline, (Capabilities.baseline.union .tubes).union .jingleVideo⟩] := by decide
  exact ⟨by decide, hroster, (hnet Sample.bob).symm.trans (by decide), hchange, hc'.trans hc.symm⟩

end History

end

end Roster
end PresenceCaps
