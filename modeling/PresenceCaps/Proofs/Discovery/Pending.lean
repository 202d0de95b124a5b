import Mathlib.Algebra.Group.Nat.Defs
import PresenceCaps.Discovery.Basic

/-! The queries in flight: how they are numbered, and what issuing and settling them does. -/
namespace PresenceCaps

/-- A query that a job sends to its resource for a bundle. -/
def Query.ofJob (a : FullAddress) (j : JobId) (s : CapabilitySignature) : Query := ⟨a, s, s.queryNode, j⟩

namespace Discovery

/-- The queries in flight that were sent for a bundle on behalf of a job. -/
def queriesFor (d : Discovery) (j : JobId) (s : CapabilitySignature) : Assoc QueryId Query :=
  d.pending.filter fun e => e.2.job = j ∧ e.2.signature = s

/-- After some number of queries those in flight have different numbers up to it, and the next one is free. -/
structure Numbered (d : Discovery) (k : Nat) : Prop where
  nodup : d.pending.keys.Nodup
  next : d.nextId = .ofNat (k + 1)
  le : ∀ id ∈ d.pending.keys, id.value.toNat ≤ k

theorem Numbered.requiring (n : UInt32) : (Discovery.requiring n).Numbered 0 := by
  constructor <;> simp [Discovery.requiring, Assoc.keys]

namespace Numbered
variable {d : Discovery} {k : Nat}

theorem of_bundles (hd : d.Numbered k) (b : Bundles) : Numbered { d with bundles := b } k := ⟨hd.nodup, hd.next, hd.le⟩

theorem next_toNat (hd : d.Numbered k) (hk : k + 1 < 2 ^ 64) : d.nextId.toNat = k + 1 := by
  rw [hd.next]
  exact UInt64.toNat_ofNat_of_lt' hk

theorem get?_next (hd : d.Numbered k) (hk : k + 1 < 2 ^ 64) : d.pending.get? ⟨d.nextId⟩ = none := by
  refine Assoc.get?_eq_none_iff.2 fun hmem => ?_
  have hle : d.nextId.toNat ≤ k := hd.le _ hmem
  rw [hd.next_toNat hk] at hle
  omega

theorem pending_issue (hd : d.Numbered k) (hk : k + 1 < 2 ^ 64) (s : CapabilitySignature) (a : FullAddress)
    (j : JobId) : (d.issue s a j).1.pending = d.pending ++ [((d.issue s a j).2, .ofJob a j s)] :=
  Assoc.set_of_get?_eq_none (hd.get?_next hk) _

theorem issue (hd : d.Numbered k) (hk : k + 1 < 2 ^ 64) (s : CapabilitySignature) (a : FullAddress) (j : JobId) :
    (d.issue s a j).1.Numbered (k + 1) where
  nodup := Assoc.nodup_keys_set hd.nodup _ _
  next := by
    have hn : (d.issue s a j).1.nextId = d.nextId + 1 := rfl
    rw [hn, hd.next]
    exact (UInt64.ofNat_add _ _).symm
  le id hid := by
    rcases Assoc.mem_keys_set hid with rfl | hid
    · exact Nat.le_of_eq (hd.next_toNat hk)
    · exact Nat.le_succ_of_le (hd.le id hid)

theorem issueAll (hd : d.Numbered k) (sigs : List CapabilitySignature) (hk : k + sigs.length < 2 ^ 64)
    (a : FullAddress) (j : JobId) : (d.issueAll a j sigs).1.Numbered (k + sigs.length) := by
  induction sigs generalizing d k with
  | nil => exact hd
  | cons s sigs ih =>
    rw [List.length_cons] at hk ⊢
    have hrest := ih (hd.issue (by omega) s a j) (by omega)
    -- one query and then the rest, or all of them at once
    rw [Nat.add_right_comm] at hrest
    exact hrest

/-- Queries are issued one for each bundle, in the given order. -/
theorem pending_issueAll (hd : d.Numbered k) (sigs : List CapabilitySignature) (hk : k + sigs.length < 2 ^ 64)
    (a : FullAddress) (j : JobId) : (d.issueAll a j sigs).1.pending =
      d.pending ++ (d.issueAll a j sigs).2.zip (sigs.map (Query.ofJob a j)) := by
  induction sigs generalizing d k with
  | nil => simp [Discovery.issueAll]
  | cons s sigs ih =>
    rw [List.length_cons] at hk
    have hrest := ih (hd.issue (by omega) s a j) (by omega)
    rw [hd.pending_issue (by omega)] at hrest
    rw [Discovery.issueAll, List.map_cons]
    simpa using hrest

theorem erase (hd : d.Numbered k) (b : Bundles) (id : QueryId) :
    Numbered { d with bundles := b, pending := d.pending.erase id } k where
  nodup := Assoc.nodup_keys_erase hd.nodup id
  next := hd.next
  le x hx := hd.le x ((List.filter_sublist.map Prod.fst).subset hx)

end Numbered

theorem length_issueAll (d : Discovery) (a : FullAddress) (j : JobId) (sigs : List CapabilitySignature) :
    (d.issueAll a j sigs).2.length = sigs.length := by
  induction sigs generalizing d with
  | nil => rfl
  | cons s sigs ih =>
    rw [issueAll, List.length_cons, List.length_cons, ih]

theorem map_queriesFor (d : Discovery) (j : JobId) (s : CapabilitySignature) : (d.queriesFor j s).map Prod.snd =
    (d.pending.map Prod.snd).filter fun q => q.job = j ∧ q.signature = s := by
  rw [List.filter_map]
  rfl

section IssueAll
variable {d : Discovery} {k : Nat} {sigs : List CapabilitySignature} {a : FullAddress} {i j : JobId}
  {s : CapabilitySignature}

theorem map_pending_issueAll (hd : d.Numbered k) (hk : k + sigs.length < 2 ^ 64) :
    (d.issueAll a j sigs).1.pending.map Prod.snd = d.pending.map Prod.snd ++ sigs.map (Query.ofJob a j) := by
  have hlen : (sigs.map (Query.ofJob a j)).length ≤ (d.issueAll a j sigs).2.length := by
    have heq := d.length_issueAll a j sigs
    rw [List.length_map]
    omega
  rw [hd.pending_issueAll sigs hk, List.map_append, List.map_snd_zip hlen]

/-- Queries for other jobs stay as they are. -/
theorem map_queriesFor_issueAll_of_ne (hd : d.Numbered k) (hk : k + sigs.length < 2 ^ 64) (hne : i ≠ j) :
    ((d.issueAll a j sigs).1.queriesFor i s).map Prod.snd = (d.queriesFor i s).map Prod.snd := by
  have hnone : (sigs.map (Query.ofJob a j)).filter (fun q => q.job = i ∧ q.signature = s) = [] := by
    simp [Query.ofJob, Ne.symm hne]
  rw [map_queriesFor, map_pending_issueAll hd hk, List.filter_append, hnone, List.append_nil, map_queriesFor]

/-- A job without queries in flight gets one for each of its bundles. -/
theorem map_queriesFor_issueAll_self (hd : d.Numbered k) (hk : k + sigs.length < 2 ^ 64)
    (hfree : d.queriesFor j s = []) (hs : sigs.Nodup) :
    ((d.issueAll a j sigs).1.queriesFor j s).map Prod.snd = if s ∈ sigs then [.ofJob a j s] else [] := by
  have hold : (d.pending.map Prod.snd).filter (fun q => q.job = j ∧ q.signature = s) = [] := by
    rw [← map_queriesFor, hfree]
    rfl
  have hnew : (sigs.map (Query.ofJob a j)).filter (fun q => q.job = j ∧ q.signature = s) =
      (sigs.filter (· == s)).map (Query.ofJob a j) := by
    rw [List.filter_map]
    congr 1
    refine List.filter_congr fun t _ => Bool.eq_iff_iff.2 ?_
    rw [Function.comp, decide_eq_true_iff, beq_iff_eq]
    exact and_iff_right rfl
  rw [map_queriesFor, map_pending_issueAll hd hk, List.filter_append, hold, List.nil_append, hnew,
    List.filter_beq, hs.count]
  split <;> rfl

end IssueAll

section Settle
variable {d : Discovery} {o : Outcome} {id : QueryId} {q : Query}

/-- An outcome is for no query in flight, brings a reply that is accepted, or fails its query. -/
theorem settle_cases (d : Discovery) (o : Outcome) :
    (d.pending.get? o.id = none ∧ d.settle o = (d, none)) ∨
    ∃ q, d.pending.get? o.id = some q ∧
      ((∃ reply, o.result.bind (acceptReply q.node) = .ok reply ∧ d.settle o =
        ({ d with
            bundles := (d.bundles.detach q.signature o.id).record q.signature q.target reply
            pending := d.pending.erase o.id }, some ⟨q.job, q.signature, reply.featureSet⟩)) ∨
      ∃ e, o.result.bind (acceptReply q.node) = .error e ∧ d.settle o =
        ({ d with bundles := d.bundles.detach q.signature o.id, pending := d.pending.erase o.id },
          some ⟨q.job, q.signature, .empty⟩)) := by
  cases hq : d.pending.get? o.id with
  | none => exact Or.inl ⟨rfl, by simp only [settle, hq]⟩
  | some q =>
    refine Or.inr ⟨q, rfl, ?_⟩
    cases hr : o.result.bind (acceptReply q.node) with
    | ok reply => exact Or.inl ⟨reply, rfl, by simp only [settle, hq, hr]⟩
    | error e => exact Or.inr ⟨e, rfl, by simp only [settle, hq, hr]⟩

/-- An outcome takes its query away and resolves its bundle for its job. -/
theorem settle_of_get?_eq_some (hq : d.pending.get? o.id = some q) : ∃ r, (d.settle o).2 = some r ∧
    r.job = q.job ∧ r.signature = q.signature ∧ (d.settle o).1.pending = d.pending.erase o.id := by
  obtain ⟨hnone, -⟩ | ⟨p, hp, hs⟩ := d.settle_cases o
  · rw [hq] at hnone
    exact absurd hnone (by simp)
  · obtain rfl := Option.some.inj (hq.symm.trans hp)
    obtain ⟨reply, -, hs⟩ | ⟨e, -, hs⟩ := hs <;> rw [hs] <;> exact ⟨_, rfl, rfl, rfl, rfl⟩

theorem settle_of_get?_eq_none (hq : d.pending.get? o.id = none) : d.settle o = (d, none) := by
  rw [settle, hq]

theorem nextId_settle (d : Discovery) (o : Outcome) : (d.settle o).1.nextId = d.nextId := by
  obtain ⟨-, hs⟩ | ⟨q, -, ⟨reply, -, hs⟩ | ⟨e, -, hs⟩⟩ := d.settle_cases o <;> rw [hs]

/-- After its outcome a query is in flight no more, if it was before; the others stay. -/
theorem get?_pending_settle (d : Discovery) (o : Outcome) (id : QueryId) :
    (d.settle o).1.pending.get? id = if o.id = id then none else d.pending.get? id := by
  cases hq : d.pending.get? o.id with
  | none =>
    rw [settle_of_get?_eq_none hq]
    split
    · rename_i hid
      rw [← hid, hq]
    · rfl
  | some q =>
    obtain ⟨r, -, -, -, hpending⟩ := settle_of_get?_eq_some hq
    rw [hpending, Assoc.get?_erase]

theorem pending_of_settle (h : (d.settle o).1.pending.get? id = some q) : d.pending.get? id = some q := by
  rw [get?_pending_settle] at h
  split at h
  · exact absurd h (by simp)
  · exact h

end Settle

section Erase
variable {d : Discovery} {id : QueryId} {q : Query} {j : JobId} {s : CapabilitySignature}

/-- A query that is settled was sent for one job and one bundle only. -/
theorem queriesFor_erase_of_ne (hd : d.pending.keys.Nodup) (hq : d.pending.get? id = some q)
    (hne : ¬ (q.job = j ∧ q.signature = s)) (b : Bundles) :
    queriesFor { d with bundles := b, pending := d.pending.erase id } j s = d.queriesFor j s := by
  rw [queriesFor, Assoc.erase, List.filter_filter, queriesFor]
  refine List.filter_congr fun e he => ?_
  -- the entry that goes is the one of the settled query, which was not looked for
  by_cases hid : e.1 = id
  · have heq : d.pending.get? id = some e.2 := by
      rw [← hid]
      exact (Assoc.get?_eq_some_iff_mem hd).2 he
    rw [hq] at heq
    have hkeep : ¬ (e.2.job = j ∧ e.2.signature = s) := Option.some.inj heq ▸ hne
    simp [hkeep]
  · simp [hid]

theorem queriesFor_erase_self (hq : d.pending.get? id = some q)
    (hone : ((d.queriesFor q.job q.signature).map Prod.snd).length ≤ 1) (b : Bundles) :
    queriesFor { d with bundles := b, pending := d.pending.erase id } q.job q.signature = [] := by
  have hmem : (id, q) ∈ d.queriesFor q.job q.signature :=
    List.mem_filter.2 ⟨Assoc.mem_of_get?_eq_some hq, by simp⟩
  rw [List.length_map] at hone
  obtain ⟨e, he⟩ : ∃ e, d.queriesFor q.job q.signature = [e] :=
    List.length_eq_one_iff.1 (Nat.le_antisymm hone (List.length_pos_of_mem hmem))
  rw [he, List.mem_singleton] at hmem
  -- erasing and looking for queries may change places
  have hcomm : queriesFor { d with bundles := b, pending := d.pending.erase id } q.job q.signature =
      (d.queriesFor q.job q.signature).filter fun e => e.1 ≠ id := by
    rw [queriesFor, Assoc.erase, List.filter_filter, queriesFor, List.filter_filter]
    exact List.filter_congr fun _ _ => Bool.and_comm ..
  rw [hcomm, he, ← hmem]
  simp

end Erase

end Discovery
end PresenceCaps
