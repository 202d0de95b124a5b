import PresenceCaps.Proofs.Service.Learning
import PresenceCaps.Proofs.Service.Superseded

/-!
Waiting lists are the queries in flight. The entry of a bundle lists the queries that were issued for it and are neither
settled nor cancelled, also those of jobs that were replaced, in the order in which they were issued. All that this takes
is that no query is given the number of another one that is still in flight.
-/
namespace PresenceCaps
variable {σ : Type} [Sink σ]

/-- The numbers of the queries for a bundle. -/
def Query.idsFor (pending : Assoc QueryId Query) (s : CapabilitySignature) : List QueryId :=
  Assoc.keys (pending.filter fun e => e.2.signature = s)

namespace Query
variable {pending : Assoc QueryId Query} {s : CapabilitySignature} {id : QueryId} {q : Query}

theorem mem_idsFor : id ∈ idsFor pending s ↔ ∃ q, (id, q) ∈ pending ∧ q.signature = s := by
  simp [idsFor, Assoc.keys]

theorem idsFor_concat (pending : Assoc QueryId Query) (id : QueryId) (q : Query) (s : CapabilitySignature) :
    idsFor (pending ++ [(id, q)]) s = idsFor pending s ++ if q.signature = s then [id] else [] := by
  rw [idsFor, List.filter_append, Assoc.keys, List.map_append]
  by_cases hs : q.signature = s <;> simp [idsFor, Assoc.keys, hs]

theorem idsFor_erase (pending : Assoc QueryId Query) (id : QueryId) (s : CapabilitySignature) :
    idsFor (pending.erase id) s = (idsFor pending s).filter (· ≠ id) := by
  rw [idsFor, Assoc.erase, List.filter_filter, idsFor, Assoc.keys, Assoc.keys, List.filter_map, List.filter_filter]
  congr 1
  exact List.filter_congr fun e _ => Bool.and_comm ..

/-- A number stands for one query, and that is for one bundle. -/
theorem notMem_idsFor (hn : pending.keys.Nodup) (hq : (id, q) ∈ pending) (hs : q.signature ≠ s) :
    id ∉ idsFor pending s := by
  intro hid
  obtain ⟨p, hp, rfl⟩ := mem_idsFor.1 hid
  have hpq : some p = some q :=
    ((Assoc.get?_eq_some_iff_mem hn).2 hp).symm.trans ((Assoc.get?_eq_some_iff_mem hn).2 hq)
  exact hs (Option.some.inj hpq ▸ rfl)

end Query

namespace Bundle
variable (b : Bundle) (sender : FullAddress) (reply : DiscoInfo)

@[simp] theorem waiting_addConfirmer : (b.addConfirmer sender).waiting = b.waiting := by
  rw [addConfirmer]
  split <;> rfl

/-- Replies do not touch the waiting list. -/
theorem waiting_verifiedBy : (b.verifiedBy sender reply).waiting = b.waiting :=
  (b.learnSoftware reply).waiting_addConfirmer sender

theorem waiting_confirmedBy (threshold : UInt32) : (b.confirmedBy threshold sender reply).waiting = b.waiting :=
  (b.learnSoftware reply).waiting_addConfirmer sender

end Bundle

namespace Bundles

/-- The entries list the queries in flight, each of which is for a bundle that has an entry. -/
structure Mirrors (b : Bundles) (pending : Assoc QueryId Query) : Prop where
  nodup : pending.keys.Nodup
  waiting : ∀ {s e}, b.get? s = some e → e.waiting = Query.idsFor pending s
  known : ∀ {id q}, (id, q) ∈ pending → (b.get? q.signature).isSome = true

theorem isSome_get?_update (b : Bundles) (t : CapabilitySignature) (f : Bundle → Bundle) (s : CapabilitySignature) :
    ((b.update t f).get? s).isSome = (decide (t = s) || (b.get? s).isSome) := by
  rw [get?_update]
  by_cases ht : t = s <;> simp [ht]

theorem isSome_get?_attach (b : Bundles) (t : CapabilitySignature) (id : QueryId) (s : CapabilitySignature) :
    ((b.attach t id).get? s).isSome = (b.get? s).isSome := by
  rw [get?_attach]
  split <;> simp

theorem isSome_get?_detach (b : Bundles) (t : CapabilitySignature) (id : QueryId) (s : CapabilitySignature) :
    ((b.detach t id).get? s).isSome = (b.get? s).isSome := by
  rw [get?_detach]
  split <;> simp

/-- What was looked up has an entry from then on. -/
theorem isSome_get?_foldl_touch (b : Bundles) {sigs : List CapabilitySignature} {s : CapabilitySignature}
    (hs : s ∈ sigs ∨ (b.get? s).isSome = true) : ((sigs.foldl touch b).get? s).isSome = true := by
  induction sigs generalizing b with
  | nil => simpa using hs
  | cons t sigs ih =>
    apply ih
    rw [touch, isSome_get?_update]
    rcases hs with hs | hs
    · rcases List.mem_cons.1 hs with rfl | hs
      · exact Or.inr (by simp)
      · exact Or.inl hs
    · exact Or.inr (by simp [hs])

namespace Mirrors
variable {b : Bundles} {pending : Assoc QueryId Query} {s t : CapabilitySignature} {id : QueryId} {q : Query}

theorem requiring (n : UInt32) : (Bundles.requiring n).Mirrors [] where
  nodup := List.nodup_nil
  waiting he := absurd he (by simp [Bundles.requiring, get?])
  known hq := absurd hq List.not_mem_nil

/-- No query is in flight for a bundle without an entry. -/
theorem idsFor_of_get?_eq_none (h : b.Mirrors pending) (hs : b.get? s = none) : Query.idsFor pending s = [] := by
  apply List.eq_nil_iff_forall_not_mem.2
  intro id hid
  obtain ⟨q, hq, rfl⟩ := Query.mem_idsFor.1 hid
  have hsome := h.known hq
  rw [hs] at hsome
  exact absurd hsome Bool.false_ne_true

/-- An entry that is new or learns something waits for what was waited for before. -/
theorem update (h : b.Mirrors pending) (t : CapabilitySignature) {f : Bundle → Bundle}
    (hf : ∀ e, (f e).waiting = e.waiting) : (b.update t f).Mirrors pending where
  nodup := h.nodup
  waiting {s e} he := by
    rw [get?_update] at he
    split at he
    · rename_i hts
      subst hts
      rw [← Option.some.inj he, hf]
      cases hold : b.get? t with
      | none => exact (h.idsFor_of_get?_eq_none hold).symm
      | some old => exact h.waiting hold
    · exact h.waiting he
  known hq := by
    rw [isSome_get?_update, h.known hq, Bool.or_true]

theorem foldl_touch (h : b.Mirrors pending) (sigs : List CapabilitySignature) :
    (sigs.foldl touch b).Mirrors pending := by
  induction sigs generalizing b with
  | nil => exact h
  | cons s sigs ih => exact ih (h.update s fun _ => rfl)

theorem record (h : b.Mirrors pending) (s : CapabilitySignature) (sender : FullAddress) (reply : DiscoInfo) :
    (b.record s sender reply).Mirrors pending := by
  rw [Bundles.record]
  split
  · split
    · exact h.update s fun e => e.waiting_verifiedBy sender reply
    · exact h
  · exact h.update s fun e => e.waiting_confirmedBy sender reply _

/-- A query that is issued goes to the end of the list of its bundle. -/
theorem attach (h : b.Mirrors pending) (hid : id ∉ pending.keys) (hs : (b.get? q.signature).isSome = true) :
    (b.attach q.signature id).Mirrors (pending ++ [(id, q)]) where
  nodup := by
    rw [Assoc.keys, List.map_append]
    refine List.nodup_append.2 ⟨h.nodup, List.nodup_singleton id, fun i hi k hk => ?_⟩
    rintro rfl
    rw [List.mem_singleton.1 hk] at hi
    exact hid hi
  waiting {s e} he := by
    rw [get?_attach] at he
    rw [Query.idsFor_concat]
    split at he
    · rename_i hqs
      obtain ⟨old, hold, rfl⟩ := Option.map_eq_some_iff.1 he
      rw [if_pos hqs, ← h.waiting hold]
    · rename_i hqs
      rw [if_neg hqs, List.append_nil, h.waiting he]
  known {i p} hp := by
    rw [isSome_get?_attach]
    rcases List.mem_append.1 hp with hp | hp
    · exact h.known hp
    · obtain ⟨-, rfl⟩ := Prod.mk.inj (List.mem_singleton.1 hp)
      exact hs

/-- A query that ends leaves the list of its bundle, and is in no other one. -/
theorem detach (h : b.Mirrors pending) (hq : (id, q) ∈ pending) :
    (b.detach q.signature id).Mirrors (pending.erase id) where
  nodup := Assoc.nodup_keys_erase h.nodup id
  waiting {s e} he := by
    rw [get?_detach] at he
    rw [Query.idsFor_erase]
    split at he
    · obtain ⟨old, hold, rfl⟩ := Option.map_eq_some_iff.1 he
      rw [← h.waiting hold]
    · rename_i hqs
      have hother := Query.notMem_idsFor h.nodup hq hqs
      rw [h.waiting he, eq_comm]
      apply List.filter_eq_self.2
      intro i hi
      exact decide_eq_true fun heq => hother (heq ▸ hi)
  known {i p} hp := by
    rw [isSome_get?_detach]
    exact h.known (List.filter_sublist.subset hp)

/-- Cancelling ends the queries one after the other. -/
theorem foldl_detach (h : b.Mirrors pending) :
    (pending.foldl (fun b e => b.detach e.2.signature e.1) b).Mirrors [] := by
  induction pending generalizing b with
  | nil => exact h
  | cons e rest ih =>
    obtain ⟨id, q⟩ := e
    apply ih
    have hrest : Assoc.erase ((id, q) :: rest) id = rest := by
      have hid : id ∉ Assoc.keys rest := (List.nodup_cons.1 h.nodup).1
      rw [Assoc.erase, List.filter_cons_of_neg (by simp)]
      apply List.filter_eq_self.2
      intro e he
      exact decide_eq_true fun heq => hid (heq ▸ List.mem_map_of_mem he)
    have hfirst : (id, q) ∈ (id, q) :: rest := List.mem_cons_self
    have hdetached := h.detach hfirst
    rwa [hrest] at hdetached

end Mirrors
end Bundles

namespace Discovery
variable {d : Discovery} {a : FullAddress} {j : JobId}

theorem mirrors_cancelAll (h : d.bundles.Mirrors d.pending) : d.cancelAll.bundles.Mirrors d.cancelAll.pending :=
  h.foldl_detach

theorem mirrors_settle (h : d.bundles.Mirrors d.pending) (o : Outcome) :
    (d.settle o).1.bundles.Mirrors (d.settle o).1.pending := by
  obtain ⟨-, hs⟩ | ⟨q, hq, ⟨reply, -, hs⟩ | ⟨e, -, hs⟩⟩ := d.settle_cases o
  · rw [hs]
    exact h
  · rw [hs]
    exact (h.detach (Assoc.mem_of_get?_eq_some hq)).record _ _ _
  · rw [hs]
    exact h.detach (Assoc.mem_of_get?_eq_some hq)

theorem sublist_pending_settle (d : Discovery) (o : Outcome) :
    (d.settle o).1.pending.Sublist d.pending := by
  obtain ⟨-, hs⟩ | ⟨q, -, ⟨reply, -, hs⟩ | ⟨e, -, hs⟩⟩ := d.settle_cases o
  · rw [hs]
  · rw [hs]
    exact List.filter_sublist
  · rw [hs]
    exact List.filter_sublist

/-- The number of the first query, and those of the rest, which it joins in flight. -/
theorem nodup_issue {s : CapabilitySignature} {sigs : List CapabilitySignature}
    (hn : (d.pending.keys ++ (d.issueAll a j (s :: sigs)).2).Nodup) :
    (⟨d.nextId⟩ : QueryId) ∉ d.pending.keys ∧
    (d.issue s a j).1.pending = d.pending ++ [(⟨d.nextId⟩, .ofJob a j s)] ∧
    ((d.issue s a j).1.pending.keys ++ ((d.issue s a j).1.issueAll a j sigs).2).Nodup := by
  have hids : (d.issueAll a j (s :: sigs)).2 = ⟨d.nextId⟩ :: ((d.issue s a j).1.issueAll a j sigs).2 := rfl
  rw [hids] at hn
  have hfresh : (⟨d.nextId⟩ : QueryId) ∉ d.pending.keys := fun hmem =>
    (List.nodup_append.1 hn).2.2 _ hmem _ List.mem_cons_self rfl
  have hpending : (d.issue s a j).1.pending = d.pending ++ [(⟨d.nextId⟩, .ofJob a j s)] :=
    Assoc.set_of_get?_eq_none (Assoc.get?_eq_none_iff.2 hfresh) _
  refine ⟨hfresh, hpending, ?_⟩
  rw [hpending, Assoc.keys, List.map_append, List.append_assoc]
  exact hn

/-- Queries whose numbers are free go to the end of those in flight, one for each bundle. -/
theorem pending_issueAll_of_nodup (sigs : List CapabilitySignature)
    (hn : (d.pending.keys ++ (d.issueAll a j sigs).2).Nodup) :
    (d.issueAll a j sigs).1.pending = d.pending ++ (d.issueAll a j sigs).2.zip (sigs.map (Query.ofJob a j)) := by
  induction sigs generalizing d with
  | nil => exact (List.append_nil _).symm
  | cons s sigs ih =>
    obtain ⟨-, hpending, hrest⟩ := nodup_issue hn
    have hlater := ih hrest
    rw [hpending, List.append_assoc] at hlater
    exact hlater

theorem mirrors_issueAll (h : d.bundles.Mirrors d.pending) {sigs : List CapabilitySignature}
    (hs : ∀ s ∈ sigs, (d.bundles.get? s).isSome = true) (hn : (d.pending.keys ++ (d.issueAll a j sigs).2).Nodup) :
    (d.issueAll a j sigs).1.bundles.Mirrors (d.issueAll a j sigs).1.pending := by
  induction sigs generalizing d with
  | nil => exact h
  | cons s sigs ih =>
    obtain ⟨hfresh, hpending, hrest⟩ := nodup_issue hn
    have hissued : (d.issue s a j).1.bundles.Mirrors (d.issue s a j).1.pending := by
      rw [hpending]
      exact h.attach (q := .ofJob a j s) hfresh (hs s List.mem_cons_self)
    refine ih hissued (fun t ht => ?_) hrest
    -- noting a query with a bundle takes no entry away
    have hkept := d.bundles.isSome_get?_attach s ⟨d.nextId⟩ t
    exact hkept.trans (hs t (List.mem_cons_of_mem s ht))

end Discovery

namespace Service

namespace Arrival
variable (required : UInt32) (capacity : Nat) (x : Arrival σ)

/-- The queries that were issued for it, in order. -/
def queries : Assoc QueryId Query :=
  (x.issued required capacity).zip
    ((x.asked required capacity).map (Query.ofJob x.update.sender ⟨(x.service required capacity).roster.nextJob⟩))

/-- Its queries have numbers of their own: none is given twice, and none is in flight. -/
def isNumberedAnew : Bool :=
  ((x.service required capacity).discovery.pending.keys ++ x.issued required capacity).Nodup

end Arrival

namespace History
variable (required : UInt32) (capacity : Nat)

/-- All queries that were issued, in the order in which they were. -/
def queries (h : History σ) : Assoc QueryId Query :=
  (h.arrivals required capacity).reverse.flatMap (Arrival.queries required capacity)

/-- No query was given the number of another one that was in flight. -/
def KeepsNumbersApart (h : History σ) : Prop :=
  ∀ x ∈ h.arrivals required capacity, x.isNumberedAnew required capacity = true

end History

theorem length_issued_of_taken {s : Service σ} {u : PresenceUpdate} {y : Handled σ} (hy : s.handlePresence u = .ok y) :
    y.issued.length = (u.untrusted s.bundles).length := by
  rw [(of_handlePresence_eq_ok hy).2.2]
  exact Discovery.length_issueAll ..

/-- What an update does to the queries in flight and to the bundles. -/
theorem discovery_of_taken {s : Service σ} {u : PresenceUpdate} {y : Handled σ} (hy : s.handlePresence u = .ok y)
    (hm : s.bundles.Mirrors s.discovery.pending) (hn : (s.discovery.pending.keys ++ y.issued).Nodup) :
    y.service.bundles.Mirrors y.service.discovery.pending ∧
    y.service.discovery.pending = s.discovery.pending ++
      y.issued.zip ((u.untrusted s.bundles).map (Query.ofJob u.sender ⟨s.roster.nextJob⟩)) := by
  obtain ⟨-, hdiscovery, hissued⟩ := of_handlePresence_eq_ok hy
  rw [hissued] at hn ⊢
  rw [bundles, hdiscovery]
  have htouched := hm.foldl_touch u.signatures
  refine ⟨Discovery.mirrors_issueAll htouched (fun t ht => ?_) hn, Discovery.pending_issueAll_of_nodup _ hn⟩
  -- a bundle that is asked for was looked up first
  exact Bundles.isSome_get?_foldl_touch _ (Or.inl (List.filter_sublist.subset ht))

/-- Apart from updates, events end queries at most. -/
theorem sublist_pending_step (s : Service σ) {e : Event σ} (hu : ∀ u, e ≠ .presence u) :
    (s.step e).discovery.pending.Sublist s.discovery.pending ∧
    (s.step e).discovery.nextId = s.discovery.nextId := by
  cases e with
  | presence u => exact absurd rfl (hu u)
  | outcome o =>
    rw [step, discovery_handleOutcome]
    cases s.running with
    | false => exact ⟨List.Sublist.refl _, rfl⟩
    | true => exact ⟨s.discovery.sublist_pending_settle o, s.discovery.nextId_settle o⟩
  | contact a =>
    obtain h | ⟨handles, h⟩ := s.step_contact_cases a <;> rw [h] <;> exact ⟨List.Sublist.refl _, rfl⟩
  | bundle c => exact ⟨List.Sublist.refl _, rfl⟩
  | listening l => exact ⟨List.Sublist.refl _, rfl⟩
  | shutdown =>
    obtain ⟨-, h⟩ | ⟨-, h⟩ := s.step_shutdown_cases <;> rw [h]
    · exact ⟨List.Sublist.refl _, rfl⟩
    · exact ⟨List.nil_sublist _, rfl⟩

/-- A query that ends leaves its waiting list, however it ends. -/
theorem mirrors_step {s : Service σ} (hm : s.bundles.Mirrors s.discovery.pending) {e : Event σ}
    (he : e.isForeign = false) (hu : ∀ u, e ≠ .presence u) :
    (s.step e).bundles.Mirrors (s.step e).discovery.pending := by
  cases e with
  | presence u => exact absurd rfl (hu u)
  | outcome o =>
    rw [step, bundles, discovery_handleOutcome]
    cases s.running with
    | false => exact hm
    | true => exact Discovery.mirrors_settle hm o
  | contact a =>
    obtain h | ⟨handles, h⟩ := s.step_contact_cases a <;> rw [h] <;> exact hm
  | bundle c => exact absurd he (by simp [Event.isForeign])
  | listening l => exact hm
  | shutdown =>
    obtain ⟨-, h⟩ | ⟨-, h⟩ := s.step_shutdown_cases <;> rw [h]
    · exact hm
    · exact Discovery.mirrors_cancelAll hm

namespace History
variable {required : UInt32} {capacity : Nat} {h : History σ} {u : PresenceUpdate} {y : Handled σ}

theorem queries_of_taken (hy : (h.service required capacity).handlePresence u = .ok y) :
    queries required capacity (.presence u :: h) =
      h.queries required capacity ++ Arrival.queries required capacity ⟨h, u⟩ := by
  rw [queries, arrivals_of_taken hy, List.reverse_cons, List.flatMap_append, List.flatMap_singleton]
  rfl

theorem queries_of_arrival?_eq_none {e : Event σ} (he : h.arrival? required capacity e = none) :
    queries required capacity (e :: h) = h.queries required capacity := by
  rw [queries, arrivals_of_arrival?_eq_none he]
  rfl

theorem arrival?_of_ne_presence (h : History σ) {e : Event σ} (he : ∀ u, e ≠ .presence u) :
    h.arrival? required capacity e = none := by
  cases e with
  | presence u => exact absurd rfl (he u)
  | _ => rfl

theorem KeepsNumbersApart.tail {e : Event σ} (hn : KeepsNumbersApart required capacity (e :: h)) :
    h.KeepsNumbersApart required capacity :=
  fun x hx => hn x (List.mem_append_right _ hx)

/-- In every state that is reached, the waiting lists are the queries in flight, and these stand as they were issued. -/
theorem mirrored (hp : h.IsPrivate) (hn : h.KeepsNumbersApart required capacity) :
    (h.service required capacity).bundles.Mirrors (h.service required capacity).discovery.pending ∧
    (h.service required capacity).discovery.pending.Sublist (h.queries required capacity) := by
  induction h with
  | nil => exact ⟨.requiring required, List.nil_sublist _⟩
  | cons e h ih =>
    obtain ⟨hm, hsub⟩ := ih (fun e he => hp e (List.mem_cons_of_mem _ he)) hn.tail
    have hforeign := hp e List.mem_cons_self
    rw [service]
    by_cases hu : ∃ u, e = .presence u
    · obtain ⟨u, rfl⟩ := hu
      cases hy : (service required capacity h).handlePresence u with
      | error err =>
        rw [queries_of_arrival?_eq_none (arrival?_of_refused hy), step, hy]
        exact ⟨hm, hsub⟩
      | ok y =>
        have hmem : ⟨h, u⟩ ∈ arrivals required capacity (.presence u :: h) := by
          rw [arrivals_of_taken hy]
          exact List.mem_cons_self
        have hnew := hn ⟨h, u⟩ hmem
        rw [Arrival.isNumberedAnew, issued_of_taken hy, decide_eq_true_iff] at hnew
        obtain ⟨hmirrors, hpending⟩ := discovery_of_taken hy hm hnew
        rw [queries_of_taken hy, step, hy, Arrival.queries, issued_of_taken hy]
        refine ⟨hmirrors, ?_⟩
        rw [hpending]
        exact hsub.append (List.Sublist.refl _)
    · have hother : ∀ u, e ≠ .presence u := fun u he => hu ⟨u, he⟩
      rw [queries_of_arrival?_eq_none (arrival?_of_ne_presence h hother)]
      exact ⟨mirrors_step hm hforeign hother, (sublist_pending_step _ hother).1.trans hsub⟩

/-- Fewer queries than there are numbers have numbers in their order. -/
theorem numbered (hk : h.queryCount required capacity < 2 ^ 64) :
    (h.service required capacity).discovery.Numbered (h.queryCount required capacity) := by
  induction h with
  | nil => exact .requiring required
  | cons e h ih =>
    have hprev := ih (Nat.lt_of_le_of_lt (Nat.le_add_right ..) hk)
    by_cases hu : ∃ u, e = .presence u
    · obtain ⟨u, rfl⟩ := hu
      rw [queryCount, issuedCount] at hk ⊢
      rw [service, step]
      cases hy : (service required capacity h).handlePresence u with
      | error err => exact hprev
      | ok y =>
        obtain ⟨-, hdiscovery, -⟩ := of_handlePresence_eq_ok hy
        simp only [hy, length_issued_of_taken hy] at hk ⊢
        rw [hdiscovery]
        exact (hprev.of_bundles _).issueAll _ hk _ _
    · have hother : ∀ u, e ≠ .presence u := fun u he => hu ⟨u, he⟩
      have hnone : (service required capacity h).issuedCount e = 0 := by
        cases e with
        | presence u => exact absurd rfl (hother u)
        | _ => rfl
      obtain ⟨hsub, hnext⟩ := sublist_pending_step (service required capacity h) hother
      rw [queryCount, hnone, service]
      exact ⟨hprev.nodup.sublist (hsub.map Prod.fst), hnext.trans hprev.next,
        fun id hid => hprev.le id ((hsub.map Prod.fst).subset hid)⟩

theorem keepsNumbersApart (hk : h.queryCount required capacity < 2 ^ 64) :
    h.KeepsNumbersApart required capacity := by
  induction h with
  | nil => exact fun x hx => absurd hx List.not_mem_nil
  | cons e h ih =>
    have hlt : queryCount required capacity h < 2 ^ 64 := Nat.lt_of_le_of_lt (Nat.le_add_right ..) hk
    intro x hx
    rcases List.mem_append.1 hx with hx | hx
    · obtain ⟨rfl, rfl⟩ := arrival?_eq_some (Option.mem_toList.1 hx)
      cases hy : (service required capacity x.before).handlePresence x.update with
      | error err =>
        rw [arrival?_of_refused hy] at hx
        exact absurd hx List.not_mem_nil
      | ok y =>
        obtain ⟨-, -, hissued⟩ := of_handlePresence_eq_ok hy
        have hprev := (numbered hlt).of_bundles
          (x.update.signatures.foldl Bundles.touch (service required capacity x.before).bundles)
        simp only [queryCount, issuedCount, hy, length_issued_of_taken hy] at hk
        -- those in flight afterwards have different numbers, and they are the old ones and then the new ones
        have hafter := (hprev.issueAll _ hk x.update.sender
          ⟨(service required capacity x.before).roster.nextJob⟩).nodup
        rw [hprev.pending_issueAll _ hk, Assoc.keys, List.map_append, List.map_fst_zip] at hafter
        · rw [Arrival.isNumberedAnew, issued_of_taken hy, hissued, decide_eq_true_iff]
          exact hafter
        · apply Nat.le_of_eq
          rw [List.length_map, Discovery.length_issueAll]
    · exact ih hlt x hx

/-- Fewer queries than there are numbers have different ones. As long as no query is given the number of another one in
flight, the waiting list of every entry holds the numbers of the queries in flight for its bundle, whether or not their
jobs are still live, each once and in the order in which they were issued; every query in flight is in the list of its
bundle; and all lists are empty once the queries are cancelled or the service is shut down. -/
theorem waiting_lists_mirror_queries (required : UInt32) (capacity : Nat) (h : History σ) (hp : h.IsPrivate) :
    (h.queryCount required capacity < 2 ^ 64 → h.KeepsNumbersApart required capacity) ∧
    (h.KeepsNumbersApart required capacity →
      let s := h.service required capacity
      (∀ t e, s.bundles.get? t = some e →
        e.waiting = Query.idsFor s.discovery.pending t ∧ e.waiting.Nodup) ∧
      s.discovery.pending.Sublist (h.queries required capacity) ∧
      (∀ id q, s.discovery.pending.get? id = some q →
        ∃ e, s.bundles.get? q.signature = some e ∧ id ∈ e.waiting) ∧
      (∀ t e, s.discovery.cancelAll.bundles.get? t = some e → e.waiting = []) ∧
      (∀ s', s.shutdown = .ok s' → ∀ t e, s'.bundles.get? t = some e → e.waiting = []) ∧
      (s.running = false → ∀ t e, s.bundles.get? t = some e → e.waiting = [])) := by
  refine ⟨keepsNumbersApart, fun hn => ?_⟩
  intro s
  obtain ⟨hm, hsub⟩ := mirrored hp hn
  have hcancelled (t : CapabilitySignature) (e : Bundle) (he : s.discovery.cancelAll.bundles.get? t = some e) :
      e.waiting = [] :=
    (Discovery.mirrors_cancelAll hm).waiting he
  refine ⟨fun t e he => ?_, hsub, fun id q hq => ?_, hcancelled, fun s' hs' => ?_, fun hr t e he => ?_⟩
  · have hwaiting := hm.waiting he
    refine ⟨hwaiting, ?_⟩
    rw [hwaiting]
    exact hm.nodup.sublist (List.filter_sublist.map Prod.fst)
  · have hmem := Assoc.mem_of_get?_eq_some hq
    obtain ⟨e, he⟩ := Option.isSome_iff_exists.1 (hm.known hmem)
    refine ⟨e, he, ?_⟩
    rw [hm.waiting he]
    exact Query.mem_idsFor.2 ⟨q, hmem, rfl⟩
  · rw [shutdown, request] at hs'
    split at hs'
    · rw [← Except.ok.inj hs']
      exact hcancelled
    · exact absurd hs' (by simp)
  · have hnone : s.discovery.pending = [] := pending_of_not_running hr
    rw [hm.waiting he, hnone]
    rfl

/-- The query for the extension is that of the replaced update, and still waited for. -/
theorem waiting_lists_of_replacedQueries :
    let s := replacedQueries.service 5 16
    let video := CapabilitySignature.ofExtension Sample.clientNode "video"
    let base := (Sample.advertisement "0.2").baseSignature
    replacedQueries.IsPrivate ∧ replacedQueries.queryCount 5 16 < 2 ^ 64 ∧
    replacedQueries.KeepsNumbersApart 5 16 ∧ s.roster.jobs.get? ⟨0⟩ = none ∧
    s.discovery.pending.get? ⟨2⟩ = some (.ofJob Sample.laptop ⟨0⟩ video) ∧
    (∃ e, s.bundles.get? video = some e ∧ e.waiting = [⟨2⟩]) ∧
    (∃ e, s.bundles.get? base = some e ∧ e.waiting = [⟨4⟩]) ∧
    (∃ s', s.shutdown = .ok s' ∧ ∃ e, s'.bundles.get? video = some e ∧ e.waiting = []) := by
  intro s video base
  have hprivate : replacedQueries.IsPrivate := by decide
  have hfew : replacedQueries.queryCount 5 16 < 2 ^ 64 := by decide
  obtain ⟨hcount, hmirror⟩ := waiting_lists_mirror_queries 5 16 replacedQueries hprivate
  have hapart := hcount hfew
  obtain ⟨hlists, -, -, -, hshutdown, -⟩ := hmirror hapart
  have hnumbers (t : CapabilitySignature) (ids : List QueryId) (hids : Query.idsFor s.discovery.pending t = ids)
      (hsome : (s.bundles.get? t).isSome = true) : ∃ e, s.bundles.get? t = some e ∧ e.waiting = ids := by
    obtain ⟨e, he⟩ := Option.isSome_iff_exists.1 hsome
    exact ⟨e, he, (hlists t e he).1.trans hids⟩
  refine ⟨hprivate, hfew, hapart, by decide, by decide, hnumbers video _ (by decide) (by decide),
    hnumbers base _ (by decide) (by decide), _, rfl, ?_⟩
  obtain ⟨e, he⟩ := Option.isSome_iff_exists.1
    (show (({ s with running := false, discovery := s.discovery.cancelAll } : Service SinkKind).bundles.get?
      video).isSome = true by decide)
  exact ⟨e, he, hshutdown _ rfl video e he⟩

end History
end Service
end PresenceCaps
