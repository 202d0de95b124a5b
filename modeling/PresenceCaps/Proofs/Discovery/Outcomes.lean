import PresenceCaps.Proofs.Discovery.Pending
import PresenceCaps.Proofs.Trust.History

/-!
Outcomes take effect once. Histories are the calls made to discovery, the latest one in front; queries are told apart by
how many were issued before them, since identifiers may come round again. What is in flight is what was issued and is
neither settled nor cancelled, so that an outcome which comes too late, too early or again can be struck out.
-/
namespace PresenceCaps.Discovery

/-- An outcome may name any query, also one that is settled, cancelled or not yet issued. The store of bundles may be
used by others too. -/
inductive Call where
  | issue (signature : CapabilitySignature) (target : FullAddress) (job : JobId)
  | settle (outcome : Outcome)
  | cancelAll
  | bundle (call : Bundles.Call)

def step (d : Discovery) : Call → Discovery × Option Resolution
  | .issue s a j => ((d.issue s a j).1, none)
  | .settle o => d.settle o
  | .cancelAll => (d.cancelAll, none)
  | .bundle c => ({ d with bundles := d.bundles.step c }, none)

/-- Whether a call is an outcome for a query that is not in flight. -/
def isIdle (d : Discovery) : Call → Bool
  | .settle o => !d.pending.contains o.id
  | _ => false

/-- The identifier of the query before which this many were issued. -/
def numbered (k : Nat) : QueryId := ⟨.ofNat (k + 1)⟩

/-- The calls made to discovery that had issued nothing at first, the latest one in front. -/
abbrev History := List Call

namespace History

/-- Discovery after the calls. -/
def discovery (n : UInt32) : History → Discovery
  | [] => .requiring n
  | c :: h => ((discovery n h).step c).1

/-- The queries that were issued, the latest first. -/
def issued : History → List Query
  | [] => []
  | .issue s a j :: h => .ofJob a j s :: issued h
  | .settle _ :: h | .cancelAll :: h | .bundle _ :: h => issued h

/-- The query before which this many were issued. -/
def query? (h : History) (k : Nat) : Option Query := h.issued.reverse[k]?

/-- The query that an identifier stands for: the last one that was given it. -/
def number? : History → QueryId → Option Nat
  | [], _ => none
  | .issue _ _ _ :: h, id => if numbered (issued h).length = id then some (issued h).length else number? h id
  | .settle _ :: h, id | .cancelAll :: h, id | .bundle _ :: h, id => number? h id

/-- Whether a query has had an outcome or was cancelled. -/
def isOver : History → Nat → Bool
  | [], _ => false
  | .settle o :: h, k => number? h o.id = some k || isOver h k
  | .cancelAll :: h, k => k < (issued h).length || isOver h k
  | .issue _ _ _ :: h, k | .bundle _ :: h, k => isOver h k

/-- The query whose outcome a call brings. -/
def cause? (h : History) : Call → Option Nat
  | .settle o => h.number? o.id
  | _ => none

/-- The resolutions, the latest first, each with the query that it is owed to. -/
def resolutions (n : UInt32) : History → List (Option Nat × Resolution)
  | [] => []
  | c :: h => (((discovery n h).step c).2.map fun r => (cause? h c, r)).toList ++ resolutions n h

/-- The calls without the outcomes whose query was not in flight when they came. -/
def heeded (n : UInt32) : History → History
  | [] => []
  | c :: h => if (discovery n h).isIdle c then heeded n h else c :: heeded n h

/-- Of two queries the first one is answered twice, the second one is cancelled before its reply comes, and one outcome
is for a query that was never issued. -/
def lateOutcomes : History :=
  let base := (Sample.advertisement "0.1").baseSignature
  let video := CapabilitySignature.ofExtension Sample.clientNode "video"
  [.settle ⟨⟨2⟩, .ok Sample.videoExtensionReply⟩, .cancelAll, .settle ⟨⟨1⟩, .ok Sample.tubesReply⟩,
    .settle ⟨⟨1⟩, .ok Sample.audioReply⟩, .settle ⟨⟨7⟩, .ok Sample.audioReply⟩,
    .issue video Sample.laptop ⟨0⟩, .issue base Sample.laptop ⟨0⟩, .bundle (.lookup video), .bundle (.lookup base)]

variable {h : History} {c : Call} {id : QueryId} {k l : Nat} {o : Outcome}

/-! Numbers and identifiers. -/

theorem lt_of_number? (hk : h.number? id = some k) : k < h.issued.length ∧ numbered k = id := by
  induction h with
  | nil => exact absurd hk (by simp [number?])
  | cons c h ih =>
    cases c with
    | issue s a j =>
      rw [number?] at hk
      rw [issued, List.length_cons]
      split at hk
      · rename_i hid
        obtain rfl := Option.some.inj hk
        exact ⟨Nat.lt_succ_self _, hid⟩
      · obtain ⟨hlt, hid⟩ := ih hk
        exact ⟨Nat.lt_succ_of_lt hlt, hid⟩
    | _ => exact ih hk

theorem lt_of_isOver (hk : h.isOver k = true) : k < h.issued.length := by
  induction h with
  | nil => exact absurd hk (by simp [isOver])
  | cons c h ih =>
    cases c with
    | issue s a j =>
      have hlt := ih hk
      rw [issued, List.length_cons]
      omega
    | settle o =>
      rw [isOver, Bool.or_eq_true, decide_eq_true_iff] at hk
      rcases hk with hk | hk
      · exact (lt_of_number? hk).1
      · exact ih hk
    | cancelAll =>
      rw [isOver, Bool.or_eq_true, decide_eq_true_iff] at hk
      rcases hk with hk | hk
      · exact hk
      · exact ih hk
    | bundle c => exact ih hk

theorem query?_issue_self (h : History) (s : CapabilitySignature) (a : FullAddress) (j : JobId) :
    query? (.issue s a j :: h) h.issued.length = some (.ofJob a j s) := by
  rw [query?, issued, List.reverse_cons]
  have hlen : h.issued.length = h.issued.reverse.length := List.length_reverse.symm
  rw [hlen, List.getElem?_concat_length]

theorem query?_issue_of_lt (hk : k < h.issued.length) (s : CapabilitySignature) (a : FullAddress) (j : JobId) :
    query? (.issue s a j :: h) k = h.query? k := by
  rw [query?, issued, List.reverse_cons, query?]
  apply List.getElem?_append_left
  rw [List.length_reverse]
  exact hk

/-- The counter counts the queries, up to a full round. -/
theorem nextId_discovery (n : UInt32) (h : History) :
    (⟨(discovery n h).nextId⟩ : QueryId) = numbered h.issued.length := by
  induction h with
  | nil => rfl
  | cons c h ih =>
    have hid : (discovery n h).nextId = .ofNat ((issued h).length + 1) := congrArg QueryId.value ih
    cases c with
    | issue s a j =>
      have hnext : (discovery n (.issue s a j :: h)).nextId = (discovery n h).nextId + 1 := rfl
      rw [hnext, hid, issued, List.length_cons, numbered]
      exact congrArg QueryId.mk (UInt64.ofNat_add _ _).symm
    | settle o =>
      have hsame : (discovery n (.settle o :: h)).nextId = (discovery n h).nextId := nextId_settle ..
      rw [hsame, hid]
      rfl
    | cancelAll => exact ih
    | bundle c => exact ih

/-- Before identifiers come round again, each of them stands for one query for good. -/
theorem number?_numbered (hk : k < h.issued.length) (hn : h.issued.length < 2 ^ 64) :
    h.number? (numbered k) = some k := by
  induction h with
  | nil => exact absurd hk (Nat.not_lt_zero k)
  | cons c h ih =>
    cases c with
    | issue s a j =>
      rw [issued, List.length_cons] at hk hn
      rw [number?]
      split
      · rename_i hid
        have hvalue : UInt64.ofNat ((issued h).length + 1) = UInt64.ofNat (k + 1) := congrArg QueryId.value hid
        have hnat := congrArg UInt64.toNat hvalue
        have hsmall : k + 1 < 2 ^ 64 := by omega
        rw [UInt64.toNat_ofNat_of_lt' hn, UInt64.toNat_ofNat_of_lt' hsmall] at hnat
        have heq : (issued h).length = k := by omega
        rw [heq]
      · rename_i hid
        have hne : k ≠ (issued h).length := by
          rintro rfl
          exact hid rfl
        exact ih (by omega) (by omega)
    | _ => exact ih hk hn

/-! What is in flight. -/

/-- The query that an identifier stands for is in flight until it is settled or cancelled. -/
theorem get?_pending (n : UInt32) (h : History) (id : QueryId) : (discovery n h).pending.get? id =
    (h.number? id).bind fun k => if h.isOver k then none else h.query? k := by
  induction h with
  | nil => rfl
  | cons c h ih =>
    cases c with
    | issue s a j =>
      have hset : (discovery n (.issue s a j :: h)).pending =
          (discovery n h).pending.set ⟨(discovery n h).nextId⟩ (.ofJob a j s) := rfl
      rw [hset, Assoc.get?_set, nextId_discovery, number?]
      split
      · -- the new query is the last one with its identifier, and nothing has happened to it yet
        have hnot : isOver h (issued h).length = false := by
          by_contra hover
          exact absurd (lt_of_isOver (by simpa using hover)) (Nat.lt_irrefl _)
        rw [Option.bind_some, isOver, hnot, query?_issue_self]
        rfl
      · rw [ih]
        cases hk : number? h id with
        | none => rfl
        | some k => rw [Option.bind_some, Option.bind_some, isOver, query?_issue_of_lt (lt_of_number? hk).1]
    | settle o =>
      rw [discovery, step, get?_pending_settle, ih, number?]
      cases hk : number? h id with
      | none => exact ite_self none
      | some k =>
        rw [Option.bind_some, Option.bind_some]
        by_cases hid : o.id = id
        · -- the query of the outcome is in flight no more
          have hover : isOver (.settle o :: h) k = true := by simp [isOver, hid, hk]
          rw [if_pos hid, if_pos hover]
        · -- two identifiers do not stand for one query
          have hother : number? h o.id ≠ some k := by
            intro ho
            exact hid ((lt_of_number? ho).2.symm.trans (lt_of_number? hk).2)
          have hsame : isOver (.settle o :: h) k = isOver h k := by simp [isOver, hother]
          rw [if_neg hid, hsame]
          rfl
    | cancelAll =>
      have hnone : (discovery n (.cancelAll :: h)).pending.get? id = none := rfl
      rw [hnone, number?]
      cases hk : number? h id with
      | none => rfl
      | some k =>
        have hover : isOver (.cancelAll :: h) k = true := by simp [isOver, (lt_of_number? hk).1]
        rw [Option.bind_some, hover, if_pos rfl]
    | bundle c => exact ih

theorem settle_of_isOver (n : UInt32) (hk : h.number? o.id = some k) (hover : h.isOver k = true) :
    (discovery n h).settle o = (discovery n h, none) := by
  apply settle_of_get?_eq_none
  rw [get?_pending, hk, Option.bind_some, if_pos hover]

theorem settle_of_unissued (n : UInt32) (hk : h.number? o.id = none) :
    (discovery n h).settle o = (discovery n h, none) := by
  apply settle_of_get?_eq_none
  rw [get?_pending, hk, Option.bind_none]

theorem isOver_append (later : History) (hover : h.isOver k = true) : isOver (later ++ h) k = true := by
  induction later with
  | nil => exact hover
  | cons c later ih =>
    rw [List.cons_append]
    cases c with
    | issue s a j => exact ih
    | settle o => rw [isOver, ih, Bool.or_true]
    | cancelAll => rw [isOver, ih, Bool.or_true]
    | bundle c => exact ih

/-! What resolves. -/

theorem mem_resolutions_cons {n : UInt32} {e : Option Nat × Resolution} : e ∈ resolutions n (c :: h) ↔
    ((discovery n h).step c).2 = some e.2 ∧ e.1 = h.cause? c ∨ e ∈ resolutions n h := by
  rw [resolutions, List.mem_append, Option.mem_toList, Option.map_eq_some_iff]
  constructor
  · rintro (⟨x, hx, rfl⟩ | he)
    · exact Or.inl ⟨hx, rfl⟩
    · exact Or.inr he
  · rintro (⟨hx, hc⟩ | he)
    · exact Or.inl ⟨e.2, hx, Prod.ext hc.symm rfl⟩
    · exact Or.inr he

/-- A resolution is owed to a query that was in flight, and is for its job and bundle. -/
theorem exists_of_step_eq_some {n : UInt32} {r : Resolution} (hr : ((discovery n h).step c).2 = some r) :
    ∃ k q, h.cause? c = some k ∧ h.isOver k = false ∧ h.query? k = some q ∧ r.job = q.job ∧
      r.signature = q.signature ∧ isOver (c :: h) k = true := by
  cases c with
  | settle o =>
    rw [step] at hr
    cases hq : (discovery n h).pending.get? o.id with
    | none =>
      rw [settle_of_get?_eq_none hq] at hr
      exact absurd hr (by simp)
    | some q =>
      obtain ⟨r', hr', hjob, hsig, -⟩ := settle_of_get?_eq_some hq
      obtain rfl := Option.some.inj (hr.symm.trans hr')
      rw [get?_pending, Option.bind_eq_some_iff] at hq
      obtain ⟨k, hk, hflight⟩ := hq
      split at hflight
      · exact absurd hflight (by simp)
      · rename_i hover
        exact ⟨k, q, hk, by simpa using hover, hflight, hjob, hsig, by simp [isOver, hk]⟩
  | issue s a j => exact absurd hr (by simp [step])
  | cancelAll => exact absurd hr (by simp [step])
  | bundle c => exact absurd hr (by simp [step])

/-- A query that was issued stays what it is. -/
theorem query?_cons (c : Call) (hk : k < h.issued.length) : query? (c :: h) k = h.query? k := by
  cases c with
  | issue s a j => exact query?_issue_of_lt hk s a j
  | _ => rfl

theorem exists_of_mem_resolutions {n : UInt32} {e : Option Nat × Resolution} (he : e ∈ resolutions n h) :
    ∃ k q, e.1 = some k ∧ h.isOver k = true ∧ h.query? k = some q ∧ e.2.job = q.job ∧ e.2.signature = q.signature := by
  induction h with
  | nil => exact absurd he (by simp [resolutions])
  | cons c h ih =>
    rcases mem_resolutions_cons.1 he with ⟨hr, hcause⟩ | he
    · obtain ⟨k, q, hk, -, hq, hjob, hsig, hover⟩ := exists_of_step_eq_some hr
      have hlt : k < (issued h).length := by
        have hlen := (List.getElem?_eq_some_iff.1 hq).1
        rwa [List.length_reverse] at hlen
      exact ⟨k, q, hcause.trans hk, hover, (query?_cons c hlt).trans hq, hjob, hsig⟩
    · obtain ⟨k, q, hk, hover, hq, hjob, hsig⟩ := ih he
      exact ⟨k, q, hk, isOver_append [c] hover, (query?_cons c (lt_of_isOver hover)).trans hq, hjob, hsig⟩

/-- No query resolves twice: after its resolution it is over, and what is over does not resolve. -/
theorem nodup_causes_resolutions (n : UInt32) (h : History) : ((resolutions n h).map Prod.fst).Nodup := by
  induction h with
  | nil => exact List.nodup_nil
  | cons c h ih =>
    cases hr : ((discovery n h).step c).2 with
    | none =>
      rw [resolutions, hr]
      exact ih
    | some r =>
      rw [resolutions, hr]
      apply List.nodup_cons.2
      refine ⟨?_, ih⟩
      intro hmem
      obtain ⟨e, he, hcause⟩ := List.mem_map.1 hmem
      obtain ⟨k, q, hk, hnot, -⟩ := exists_of_step_eq_some hr
      obtain ⟨l, p, hl, hover, -⟩ := exists_of_mem_resolutions he
      have hkl : some l = some k := hl.symm.trans (hcause.trans hk)
      rw [Option.some.inj hkl, hnot] at hover
      exact absurd hover (by decide)

/-! The calls that count. -/

theorem step_of_isIdle {d : Discovery} {c : Call} (hc : d.isIdle c = true) : d.step c = (d, none) := by
  cases c with
  | settle o =>
    have hnone : d.pending.get? o.id = none := by simpa [isIdle, Assoc.contains] using hc
    exact settle_of_get?_eq_none hnone
  | issue s a j => exact absurd hc (by simp [isIdle])
  | cancelAll => exact absurd hc (by simp [isIdle])
  | bundle c => exact absurd hc (by simp [isIdle])

theorem discovery_heeded (n : UInt32) (h : History) : discovery n (h.heeded n) = discovery n h := by
  induction h with
  | nil => rfl
  | cons c h ih =>
    rw [heeded, discovery]
    split
    · rename_i hc
      rw [ih, step_of_isIdle hc]
    · rw [discovery, ih]

theorem issued_heeded (n : UInt32) (h : History) : (h.heeded n).issued = h.issued := by
  induction h with
  | nil => rfl
  | cons c h ih =>
    cases c with
    | settle o =>
      rw [heeded]
      split
      · exact ih
      · exact ih
    | issue s a j => exact congrArg (Query.ofJob a j s :: ·) ih
    | cancelAll => exact ih
    | bundle c => exact ih

theorem number?_heeded (n : UInt32) (h : History) (id : QueryId) : (h.heeded n).number? id = h.number? id := by
  induction h with
  | nil => rfl
  | cons c h ih =>
    cases c with
    | settle o =>
      rw [heeded]
      split
      · exact ih
      · exact ih
    | issue s a j =>
      have hcons : heeded n (.issue s a j :: h) = .issue s a j :: heeded n h := rfl
      rw [hcons, number?, number?, issued_heeded, ih]
    | cancelAll => exact ih
    | bundle c => exact ih

theorem resolutions_heeded (n : UInt32) (h : History) : resolutions n (h.heeded n) = resolutions n h := by
  induction h with
  | nil => rfl
  | cons c h ih =>
    have hcause : cause? (heeded n h) c = cause? h c := by
      cases c with
      | settle o => exact number?_heeded n h o.id
      | _ => rfl
    rw [heeded, resolutions]
    split
    · rename_i hc
      rw [step_of_isIdle hc, ih]
      rfl
    · rw [resolutions, discovery_heeded, hcause, ih]

/-- Discovery and its bundles end up the same, and resolve the same in the same order, if every outcome is left out whose
query was not in flight when it came. A query resolves once at most, with the job and the bundle it was issued for; once
it has had an outcome or was cancelled, no outcome in its name changes anything ever after, nor does one for an
identifier that no query has. Queries go by the identifiers that issuing them returned, and until these come round
again each of them stands for one query for good. -/
theorem outcomes_take_effect_once (n : UInt32) (h : History) :
    (discovery n (h.heeded n) = discovery n h ∧ resolutions n (h.heeded n) = resolutions n h) ∧
    ((resolutions n h).map Prod.fst).Nodup ∧
    (∀ e ∈ resolutions n h, ∃ k q, e.1 = some k ∧ h.query? k = some q ∧ e.2.job = q.job ∧
      e.2.signature = q.signature) ∧
    (∀ k, h.isOver k = true → ∀ (later : History) (o : Outcome), number? (later ++ h) o.id = some k →
      (discovery n (later ++ h)).settle o = (discovery n (later ++ h), none)) ∧
    (∀ o : Outcome, h.number? o.id = none → (discovery n h).settle o = (discovery n h, none)) ∧
    (∀ s a j, ((discovery n h).issue s a j).2 = numbered h.issued.length ∧
      query? (.issue s a j :: h) h.issued.length = some (.ofJob a j s)) ∧
    (h.issued.length < 2 ^ 64 → ∀ k < h.issued.length, h.number? (numbered k) = some k) := by
  refine ⟨⟨discovery_heeded n h, resolutions_heeded n h⟩, nodup_causes_resolutions n h, ?_, ?_,
    fun o hk => settle_of_unissued n hk, ?_, fun hn k hk => number?_numbered hk hn⟩
  · intro e he
    obtain ⟨k, q, hk, -, hq, hjob, hsig⟩ := exists_of_mem_resolutions he
    exact ⟨k, q, hk, hq, hjob, hsig⟩
  · intro k hover later o hk
    exact settle_of_isOver n hk (isOver_append later hover)
  · intro s a j
    exact ⟨nextId_discovery n h, query?_issue_self h s a j⟩

/-- Neither the second reply to the first query nor the late one to the second adds a confirmation. -/
theorem once_of_lateOutcomes :
    let base := (Sample.advertisement "0.1").baseSignature
    let video := CapabilitySignature.ofExtension Sample.clientNode "video"
    lateOutcomes.issued.length < 2 ^ 64 ∧ lateOutcomes.number? ⟨2⟩ = some 1 ∧
    lateOutcomes.isOver 0 = true ∧ lateOutcomes.isOver 1 = true ∧
    (discovery 5 lateOutcomes).settle ⟨⟨1⟩, .ok Sample.audioReply⟩ = (discovery 5 lateOutcomes, none) ∧
    (discovery 5 lateOutcomes).settle ⟨⟨2⟩, .ok Sample.audioReply⟩ = (discovery 5 lateOutcomes, none) ∧
    (discovery 5 lateOutcomes).settle ⟨⟨7⟩, .ok Sample.audioReply⟩ = (discovery 5 lateOutcomes, none) ∧
    resolutions 5 (lateOutcomes.heeded 5) = [(some 0, ⟨⟨0⟩, base, Sample.audioReply.featureSet⟩)] ∧
    ((discovery 5 (lateOutcomes.heeded 5)).bundles.get? base).map (·.confirmations) = some 1 ∧
    ((discovery 5 (lateOutcomes.heeded 5)).bundles.get? video).map (·.confirmations) = some 0 := by
  intro base video
  obtain ⟨⟨hsame, hresolved⟩, -, -, hover, hunissued, -, hnumbers⟩ := outcomes_take_effect_once 5 lateOutcomes
  have hfew : lateOutcomes.issued.length < 2 ^ 64 := by decide
  have hfirst : lateOutcomes.isOver 0 = true := by decide
  have hsecond : lateOutcomes.isOver 1 = true := by decide
  refine ⟨hfew, hnumbers hfew 1 (by decide), hfirst, hsecond, hover 0 hfirst [] _ (hnumbers hfew 0 (by decide)),
    hover 1 hsecond [] _ (hnumbers hfew 1 (by decide)), hunissued _ (by decide), ?_, ?_, ?_⟩
  · rw [hresolved]
    decide
  · rw [hsame]
    decide
  · rw [hsame]
    decide

end History
end PresenceCaps.Discovery
