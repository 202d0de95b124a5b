import Mathlib
import PresenceCaps.Proofs.Disco.IllFormed
import PresenceCaps.Proofs.Trust.History

/-! The store of bundles is what its history says. -/
namespace PresenceCaps

theorem CapabilitySignature.isSupported_of_verifiableDigest {s : CapabilitySignature} {d : Digest}
    (h : s.verifiableDigest = some d) : d.algorithm.isSupported = true :=
  (Option.filter_eq_some_iff.1 h).2

theorem CapabilitySignature.takes_of_hash? {s : CapabilitySignature} {d : Digest} (hd : s.verifiableDigest = some d)
    {reply : DiscoInfo} {text : String} (htext : Verification.string? reply = some text)
    (hhash : d.algorithm.hash? text = some d.value) : s.takes reply = true := by
  rw [takes, hd, Option.all_some, decide_eq_true_iff, DiscoInfo.digest?, htext]
  exact hhash

theorem DiscoInfo.verify_eq_agrees {reply : DiscoInfo} {d : Digest} (h : d.algorithm.isSupported = true) :
    reply.verify d = .agrees ↔ reply.digest? d.algorithm = some d.value := by
  rw [verify, if_pos h]
  by_cases hd : reply.digest? d.algorithm = some d.value <;> simp [hd]

namespace Bundles

/-- What a call does to the entry of its bundle. -/
def Call.act (required : UInt32) : Call → Option Bundle → Option Bundle
  | lookup _, e => some (e.getD .new)
  | attach _ id, e => e.map fun e => { e with waiting := e.waiting ++ [id] }
  | detach _ id, e => e.map fun e => { e with waiting := e.waiting.filter (· ≠ id) }
  | success s sender reply, e =>
    if s.takes reply then
      some (if s.isHashed then (e.getD .new).verifiedBy sender reply
        else (e.getD .new).confirmedBy required sender reply)
    else e
  | failure _, e => e

theorem record_of_takes (b : Bundles) {s : CapabilitySignature} (sender : FullAddress) {reply : DiscoInfo}
    (h : s.takes reply = true) : b.record s sender reply = b.update s fun e =>
      if s.isHashed then e.verifiedBy sender reply else e.confirmedBy b.required sender reply := by
  rw [CapabilitySignature.takes] at h
  rw [record, threshold, CapabilitySignature.isHashed]
  cases hd : s.verifiableDigest with
  | none => rfl
  | some d =>
    have hs := CapabilitySignature.isSupported_of_verifiableDigest hd
    rw [hd, Option.all_some, decide_eq_true_iff, ← DiscoInfo.verify_eq_agrees hs] at h
    exact if_pos h

theorem record_of_not_takes (b : Bundles) {s : CapabilitySignature} (sender : FullAddress) {reply : DiscoInfo}
    (h : s.takes reply = false) : b.record s sender reply = b := by
  rw [CapabilitySignature.takes] at h
  rw [record]
  cases hd : s.verifiableDigest with
  | none => simp [hd] at h
  | some d =>
    have hs := CapabilitySignature.isSupported_of_verifiableDigest hd
    rw [hd, Option.all_some, decide_eq_false_iff_not, ← DiscoInfo.verify_eq_agrees hs] at h
    exact if_neg h

@[simp] theorem required_step (b : Bundles) (c : Call) : (b.step c).required = b.required := by
  cases c with
  | success s sender reply =>
    rw [step]
    cases h : s.takes reply with
    | true => rw [record_of_takes b sender h]; rfl
    | false => rw [record_of_not_takes b sender h]
  | _ => rfl

/-- A call acts on the entry of its own bundle and on no other. -/
theorem get?_step (b : Bundles) (c : Call) (s : CapabilitySignature) :
    (b.step c).get? s = if c.signature = s then c.act b.required (b.get? s) else b.get? s := by
  cases c with
  | lookup t =>
    rw [step, touch, get?_update]
    by_cases h : t = s
    · subst h
      rfl
    · simp [Call.signature, h]
  | attach t id => exact get?_attach ..
  | detach t id => exact get?_detach ..
  | success t sender reply =>
    rw [step]
    cases hr : t.takes reply with
    | true =>
      rw [record_of_takes b sender hr, get?_update]
      by_cases h : t = s
      · subst h
        simp [Call.signature, Call.act, hr]
      · simp [Call.signature, h]
    | false =>
      rw [record_of_not_takes b sender hr]
      simp [Call.act, hr]
  | failure t => simp [step, Call.act]

/-- Who waits for a bundle has nothing to do with what is known of it. -/
theorem standing_detach (b : Bundles) (s t : CapabilitySignature) (id : QueryId) :
    ((b.detach s id).get? t).map Bundle.standing = (b.get? t).map Bundle.standing := by
  rw [get?_detach]
  split
  · rw [Option.map_map]
    rfl
  · rfl

end Bundles

namespace Bundle
variable (e : Bundle) (sender : FullAddress) (reply : DiscoInfo)

theorem addConfirmer_eq : e.addConfirmer sender =
    { e with confirmers := if sender ∈ e.confirmers then e.confirmers else e.confirmers ++ [sender] } := by
  rw [addConfirmer]
  split <;> rfl

theorem standing_getD (e : Option Bundle) : (e.getD .new).standing = (e.map standing).getD .new := by
  cases e <;> rfl

theorem standing_verifiedBy : (e.verifiedBy sender reply).standing = e.standing.verifiedBy sender reply := by
  simp only [standing, verifiedBy, addConfirmer_eq, learnSoftware]

theorem standing_confirmedBy (n : UInt32) :
    (e.confirmedBy n sender reply).standing = e.standing.confirmedBy n sender reply := by
  simp only [standing, confirmedBy, addConfirmer_eq, learnSoftware]
  rfl

/-- A count that is cut at the largest number goes on as one that stays there. -/
theorem nextCount_ofNat_min (k : Nat) :
    nextCount (.ofNat (min k (2 ^ 32 - 1))) = .ofNat (min (k + 1) (2 ^ 32 - 1)) := by
  rw [nextCount]
  -- below the largest number both go up by one, at it both stay
  by_cases hk : k < 2 ^ 32 - 1
  · have hle : min k (2 ^ 32 - 1) < 2 ^ 32 := by omega
    have hne : UInt32.ofNat (min k (2 ^ 32 - 1)) ≠ 4294967295 := by
      intro h
      have hn := congrArg UInt32.toNat h
      rw [UInt32.toNat_ofNat_of_lt' hle] at hn
      have hmax : (4294967295 : UInt32).toNat = 2 ^ 32 - 1 := rfl
      omega
    rw [if_neg hne, Nat.min_eq_left (by omega), Nat.min_eq_left (by omega), UInt32.ofNat_add]
    rfl
  · rw [Nat.min_eq_right (by omega), Nat.min_eq_right (by omega)]
    rfl

theorem toNat_max_one (n : UInt32) : (max n 1).toNat = max n.toNat 1 := by
  have hmax : max n 1 = if n ≤ 1 then 1 else n := rfl
  rw [hmax]
  by_cases hn : n ≤ 1
  · have hle : n.toNat ≤ 1 := UInt32.le_iff_toNat_le.1 hn
    rw [if_pos hn, Nat.max_eq_right hle]
    rfl
  · have hlt : ¬ n.toNat ≤ 1 := fun h => hn (UInt32.le_iff_toNat_le.2 h)
    rw [if_neg hn, Nat.max_eq_left (by omega)]

/-- The threshold is never larger than the largest count. -/
theorem ofNat_min_lt (k : Nat) (n : UInt32) :
    UInt32.ofNat (min k (2 ^ 32 - 1)) < max n 1 ↔ k < max n.toNat 1 := by
  have hn : n.toNat < 2 ^ 32 := n.toNat_lt
  have hk : min k (2 ^ 32 - 1) < 2 ^ 32 := by omega
  rw [UInt32.lt_iff_toNat_lt, toNat_max_one, UInt32.toNat_ofNat_of_lt' hk]
  omega

end Bundle

namespace CapabilitySignature
variable {s : CapabilitySignature}

/-- The first answer of a resource confirms, a further one does not. -/
theorem confirmers_cons (x : Answer) (xs : List Answer) :
    confirmers (x :: xs) = if x.sender ∈ confirmers xs then confirmers xs else x.sender :: confirmers xs := by
  simp only [confirmers, List.map_cons, List.mem_dedup]
  split
  · rename_i hx
    exact List.dedup_cons_of_mem hx
  · rename_i hx
    exact List.dedup_cons_of_notMem hx

theorem length_confirmers_le_cons (x : Answer) (xs : List Answer) :
    (confirmers xs).length ≤ (confirmers (x :: xs)).length := by
  rw [confirmers_cons]
  split
  · exact Nat.le_refl _
  · exact Nat.le_succ _

theorem standing_nil (s : CapabilitySignature) (n : UInt32) : s.standing n [] = .new := by
  have hn : ¬ max n.toNat 1 ≤ 0 := by omega
  simp [standing, isTrustedFrom, countFrom, confirmers, Bundle.new, hn]

/-- The list in which an entry has its confirmers grows at its end. -/
theorem reverse_confirmers_cons (x : Answer) (xs : List Answer) :
    (confirmers (x :: xs)).reverse =
      if x.sender ∈ (confirmers xs).reverse then (confirmers xs).reverse
      else (confirmers xs).reverse ++ [x.sender] := by
  rw [confirmers_cons]
  simp only [List.mem_reverse]
  split <;> simp

theorem findSome?_software_cons (x : Answer) (xs : List Answer) :
    (x :: xs).findSome? (fun y => y.reply.software?) =
      (x.reply.software? <|> xs.findSome? fun y => y.reply.software?) := by
  rw [List.findSome?_cons]
  cases x.reply.software? <;> rfl

theorem standing_cons_of_isHashed (hs : s.isHashed = true) (n : UInt32) (x : Answer) (xs : List Answer) :
    s.standing n (x :: xs) = (s.standing n xs).verifiedBy x.sender x.reply := by
  have ht : s.isTrustedFrom n (x :: xs) = true := if_pos hs
  have hc : s.countFrom (x :: xs) = 1 := by
    rw [countFrom, if_pos hs, List.length_cons]
    omega
  rw [Bundle.verifiedBy, Bundle.addConfirmer_eq, standing, ht, hc, reverse_confirmers_cons,
    findSome?_software_cons]
  rfl

theorem isTrustedFrom_of_not_isHashed (hs : s.isHashed = false) (n : UInt32) (xs : List Answer) :
    s.isTrustedFrom n xs = decide (max n.toNat 1 ≤ (confirmers xs).length) := by
  rw [isTrustedFrom, hs]
  rfl

theorem countFrom_of_not_isHashed (hs : s.isHashed = false) (xs : List Answer) :
    s.countFrom xs = min (confirmers xs).length (2 ^ 32 - 1) := by
  rw [countFrom, hs]
  rfl

/-- Who has confirmed before is not counted again. -/
theorem ofNat_countFrom_cons (hs : s.isHashed = false) (x : Answer) (xs : List Answer) :
    .ofNat (s.countFrom (x :: xs)) = if x.sender ∈ (confirmers xs).reverse then .ofNat (s.countFrom xs)
      else Bundle.nextCount (.ofNat (s.countFrom xs)) := by
  simp only [countFrom_of_not_isHashed hs, confirmers_cons, List.mem_reverse]
  split
  · rfl
  · exact (Bundle.nextCount_ofNat_min _).symm

/-- Trust is kept, and gained as soon as the count reaches the threshold. -/
theorem trust_cons (hs : s.isHashed = false) (n : UInt32) (x : Answer) (xs : List Answer) :
    (s.standing n (x :: xs)).trust =
      if (s.standing n xs).trust = .pending ∧ UInt32.ofNat (s.countFrom (x :: xs)) < max n 1 then .pending
      else .confirmed := by
  have hgrow := length_confirmers_le_cons x xs
  simp only [standing, isTrustedFrom_of_not_isHashed hs, countFrom_of_not_isHashed hs, Bundle.ofNat_min_lt]
  -- without enough resources now there were not enough before
  by_cases hx : max n.toNat 1 ≤ (confirmers (x :: xs)).length
  · rw [if_pos (decide_eq_true hx), if_neg fun h => absurd h.2 (Nat.not_lt.2 hx)]
  · have hxs : ¬ max n.toNat 1 ≤ (confirmers xs).length := fun h => hx (Nat.le_trans h hgrow)
    rw [if_neg (by simpa using hx), if_pos ⟨if_neg (by simpa using hxs), Nat.not_le.1 hx⟩]

theorem standing_cons_of_not_isHashed (hs : s.isHashed = false) (n : UInt32) (x : Answer) (xs : List Answer) :
    s.standing n (x :: xs) = (s.standing n xs).confirmedBy (max n 1) x.sender x.reply := by
  have hfields : s.standing n (x :: xs) = ⟨(s.standing n (x :: xs)).trust, .ofNat (s.countFrom (x :: xs)),
      (confirmers (x :: xs)).reverse, some x.reply.featureSet, (x :: xs).findSome? fun y => y.reply.software?,
      []⟩ := rfl
  rw [hfields, trust_cons hs, ofNat_countFrom_cons hs, reverse_confirmers_cons, findSome?_software_cons,
    Bundle.confirmedBy, Bundle.addConfirmer_eq]
  rfl

/-- What was trusted once stays so. -/
theorem isTrustedFrom_append {n : UInt32} (xs : List Answer) {ys : List Answer} (h : s.isTrustedFrom n ys = true) :
    s.isTrustedFrom n (xs ++ ys) = true := by
  induction xs with
  | nil => exact h
  | cons x xs ih =>
    rw [List.cons_append]
    cases hs : s.isHashed with
    | true => exact if_pos hs
    | false =>
      rw [isTrustedFrom_of_not_isHashed hs, decide_eq_true_iff] at ih ⊢
      exact Nat.le_trans ih (length_confirmers_le_cons x _)

end CapabilitySignature

namespace Bundles.History
variable {c : Call} {h : History} {s : CapabilitySignature} {sender : FullAddress} {reply : DiscoInfo}

@[simp] theorem required_bundles (n : UInt32) (h : History) : (bundles n h).required = max n 1 := by
  induction h with
  | nil => rfl
  | cons c h ih => rw [bundles, required_step, ih]

theorem answers_cons_of_ne (hc : c.signature ≠ s) : answers (c :: h) s = answers h s := by
  refine List.filterMap_cons_none ?_
  cases c with
  | success t sender reply => exact if_neg fun ht => hc ht.1
  | _ => rfl

theorem isKnown_cons_of_ne (hc : c.signature ≠ s) : isKnown (c :: h) s = isKnown h s := by
  have hl : c.isLookup s = false := by
    cases c with
    | lookup t => exact decide_eq_false hc
    | _ => rfl
  rw [isKnown, answers_cons_of_ne hc, List.any_cons, hl]
  rfl

theorem bundle?_cons_of_ne (n : UInt32) (hc : c.signature ≠ s) : bundle? n (c :: h) s = bundle? n h s := by
  rw [bundle?, isKnown_cons_of_ne hc, answers_cons_of_ne hc]
  rfl

theorem getD_bundle? (n : UInt32) (h : History) (s : CapabilitySignature) :
    (bundle? n h s).getD .new = s.standing n (answers h s) := by
  cases hk : isKnown h s with
  | true => simp [bundle?, hk]
  | false =>
    have ha : answers h s = [] := by simp_all [isKnown]
    simp [bundle?, hk, ha, s.standing_nil n]

theorem answers_success (hr : s.takes reply = true) :
    answers (.success s sender reply :: h) s = ⟨sender, reply⟩ :: answers h s :=
  List.filterMap_cons_some (if_pos ⟨rfl, hr⟩)

/-- A reply that does not recompute to the digest is no answer. -/
theorem answers_success_of_not_takes (hr : s.takes reply = false) :
    answers (.success s sender reply :: h) s = answers h s := by
  refine List.filterMap_cons_none (if_neg fun ht => ?_)
  rw [hr] at ht
  exact absurd ht.2 (by decide)

theorem bundle?_lookup (n : UInt32) : bundle? n (.lookup s :: h) s = some (s.standing n (answers h s)) := by
  have hk : isKnown (.lookup s :: h) s = true := by simp [isKnown, Call.isLookup]
  rw [bundle?, if_pos hk]
  rfl

theorem bundle?_success (n : UInt32) (hr : s.takes reply = true) :
    bundle? n (.success s sender reply :: h) s = some (s.standing n (⟨sender, reply⟩ :: answers h s)) := by
  have hk : isKnown (.success s sender reply :: h) s = true := by simp [isKnown, answers_success hr]
  rw [bundle?, if_pos hk, answers_success hr]

theorem bundle?_success_of_not_takes (n : UInt32) (hr : s.takes reply = false) :
    bundle? n (.success s sender reply :: h) s = bundle? n h s := by
  have hk : isKnown (.success s sender reply :: h) s = isKnown h s := by
    rw [isKnown, answers_success_of_not_takes hr]
    rfl
  rw [bundle?, hk, answers_success_of_not_takes hr]
  rfl

/-- What a call does to an entry is what it adds to the history of its bundle. -/
theorem map_standing_act (n : UInt32) (c : Call) {e : Option Bundle}
    (he : e.map Bundle.standing = bundle? n h c.signature) :
    (c.act (max n 1) e).map Bundle.standing = bundle? n (c :: h) c.signature := by
  have hnow : (e.getD .new).standing = c.signature.standing n (answers h c.signature) := by
    rw [Bundle.standing_getD, he, getD_bundle?]
  -- only a look-up and an answer that counts are seen in the history, and only they change more than the queries
  cases c with
  | lookup t =>
    rw [Call.signature] at hnow ⊢
    rw [bundle?_lookup, ← hnow]
    rfl
  | attach t id =>
    rw [Call.act, Option.map_map]
    exact he
  | detach t id =>
    rw [Call.act, Option.map_map]
    exact he
  | success t sender reply =>
    rw [Call.signature] at he hnow ⊢
    rw [Call.act]
    cases hr : t.takes reply with
    | false =>
      rw [bundle?_success_of_not_takes n hr]
      exact he
    | true =>
      rw [bundle?_success n hr, if_pos rfl, Option.map_some]
      cases ht : t.isHashed with
      | true => rw [if_pos rfl, Bundle.standing_verifiedBy, hnow, CapabilitySignature.standing_cons_of_isHashed ht]
      | false =>
        rw [if_neg (by decide), Bundle.standing_confirmedBy, hnow,
          CapabilitySignature.standing_cons_of_not_isHashed ht]
  | failure t => exact he

theorem get?_bundles (n : UInt32) (h : History) (s : CapabilitySignature) :
    ((bundles n h).get? s).map Bundle.standing = bundle? n h s := by
  induction h with
  | nil => rfl
  | cons c h ih =>
    rw [bundles, get?_step, required_bundles]
    by_cases hc : c.signature = s
    · subst hc
      rw [if_pos rfl]
      exact map_standing_act n c ih
    · rw [if_neg hc, ih, bundle?_cons_of_ne n hc]

/-- Calls for other bundles do not matter. -/
theorem get?_bundles_about (n : UInt32) (h : History) (s : CapabilitySignature) :
    (bundles n (h.about s)).get? s = (bundles n h).get? s := by
  induction h with
  | nil => rfl
  | cons c h ih =>
    rw [bundles, get?_step, required_bundles]
    -- a call about the bundle acts on the same entry in both stores
    by_cases hc : c.signature = s
    · have hf : about (c :: h) s = c :: about h s := List.filter_cons_of_pos (decide_eq_true hc)
      rw [hf, bundles, get?_step, required_bundles, ih]
    · have hf : about (c :: h) s = about h s := List.filter_cons_of_neg (by simpa using hc)
      rw [hf, ih, if_neg hc]

/-- A look-up answers from what the history says of the bundle. -/
theorem lookup_bundles (n : UInt32) (h : History) (s : CapabilitySignature) :
    let e := s.standing n (answers h s)
    (bundles n h).lookup s = ⟨e.needsQuery, e.trust, if e.needsQuery then e.features else some e.featureSet⟩ := by
  intro e
  have he : (((bundles n h).get? s).getD .new).standing = e := by
    rw [Bundle.standing_getD, get?_bundles, getD_bundle?]
  rw [← he]
  rfl

theorem isTrusted_bundles (n : UInt32) (h : History) (s : CapabilitySignature) :
    (bundles n h).isTrusted s = s.isTrustedFrom n (answers h s) := by
  rw [isTrusted, lookup_bundles, Bundle.needsQuery, CapabilitySignature.standing]
  cases s.isTrustedFrom n (answers h s) <;> rfl

/-- The store is what its history says of every bundle. Replies that do not recompute and failures change nothing, no
trust is lost, and what is told of other bundles does not matter. -/
theorem bundles_eq_history (n : UInt32) (h : History) :
    (∀ s, ((bundles n h).get? s).map Bundle.standing = bundle? n h s) ∧
    (∀ s sender reply, s.takes reply = false → bundles n (.success s sender reply :: h) = bundles n h) ∧
    (∀ s, bundles n (.failure s :: h) = bundles n h) ∧
    (∀ s more, (bundles n h).isTrusted s = true → (bundles n (more ++ h)).isTrusted s = true) ∧
    ∀ s, (bundles n (h.about s)).get? s = (bundles n h).get? s := by
  refine ⟨get?_bundles n h, fun s sender reply hr => record_of_not_takes _ sender hr, fun s => rfl, ?_,
    get?_bundles_about n h⟩
  intro s more ht
  rw [isTrusted_bundles] at ht ⊢
  have happ : answers (more ++ h) s = answers more s ++ answers h s := List.filterMap_append
  rw [happ]
  exact CapabilitySignature.isTrustedFrom_append _ ht

/-- Two resources are enough for the bundle without a digest. A reply that does not recompute to a digest teaches
nothing, and of replies that do, each is enough and counts as one. -/
theorem bundles_of_secondConfirmation :
    let s := (Sample.advertisement "0.1").baseSignature
    let hashed := Sample.hashedAdvertisement.baseSignature
    let ping : CapabilitySignature := .ofHash Sample.clientNode "6ybkYxrN0EoGp7Gg2t3wSksH5A0=" .sha1
    ((bundles 2 secondConfirmation).get? s).map Bundle.standing = some ⟨.confirmed, 2,
      [Sample.laptop, Sample.phone], some Sample.audioReply.featureSet, Sample.hashedReply.software?, []⟩ ∧
    bundles 2 (.success hashed Sample.phone stutter :: secondConfirmation) = bundles 2 secondConfirmation ∧
    (bundles 2 (.success s Sample.laptop stutter :: secondConfirmation)).isTrusted s = true ∧
    (bundles 2 (.success ping Sample.laptop stutter :: secondConfirmation)).get? ping = none ∧
    ((bundles 2 (.success ping Sample.phone pingReply :: .success ping Sample.laptop pingReply ::
      secondConfirmation)).get? ping).map Bundle.standing = some ⟨.confirmed, 1, [Sample.laptop, Sample.phone],
      some pingReply.featureSet, none, []⟩ := by
  intro s hashed ping
  obtain ⟨hget, hmiss, -, hkeep, -⟩ := bundles_eq_history 2 secondConfirmation
  have htrusted : (bundles 2 secondConfirmation).isTrusted s = true := by
    rw [isTrusted_bundles]
    decide
  have hnone : Verification.string? stutter = none :=
    Verification.string?_eq_none_iff.2 (.feature (f := Feature.tubes) (by decide))
  have hmissed {t : CapabilitySignature} {d : Digest} (hd : t.verifiableDigest = some d) : t.takes stutter = false := by
    rw [CapabilitySignature.takes, hd, Option.all_some, DiscoInfo.digest?, hnone]
    rfl
  have hstring : Verification.string? pingReply = some "urn:xmpp:jingle:1<urn:xmpp:ping<" := by cbv
  have hhash : HashAlgorithm.sha1.hash? "urn:xmpp:jingle:1<urn:xmpp:ping<" = some "6ybkYxrN0EoGp7Gg2t3wSksH5A0=" := by
    decide +kernel
  have htakes : ping.takes pingReply = true := CapabilitySignature.takes_of_hash? rfl hstring hhash
  refine ⟨?_, hmiss hashed Sample.phone stutter (hmissed rfl), hkeep s [_] htrusted, ?_, ?_⟩
  · rw [hget s]
    decide
  · have hunknown := hget ping
    rw [hmiss ping Sample.laptop stutter (hmissed rfl)]
    exact Option.map_eq_none_iff.1 (hunknown.trans rfl)
  · rw [(bundles_eq_history 2 _).1 ping, bundle?, isKnown, answers_success htakes, answers_success htakes]
    rfl

end Bundles.History
end PresenceCaps
