import PresenceCaps.Proofs.Trust.Standing

/-!
Replies that come in after a bundle is trusted. Nobody is asked about the bundle any more, but the queries that were out
by then may still be answered: trust stays, and the features are those of the latest reply.
-/
namespace PresenceCaps

theorem CapabilitySignature.isTrustedFrom_nil (s : CapabilitySignature) (n : UInt32) :
    s.isTrustedFrom n [] = false := by
  have hn : ¬ max n.toNat 1 ≤ 0 := by omega
  simp [isTrustedFrom, confirmers, hn]

namespace Bundles.History
variable {n : UInt32} {h : History} {s : CapabilitySignature}

theorem mem_answers {x : Answer} :
    x ∈ answers h s ↔ .success s x.sender x.reply ∈ h ∧ s.takes x.reply = true := by
  rw [answers, List.mem_filterMap]
  constructor
  · rintro ⟨c, hc, hanswer⟩
    cases c with
    | success t sender reply =>
      obtain ⟨⟨rfl, htakes⟩, hx⟩ := Option.ite_none_right_eq_some.1 hanswer
      cases hx
      exact ⟨hc, htakes⟩
    | _ => cases hanswer
  · rintro ⟨hc, htakes⟩
    exact ⟨_, hc, if_pos ⟨rfl, htakes⟩⟩

/-- Trust rests on an answer. -/
theorem exists_answers_eq_cons (ht : (bundles n h).isTrusted s = true) :
    ∃ x xs, answers h s = x :: xs := by
  rw [isTrusted_bundles] at ht
  cases ha : answers h s with
  | nil =>
    rw [ha, CapabilitySignature.isTrustedFrom_nil] at ht
    cases ht
  | cons x xs => exact ⟨x, xs, rfl⟩

/-- What is known of a trusted bundle is what its latest answer says. -/
theorem lookup_of_answers_eq_cons (ht : (bundles n h).isTrusted s = true) {x : Answer} {xs : List Answer}
    (ha : answers h s = x :: xs) : (bundles n h).lookup s = ⟨false, .confirmed, some x.reply.featureSet⟩ := by
  rw [isTrusted_bundles, ha] at ht
  have htrust : (s.standing n (x :: xs)).trust = .confirmed := if_pos ht
  have hquery : (s.standing n (x :: xs)).needsQuery = false := by
    rw [Bundle.needsQuery, htrust]
    rfl
  rw [lookup_bundles, ha]
  simp only [hquery, htrust]
  rfl

theorem isTrusted_append (later : History) (ht : (bundles n h).isTrusted s = true) :
    (bundles n (later ++ h)).isTrusted s = true := by
  have happ : answers (later ++ h) s = answers later s ++ answers h s := List.filterMap_append
  rw [isTrusted_bundles] at ht ⊢
  rw [happ]
  exact CapabilitySignature.isTrustedFrom_append _ ht

/-- A bundle that was trusted on replies with the same features is looked up without a query ever after. What is found are
the features of the last further reply, so they stay as they were for as long as no further reply has others. -/
theorem trusted_features_are_those_of_latest_reply (n : UInt32) (h later : History) (s : CapabilitySignature)
    (agreed : FeatureSet) (ht : (bundles n h).isTrusted s = true)
    (hagreed : ∀ sender reply, .success s sender reply ∈ h → reply.featureSet = agreed) :
    (bundles n (later ++ h)).lookup s =
      ⟨false, .confirmed, some (((answers later s).head?.map fun x => x.reply.featureSet).getD agreed)⟩ ∧
    ((∀ sender reply, .success s sender reply ∈ later → reply.featureSet = agreed) →
      (bundles n (later ++ h)).lookup s = ⟨false, .confirmed, some agreed⟩) := by
  have happ : answers (later ++ h) s = answers later s ++ answers h s := List.filterMap_append
  have htrusted := isTrusted_append later ht
  -- the latest answer is the last straggler, or one of those that made the bundle trusted
  cases hlater : answers later s with
  | nil =>
    obtain ⟨x, xs, ha⟩ := exists_answers_eq_cons ht
    have hx : x.reply.featureSet = agreed :=
      hagreed _ _ (mem_answers.1 (ha ▸ List.mem_cons_self)).1
    rw [hlater, ha, List.nil_append] at happ
    have hlookup := lookup_of_answers_eq_cons htrusted happ
    rw [hx] at hlookup
    exact ⟨hlookup, fun _ => hlookup⟩
  | cons x xs =>
    rw [hlater, List.cons_append] at happ
    have hlookup := lookup_of_answers_eq_cons htrusted happ
    refine ⟨hlookup, fun hsame => ?_⟩
    have hx : x.reply.featureSet = agreed :=
      hsame _ _ (mem_answers.1 (hlater ▸ List.mem_cons_self)).1
    rw [hlookup, hx]

/-- Two resources agree about a bundle without a digest. -/
def agreement : History :=
  let s := (Sample.advertisement "0.1").baseSignature
  [.success s Sample.laptop Sample.audioReply, .lookup s, .success s Sample.phone Sample.audioReply]

theorem latest_reply_of_agreement :
    let s := (Sample.advertisement "0.1").baseSignature
    let straggler : Call := .success s Sample.laptop Sample.tubesReply
    (bundles 2 ([straggler, .lookup s] ++ agreement)).lookup s =
      ⟨false, .confirmed, some Sample.tubesReply.featureSet⟩ ∧
    (bundles 2 ([.failure s] ++ agreement)).lookup s = ⟨false, .confirmed, some Sample.audioReply.featureSet⟩ := by
  intro s straggler
  have htrusted : (bundles 2 agreement).isTrusted s = true := by decide
  have hagreed : ∀ sender reply, .success s sender reply ∈ agreement →
      reply.featureSet = Sample.audioReply.featureSet := by
    intro sender reply hmem
    simp only [agreement, List.mem_cons, Call.success.injEq, reduceCtorEq, List.not_mem_nil, or_false,
      false_or] at hmem
    rcases hmem with ⟨-, -, rfl⟩ | ⟨-, -, rfl⟩ <;> rfl
  refine ⟨?_, ?_⟩
  · rw [(trusted_features_are_those_of_latest_reply 2 agreement [straggler, .lookup s] s _ htrusted hagreed).1]
    decide
  · refine (trusted_features_are_those_of_latest_reply 2 agreement [.failure s] s _ htrusted hagreed).2 ?_
    simp

/-- The phone alone has confirmed the bundle, and then a late answer of the laptop rewrites it. -/
theorem not_trusted_features_stay :
    ¬ ∀ (n : UInt32) (h later : History) (s : CapabilitySignature) (agreed : FeatureSet), s.isHashed = false →
      (bundles n h).isTrusted s = true →
      (∀ sender reply, .success s sender reply ∈ h → reply.featureSet = agreed) →
      (bundles n (later ++ h)).lookup s = ⟨false, .confirmed, some agreed⟩ := by
  intro hstay
  let s := (Sample.advertisement "0.1").baseSignature
  have hrewritten := hstay 1 [.success s Sample.phone Sample.audioReply] [.success s Sample.laptop Sample.tubesReply] s
    Sample.audioReply.featureSet (by decide) (by decide) (by
      intro sender reply hmem
      cases List.mem_singleton.1 hmem
      rfl)
  exact absurd hrewritten (by decide)

end Bundles.History
end PresenceCaps
