import Mathlib
import PresenceCaps.Proofs.Disco.Spelling
import PresenceCaps.Proofs.Trust.Stragglers

/-!
What a digest says of capabilities. Replies with the same verification string spell out the same, so those that grant all
they spell out grant the same; a reply in which an identity, a form or a part of a longer feature reads like a feature
need not.
-/
namespace PresenceCaps

/-- No two of the texts hash alike. -/
def HashAlgorithm.IsCollisionFree (a : HashAlgorithm) (texts : List String) : Prop :=
  ∀ t ∈ texts, ∀ u ∈ texts, a.hash? t = a.hash? u → t = u

namespace DiscoInfo
variable {a b : DiscoInfo} {text : String}

theorem spelled_eq_spelled (ha : Verification.string? a = some text) (hb : Verification.string? b = some text) :
    a.spelled = b.spelled := by
  rw [spelled_eq ha, spelled_eq hb]

/-- Next to a plain reply with the same verification string, the plain ones are those that agree with it. -/
theorem capabilities_eq_iff_isPlain (ha : Verification.string? a = some text)
    (hb : Verification.string? b = some text) (hplain : b.isPlain = true) :
    a.featureSet.capabilities = b.featureSet.capabilities ↔ a.isPlain = true := by
  rw [isPlain_iff] at hplain ⊢
  rw [hplain, spelled_eq_spelled ha hb]

end DiscoInfo

namespace Bundles.History
variable {n : UInt32} {h : History} {s : CapabilitySignature} {d : Digest} {x y : Answer}

theorem digest?_of_mem_answers (hd : s.verifiableDigest = some d) (hx : x ∈ answers h s) :
    x.reply.digest? d.algorithm = some d.value := by
  have htakes := (mem_answers.1 hx).2
  rw [CapabilitySignature.takes, hd, Option.all_some, decide_eq_true_iff] at htakes
  exact htakes

/-- Answers that recompute to one digest have one verification string, unless two of their strings hash alike. -/
theorem exists_string_of_mem_answers (hd : s.verifiableDigest = some d)
    (hfree : d.algorithm.IsCollisionFree ((answers h s).filterMap fun x => Verification.string? x.reply))
    (hx : x ∈ answers h s) (hy : y ∈ answers h s) :
    ∃ text, Verification.string? x.reply = some text ∧ Verification.string? y.reply = some text := by
  obtain ⟨t, ht, hashed⟩ := Option.bind_eq_some_iff.1 (digest?_of_mem_answers hd hx)
  obtain ⟨u, hu, hashedToo⟩ := Option.bind_eq_some_iff.1 (digest?_of_mem_answers hd hy)
  have htu : t = u := hfree t (List.mem_filterMap.2 ⟨x, hx, ht⟩) u (List.mem_filterMap.2 ⟨y, hy, hu⟩)
    (hashed.trans hashedToo.symm)
  exact ⟨t, ht, htu ▸ hu⟩

/-- One answer that recomputes to the digest makes its bundle trusted. -/
theorem isTrusted_of_mem_answers (n : UInt32) (hd : s.verifiableDigest = some d) (hx : x ∈ answers h s) :
    (bundles n h).isTrusted s = true := by
  have hhashed : s.isHashed = true := by
    rw [CapabilitySignature.isHashed, hd]
    rfl
  have hsome : (answers h s).isEmpty = false := List.isEmpty_eq_false_iff_exists_mem.2 ⟨x, hx⟩
  rw [isTrusted_bundles, CapabilitySignature.isTrustedFrom, if_pos hhashed, hsome]
  rfl

/-- The features of a trusted bundle are those of an answer. -/
theorem exists_trustedFeatures_eq (ht : (bundles n h).isTrusted s = true) :
    ∃ y ∈ answers h s, (bundles n h).trustedFeatures s = y.reply.featureSet := by
  obtain ⟨y, ys, hanswers⟩ := exists_answers_eq_cons ht
  refine ⟨y, hanswers ▸ List.mem_cons_self, ?_⟩
  rw [trustedFeatures, if_pos ht, lookup_of_answers_eq_cons ht hanswers]
  rfl

/-- Two replies with the same verification string spell out the same capabilities, and all that either grants is among
them. If one of them is plain, both grant the same just if the other one is plain too. So a trusted bundle with a digest
grants nothing that an answer does not spell out, and what plain answers grant, whichever of them came last. -/
theorem digest_pins_plain_capabilities :
    (∀ (a b : DiscoInfo) (text : String), Verification.string? a = some text → Verification.string? b = some text →
      a.spelled = b.spelled ∧ b.spelled.contains a.featureSet.capabilities = true ∧
      (b.isPlain = true → (a.featureSet.capabilities = b.featureSet.capabilities ↔ a.isPlain = true))) ∧
    ∀ (n : UInt32) (h : History) (s : CapabilitySignature) (d : Digest), s.verifiableDigest = some d →
      d.algorithm.IsCollisionFree ((answers h s).filterMap fun x => Verification.string? x.reply) →
      ∀ x ∈ answers h s, (bundles n h).isTrusted s = true ∧
        x.reply.spelled.contains ((bundles n h).trustedFeatures s).capabilities = true ∧
        ((∀ y ∈ answers h s, y.reply.isPlain = true) →
          ((bundles n h).trustedFeatures s).capabilities = x.reply.featureSet.capabilities) := by
  constructor
  · intro a b text ha hb
    have hspelled := DiscoInfo.spelled_eq_spelled ha hb
    refine ⟨hspelled, ?_, DiscoInfo.capabilities_eq_iff_isPlain ha hb⟩
    rw [← hspelled]
    exact DiscoInfo.spelled_contains a
  · intro n h s d hd hfree x hx
    have htrusted := isTrusted_of_mem_answers n hd hx
    obtain ⟨y, hy, hfeatures⟩ := exists_trustedFeatures_eq htrusted
    obtain ⟨text, hxtext, hytext⟩ := exists_string_of_mem_answers hd hfree hx hy
    rw [hfeatures]
    refine ⟨htrusted, ?_, fun hplain => ?_⟩
    · rw [DiscoInfo.spelled_eq_spelled hxtext hytext]
      exact DiscoInfo.spelled_contains y.reply
    · exact (DiscoInfo.capabilities_eq_iff_isPlain hytext hxtext (hplain x hx)).2 (hplain y hy)

/-- The same text, but in the place of a form's type. -/
def pingFormReply : DiscoInfo := (DiscoInfo.ofFeatures [Feature.jingle]).withForm (.ofType "urn:xmpp:ping")

/-- Both replies recompute to one digest; their features differ, but not what they grant. -/
theorem plain_capabilities_of_pingForm :
    let s : CapabilitySignature := .ofHash Sample.clientNode "6ybkYxrN0EoGp7Gg2t3wSksH5A0=" .sha1
    let h : History := [.success s Sample.laptop pingFormReply, .success s Sample.phone pingReply]
    pingReply.featureSet ≠ pingFormReply.featureSet ∧
    pingReply.featureSet.capabilities = pingFormReply.featureSet.capabilities ∧
    ((bundles 5 h).trustedFeatures s).capabilities = pingReply.featureSet.capabilities := by
  intro s h
  let text := "urn:xmpp:jingle:1<urn:xmpp:ping<"
  have hping : Verification.string? pingReply = some text := by cbv
  have hform : Verification.string? pingFormReply = some text := by cbv
  have hhash : HashAlgorithm.sha1.hash? text = some "6ybkYxrN0EoGp7Gg2t3wSksH5A0=" := by decide +kernel
  have hplain : pingReply.isPlain = true ∧ pingFormReply.isPlain = true := by decide
  obtain ⟨hpair, hstore⟩ := digest_pins_plain_capabilities
  have hd : s.verifiableDigest = some ⟨.sha1, "6ybkYxrN0EoGp7Gg2t3wSksH5A0="⟩ := rfl
  have hanswers : answers h s = [⟨Sample.laptop, pingFormReply⟩, ⟨Sample.phone, pingReply⟩] := by
    have htakes {reply : DiscoInfo} (hreply : Verification.string? reply = some text) : s.takes reply = true :=
      CapabilitySignature.takes_of_hash? hd hreply hhash
    rw [answers_success (htakes hform), answers_success (htakes hping)]
    rfl
  have hfree : HashAlgorithm.sha1.IsCollisionFree ((answers h s).filterMap fun x => Verification.string? x.reply) := by
    intro t ht u hu _
    simp [hanswers, hping, hform] at ht hu
    rw [ht, hu]
  have hphone : ⟨Sample.phone, pingReply⟩ ∈ answers h s := by simp [hanswers]
  obtain ⟨-, -, htrusted⟩ := hstore 5 h s _ hd hfree _ hphone
  refine ⟨by decide, (hpair _ _ text hping hform).2.2 hplain.2 |>.2 hplain.1, htrusted ?_⟩
  simp [hanswers, hplain]

/-- A form whose type is the name of a feature stands for the same line as the feature, and grants nothing. -/
theorem not_string_pins_capabilities :
    ¬ ∀ (a b : DiscoInfo) (text : String), Verification.string? a = some text → Verification.string? b = some text →
      a.featureSet.capabilities = b.featureSet.capabilities := by
  intro hpins
  let feature : DiscoInfo := .ofFeatures [Feature.jingle]
  let form : DiscoInfo := DiscoInfo.empty.withForm (.ofType Feature.jingle)
  have hfeature : Verification.string? feature = some "urn:xmpp:jingle:1<" := by cbv
  have hform : Verification.string? form = some "urn:xmpp:jingle:1<" := by cbv
  have hdiffer : feature.featureSet.capabilities ≠ form.featureSet.capabilities := by decide
  exact hdiffer (hpins feature form _ hfeature hform)

end Bundles.History
end PresenceCaps
