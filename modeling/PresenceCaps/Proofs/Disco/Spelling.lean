import PresenceCaps.Disco.Verification
import PresenceCaps.Proofs.Capability.Union

/-!
What a verification string spells out. Its separators are not escaped, and nothing tells an identity or a form from a
feature, so what can be read back from it are the pieces between separators, wherever they came from.
-/
namespace PresenceCaps

namespace Verification

/-- What stands between the separators of a text. -/
def pieces (t : String) : List String := (splitAll '<' t.toList).map String.ofList

theorem pieces_append_line (t u : String) : pieces (t ++ "<" ++ u) = pieces t ++ pieces u := by
  have hchars : (t ++ "<" ++ u).toList = t.toList ++ '<' :: u.toList := by simp
  rw [pieces, hchars, splitAll_append_cons, List.map_append]
  rfl

theorem pieces_of_notMem {t : String} (h : '<' ∉ t.toList) : pieces t = [t] := by
  rw [pieces, splitAll_of_notMem h]
  simp

/-- A list of lines spells out what each line does, and nothing after the last one. -/
theorem pieces_join (ls : List String) : pieces (String.join (ls.map (· ++ "<"))) = ls.flatMap pieces ++ [""] := by
  induction ls with
  | nil => rfl
  | cons l ls ih =>
    rw [List.map_cons, String.join_cons, pieces_append_line, ih, List.flatMap_cons, List.append_assoc]

end Verification

/-- What a form puts into the verification string; one without a type is left out. -/
def DataForm.hashedTexts (f : DataForm) : List String :=
  match f.kind with
  | .typed t => t :: (f.fields.filter fun x => x.var != DataForm.typeVar).flatMap fun x => x.var :: x.values
  | _ => []

namespace DiscoInfo

/-- What a reply puts into its verification string. -/
def hashedTexts (d : DiscoInfo) : List String :=
  (d.identities.map Identity.key).map ("/".intercalate ·) ++ d.features ++ d.forms.flatMap DataForm.hashedTexts

/-- What the pieces of a reply's texts would grant, were they all features. -/
def spelled (d : DiscoInfo) : Capabilities := .ofFeatures (d.hashedTexts.flatMap Verification.pieces)

/-- No identity, no form and no part of a longer feature reads like a feature that grants more than the features do. -/
def isPlain (d : DiscoInfo) : Bool :=
  d.hashedTexts.all fun t => (Verification.pieces t).all fun p => d.featureSet.capabilities.contains (.ofFeature p)

end DiscoInfo

namespace Verification
variable {d : DiscoInfo} {t : String}

theorem mem_identityLines {is : List Identity} {ls : List String} (h : identityLines? is = some ls) :
    t ∈ ls ↔ t ∈ (is.map Identity.key).map ("/".intercalate ·) := by
  rw [identityLines?] at h
  split at h
  · cases h
  · cases h
    simp only [List.mem_map, List.mem_mergeSort]

theorem mem_featureLines {fs ls : List String} (h : featureLines? fs = some ls) : t ∈ ls ↔ t ∈ fs := by
  rw [featureLines?] at h
  split at h
  · cases h
  · cases h
    exact List.mem_mergeSort

theorem mem_bodyLines {f : DataForm} : t ∈ bodyLines f ↔
    t ∈ (f.fields.filter fun x => x.var != DataForm.typeVar).flatMap fun x => x.var :: x.values := by
  simp only [bodyLines, fieldLines, sortTexts, List.mem_flatMap, List.mem_mergeSort, List.mem_cons]

theorem mem_hashedTexts {f : DataForm} : t ∈ f.hashedTexts ↔ ∃ u, f.kind = .typed u ∧ t ∈ u :: bodyLines f := by
  rw [DataForm.hashedTexts]
  cases hkind : f.kind with
  | typed u => simp [mem_bodyLines]
  | _ => simp

theorem mem_typedForms {fs : List DataForm} {ts : List (String × DataForm)} (h : typedForms? fs = some ts)
    {p : String × DataForm} : p ∈ ts ↔ p.2 ∈ fs ∧ p.2.kind = .typed p.1 := by
  induction fs generalizing ts with
  | nil =>
    cases h
    simp
  | cons f fs ih =>
    rw [typedForms?] at h
    cases hf : f.kind with
    | untyped =>
      rw [hf] at h
      rw [ih h]
      grind
    | typed u =>
      rw [hf] at h
      obtain ⟨us, hus, rfl⟩ := Option.map_eq_some_iff.1 h
      rw [List.mem_cons, ih hus]
      grind
    | conflicting =>
      rw [hf] at h
      cases h

theorem mem_formLines {fs : List DataForm} {ls : List String} (h : formLines? fs = some ls) :
    t ∈ ls ↔ t ∈ fs.flatMap DataForm.hashedTexts := by
  obtain ⟨ts, hts, hls⟩ := Option.bind_eq_some_iff.1 h
  dsimp only at hls
  split at hls
  · cases hls
  · cases hls
    simp only [List.mem_flatMap, List.mem_mergeSort, mem_typedForms hts, mem_hashedTexts]
    constructor
    · rintro ⟨⟨u, f⟩, ⟨hf, hkind⟩, ht⟩
      exact ⟨f, hf, u, hkind, ht⟩
    · rintro ⟨f, hf, u, hkind, ht⟩
      exact ⟨(u, f), ⟨hf, hkind⟩, ht⟩

/-- Sorting aside, the lines of a reply are its texts. -/
theorem mem_lines {ls : List String} (h : lines? d = some ls) : t ∈ ls ↔ t ∈ d.hashedTexts := by
  obtain ⟨is, his, h⟩ := Option.bind_eq_some_iff.1 h
  obtain ⟨fs, hfs, h⟩ := Option.bind_eq_some_iff.1 h
  obtain ⟨xs, hxs, rfl⟩ := Option.map_eq_some_iff.1 h
  rw [DiscoInfo.hashedTexts]
  simp only [List.mem_append, mem_identityLines his, mem_featureLines hfs, mem_formLines hxs]

end Verification

/-- A feature that grants something is known, and the names of those have no separator in them. -/
theorem Capabilities.notMem_of_has_ofFeature {f : String} {i : Nat} (hi : (ofFeature f).has i = true) :
    '<' ∉ f.toList := by
  have hknown : ∀ p ∈ Feature.grants, '<' ∉ p.1.toList := by decide +kernel
  rw [ofFeature] at hi
  cases hget : Assoc.get? Feature.grants f with
  | none => simp [hget] at hi
  | some c => exact hknown (f, c) (Assoc.mem_of_get?_eq_some hget)

namespace DiscoInfo
variable {d : DiscoInfo} {text : String}

/-- What a reply spells out can be read from its verification string. -/
theorem spelled_eq (h : Verification.string? d = some text) : d.spelled = .ofFeatures (Verification.pieces text) := by
  obtain ⟨ls, hls, rfl⟩ := Option.map_eq_some_iff.1 h
  have hend : Capabilities.ofFeature "" = .none := by decide
  refine Capabilities.eq_of_has_eq fun i => Bool.eq_iff_iff.2 ?_
  rw [spelled, Capabilities.has_ofFeatures, Capabilities.has_ofFeatures, Verification.pieces_join]
  simp only [List.mem_flatMap, List.mem_append, List.mem_singleton, ← Verification.mem_lines hls]
  constructor
  · rintro ⟨f, hf, hi⟩
    exact ⟨f, Or.inl hf, hi⟩
  · rintro ⟨f, hf | rfl, hi⟩
    · exact ⟨f, hf, hi⟩
    · simp [hend] at hi

theorem spelled_contains (d : DiscoInfo) : d.spelled.contains d.featureSet.capabilities = true := by
  refine Capabilities.contains_iff.2 fun i hi => ?_
  obtain ⟨f, hf, hi⟩ := FeatureSet.has_capabilities.1 hi
  have hpieces := Verification.pieces_of_notMem (Capabilities.notMem_of_has_ofFeature hi)
  have htext : f ∈ d.hashedTexts := by
    rw [hashedTexts, List.mem_append, List.mem_append]
    exact Or.inl (Or.inr (mem_featureSet.1 hf))
  have hpiece : f ∈ Verification.pieces f := by
    rw [hpieces]
    exact List.mem_singleton_self f
  exact Capabilities.has_ofFeatures.2 ⟨f, List.mem_flatMap.2 ⟨f, htext, hpiece⟩, hi⟩

/-- A plain reply grants what it spells out, and no other reply does. -/
theorem isPlain_iff : d.isPlain = true ↔ d.featureSet.capabilities = d.spelled := by
  simp only [isPlain, List.all_eq_true, Capabilities.contains_iff]
  constructor
  · intro h
    refine Capabilities.eq_of_contains (Capabilities.contains_iff.2 fun i hi => ?_) (spelled_contains d)
    obtain ⟨p, hp, hi⟩ := Capabilities.has_ofFeatures.1 hi
    obtain ⟨t, ht, hp⟩ := List.mem_flatMap.1 hp
    exact h t ht p hp i hi
  · intro h t ht p hp i hi
    rw [h]
    exact Capabilities.has_ofFeatures.2 ⟨p, List.mem_flatMap.2 ⟨t, ht, hp⟩, hi⟩

end DiscoInfo
end PresenceCaps
