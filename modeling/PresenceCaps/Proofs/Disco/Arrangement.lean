import Mathlib
import PresenceCaps.Proofs.Disco.IllFormed

/-!
What the verification string of a reply is: everything in the reply that counts, each thing once and put in order. An
arrangement says which order that is, and its text is what is hashed.
-/
namespace PresenceCaps

/-- An identity as it is hashed. -/
def Identity.line (i : Identity) : String :=
  i.category ++ "/" ++ i.type ++ "/" ++ i.lang.getD "" ++ "/" ++ i.name.getD "" ++ "<"

/-- A field with all its values, put in order. -/
structure ArrangedField where
  field : FormField
  values : List String
  perm : values.Perm field.values
  sorted : values.Pairwise (· ≤ ·)

def ArrangedField.text (x : ArrangedField) : String := x.field.var ++ "<" ++ String.join (x.values.map (· ++ "<"))

/-- The fields of a form that do not speak of its type. -/
def DataForm.otherFields (f : DataForm) : List FormField := f.fields.filter fun x => x.var != "FORM_TYPE"

/-- A form that has a type, with all its other fields in the order of their names, those of one name as they came. -/
structure ArrangedForm where
  form : DataForm
  type : String
  hasType : form.HasType type
  fields : List ArrangedField
  perm : (fields.map ArrangedField.field).Perm form.otherFields
  sorted : fields.Pairwise fun x y => x.field.var ≤ y.field.var
  stable (var : String) : (fields.map ArrangedField.field).filter (·.var == var) =
    form.otherFields.filter (·.var == var)

def ArrangedForm.text (f : ArrangedForm) : String := f.type ++ "<" ++ String.join (f.fields.map ArrangedField.text)

/-- Everything in a reply that is hashed, in the order in which it is hashed. Forms that give no type are left out. -/
structure Arrangement (d : DiscoInfo) where
  identities : List Identity
  features : List String
  forms : List ArrangedForm
  untyped : List DataForm
  identities_perm : identities.Perm d.identities
  identities_sorted : identities.Pairwise fun i j => i.key < j.key
  features_perm : features.Perm d.features
  features_sorted : features.Pairwise fun f g => utf8 f < utf8 g
  forms_perm : (forms.map ArrangedForm.form ++ untyped).Perm d.forms
  forms_sorted : forms.Pairwise fun f g => f.type < g.type
  untyped_givesNoType : ∀ f ∈ untyped, ∀ x ∈ f.fields, x.var = "FORM_TYPE" → x.values = []

def Arrangement.text {d : DiscoInfo} (a : Arrangement d) : String :=
  String.join (a.identities.map Identity.line) ++ String.join (a.features.map (· ++ "<")) ++
    String.join (a.forms.map ArrangedForm.text)

namespace Verification

/-- The text that some lines make up. -/
def textOf (ls : List String) : String := String.join (ls.map (· ++ "<"))

theorem textOf_cons (l : String) (ls : List String) : textOf (l :: ls) = l ++ "<" ++ textOf ls := by
  rw [textOf, List.map_cons, String.join_cons]
  rfl

theorem textOf_append (ls ms : List String) : textOf (ls ++ ms) = textOf ls ++ textOf ms := by
  rw [textOf, List.map_append, String.join_append]
  rfl

theorem textOf_flatMap {α : Type} (xs : List α) (f : α → List String) :
    textOf (xs.flatMap f) = String.join (xs.map fun x => textOf (f x)) := by
  induction xs with
  | nil => rfl
  | cons x xs ih => rw [List.flatMap_cons, textOf_append, ih, List.map_cons, String.join_cons]

theorem textOf_identities (is : List Identity) :
    textOf (is.map fun i => "/".intercalate i.key) = String.join (is.map Identity.line) := by
  rw [textOf, List.map_map]
  rfl

end Verification

open Verification

/-- The field as it is hashed. -/
def FormField.arranged (x : FormField) : ArrangedField where
  field := x
  values := sortBy id x.values
  perm := sortBy_perm id x.values
  sorted := pairwise_sortBy id x.values

theorem FormField.textOf_fieldLines (x : FormField) : textOf (fieldLines x) = x.arranged.text := textOf_cons _ _

namespace DataForm
variable {f : DataForm} {t : String}

theorem map_field_arranged (xs : List FormField) : (xs.map FormField.arranged).map ArrangedField.field = xs := by
  rw [List.map_map]
  exact List.map_id xs

/-- A form with a type as it is hashed. -/
def arranged (f : DataForm) (t : String) (h : f.HasType t) : ArrangedForm where
  form := f
  type := t
  hasType := h
  fields := (sortBy FormField.var f.otherFields).map FormField.arranged
  perm := (map_field_arranged _).symm ▸ sortBy_perm _ _
  sorted := List.pairwise_map.2 (pairwise_sortBy _ _)
  stable var := by
    rw [map_field_arranged]
    exact filter_sortBy fun x y hx hy => (eq_of_beq hx).trans (eq_of_beq hy).symm

theorem textOf_lines (h : f.HasType t) : textOf (t :: bodyLines f) = (f.arranged t h).text := by
  have hfields : textOf (bodyLines f) = String.join ((f.arranged t h).fields.map ArrangedField.text) := by
    simp only [bodyLines, textOf_flatMap, FormField.textOf_fieldLines, arranged, List.map_map]
    rfl
  rw [textOf_cons, hfields]
  rfl

theorem map_typed? (fs : List DataForm) : (fs.filterMap typed?).map Prod.snd = fs.filter fun f => f.typed?.isSome := by
  rw [List.map_filterMap, ← List.filterMap_eq_filter]
  congr
  funext f
  cases hkind : f.kind <;> simp [typed?, hkind, Option.guard]

end DataForm

namespace Verification

theorem identityLines?_eq_some {is : List Identity} {ls : List String} (h : identityLines? is = some ls) :
    ∃ js : List Identity, js.Perm is ∧ js.Pairwise (fun i j => i.key < j.key) ∧
      textOf ls = String.join (js.map Identity.line) := by
  rw [identityLines?_eq] at h
  obtain ⟨js, hjs, rfl⟩ := Option.map_eq_some_iff.1 h
  obtain ⟨rfl, hstrict⟩ := sortDistinct?_eq_some hjs
  exact ⟨_, sortBy_perm _ _, hstrict, textOf_identities _⟩

theorem featureLines?_eq_some {fs ls : List String} (h : featureLines? fs = some ls) :
    ls.Perm fs ∧ ls.Pairwise fun f g => utf8 f < utf8 g := by
  rw [featureLines?_eq] at h
  obtain ⟨rfl, hstrict⟩ := sortDistinct?_eq_some h
  exact ⟨sortBy_perm _ _, hstrict.imp utf8_lt.2⟩

/-- Forms with their types as they are hashed. -/
def arrangedForms (ts : List (String × DataForm)) (h : ∀ p ∈ ts, p.2.HasType p.1) : List ArrangedForm :=
  ts.pmap (fun p hp => p.2.arranged p.1 hp) h

section Forms
variable {ts : List (String × DataForm)} (h : ∀ p ∈ ts, p.2.HasType p.1)

theorem map_form_arrangedForms : (arrangedForms ts h).map ArrangedForm.form = ts.map Prod.snd := by
  rw [arrangedForms, List.map_pmap]
  exact List.pmap_eq_map h

theorem textOf_forms : textOf (ts.flatMap fun p => p.1 :: bodyLines p.2) =
    String.join ((arrangedForms ts h).map ArrangedForm.text) := by
  rw [textOf_flatMap, arrangedForms, List.map_pmap, ← List.pmap_eq_map h]
  exact congrArg String.join (List.pmap_congr_left _ fun p _ hp _ => DataForm.textOf_lines hp)

end Forms

theorem formLines?_eq_some {fs : List DataForm} {ls : List String} (hls : formLines? fs = some ls) :
    ∃ (gs : List ArrangedForm) (untyped : List DataForm), (gs.map ArrangedForm.form ++ untyped).Perm fs ∧
      gs.Pairwise (fun f g => f.type < g.type) ∧
      (∀ f ∈ untyped, ∀ x ∈ f.fields, x.var = "FORM_TYPE" → x.values = []) ∧
      textOf ls = String.join (gs.map ArrangedForm.text) := by
  rw [formLines?_eq] at hls
  obtain ⟨ts, hts, hls⟩ := Option.bind_eq_some_iff.1 hls
  obtain ⟨us, hus, rfl⟩ := Option.map_eq_some_iff.1 hls
  have hclear : ∀ f ∈ fs, f.kind ≠ .conflicting := fun f hf hkind =>
    absurd (typedForms?_eq_none_iff.2 ⟨f, hf, DataForm.kind_eq_conflicting_iff.1 hkind⟩) (by simp [hts])
  have hts := typedForms?_eq_some hts
  obtain ⟨hsort, hstrict⟩ := sortDistinct?_eq_some hus
  -- sorting only moves the forms with a type, and so what it leaves has the types that they declare
  have hperm : us.Perm (fs.filterMap DataForm.typed?) := by
    rw [hsort, ← hts]
    exact sortBy_perm _ _
  have htyped : ∀ p ∈ us, p.2.HasType p.1 := by
    intro p hp
    obtain ⟨f, -, hf⟩ := List.mem_filterMap.1 (hperm.mem_iff.1 hp)
    obtain ⟨rfl, htype⟩ := DataForm.typed?_eq_some_iff.1 hf
    exact htype
  refine ⟨arrangedForms us htyped, fs.filter fun f => !f.typed?.isSome, ?_, ?_, ?_, textOf_forms htyped⟩
  · have hforms := hperm.map Prod.snd
    rw [DataForm.map_typed?] at hforms
    rw [map_form_arrangedForms]
    exact (hforms.append_right _).trans (List.filter_append_perm _ _)
  · exact (List.pairwise_pmap htyped).2 (hstrict.imp fun hlt _ _ => hlt)
  · intro f hf x
    obtain ⟨hmem, hnone⟩ := List.mem_filter.1 hf
    have huntyped : f.kind = .untyped := by
      cases hkind : f.kind with
      | untyped => rfl
      | typed t => simp [DataForm.typed?, hkind] at hnone
      | conflicting => exact absurd hkind (hclear f hmem)
    exact DataForm.values_eq_nil_of_kind_eq_untyped huntyped

/-- An ill-formed reply has nothing to hash. Of any other one, everything that counts is hashed, each thing once and in
order. -/
theorem illFormed_or_arranged (d : DiscoInfo) :
    (string? d = none ↔ d.IllFormed) ∧ (d.IllFormed ∨ ∃ a : Arrangement d, string? d = some a.text) := by
  refine ⟨string?_eq_none_iff, ?_⟩
  rw [← string?_eq_none_iff]
  cases h : string? d with
  | none => exact Or.inl rfl
  | some text =>
    obtain ⟨ls, hls, rfl⟩ := Option.map_eq_some_iff.1 h
    obtain ⟨is, his, hls⟩ := Option.bind_eq_some_iff.1 hls
    obtain ⟨fs, hfs, hls⟩ := Option.bind_eq_some_iff.1 hls
    obtain ⟨xs, hxs, rfl⟩ := Option.map_eq_some_iff.1 hls
    obtain ⟨js, hperm, hsorted, hjs⟩ := identityLines?_eq_some his
    obtain ⟨hfeatures, hfsorted⟩ := featureLines?_eq_some hfs
    obtain ⟨gs, untyped, hforms, hgsorted, huntyped, hgs⟩ := formLines?_eq_some hxs
    refine Or.inr ⟨⟨js, fs, gs, untyped, hperm, hsorted, hfeatures, hfsorted, hforms, hgsorted, huntyped⟩, ?_⟩
    rw [Arrangement.text, ← hjs, ← hgs]
    exact congrArg some ((textOf_append _ _).trans (congrArg (· ++ textOf xs) (textOf_append _ _)))

/-- A form with a type field for each of these lists of values. -/
def formOfTypes (types : List (List String)) : DataForm :=
  ⟨types.map (⟨"FORM_TYPE", ·⟩) ++ [⟨"os", ["Mac", "BSD"]⟩]⟩

/-- A reply with a form about a search, a form without a type field, and one more. -/
def searchReply (types : List (List String)) : DiscoInfo where
  node := none
  identities := [⟨"client", "pc", none, none⟩]
  features := ["im", "av"]
  forms := [formOfTypes [["search"]], formOfTypes [], formOfTypes types]

/-- The form with a type is hashed, and those without are not; two type fields, two types or a second search leave
nothing to hash. -/
theorem hashed_of_searchReply :
    (string? (searchReply [[]]) = some "client/pc//<av<im<search<os<BSD<Mac<" ∧
      ∃ a : Arrangement (searchReply [[]]), a.text = "client/pc//<av<im<search<os<BSD<Mac<") ∧
    ((formOfTypes [["search"], ["search"]]).IsConflicting ∧ string? (searchReply [["search"], ["search"]]) = none) ∧
    ((formOfTypes [["index", "search"]]).IsConflicting ∧ string? (searchReply [["index", "search"]]) = none) ∧
    (formOfTypes [["search", "search"]]).HasType "search" ∧ string? (searchReply [["search", "search"]]) = none := by
  have hhashed : string? (searchReply [[]]) = some "client/pc//<av<im<search<os<BSD<Mac<" := by cbv
  have hwell : ¬ (searchReply [[]]).IllFormed := fun hill => by
    rw [(illFormed_or_arranged _).1.2 hill] at hhashed
    exact absurd hhashed (by simp)
  obtain ⟨a, ha⟩ := (illFormed_or_arranged (searchReply [[]])).2.resolve_left hwell
  have hfields : (formOfTypes [["search"], ["search"]]).IsConflicting :=
    .fields (x := ⟨"FORM_TYPE", ["search"]⟩) (y := ⟨"FORM_TYPE", ["search"]⟩) (by decide) rfl rfl
  have hvalues : (formOfTypes [["index", "search"]]).IsConflicting :=
    .values ⟨[], _, rfl, rfl, by decide⟩ (u := "index") (v := "search") (by decide) (by decide) (by decide)
  have htype : (formOfTypes [["search"]]).HasType "search" := ⟨_, ⟨[], _, rfl, rfl, by decide⟩, by decide, by decide⟩
  have hagain : (formOfTypes [["search", "search"]]).HasType "search" :=
    ⟨_, ⟨[], _, rfl, rfl, by decide⟩, by decide, by decide⟩
  refine ⟨⟨hhashed, a, Option.some.inj (ha.symm.trans hhashed)⟩, ⟨hfields, ?_⟩, ⟨hvalues, ?_⟩, hagain, ?_⟩
  · exact (illFormed_or_arranged _).1.2 (.conflict (by simp [searchReply]) hfields)
  · exact (illFormed_or_arranged _).1.2 (.conflict (by simp [searchReply]) hvalues)
  · exact (illFormed_or_arranged _).1.2 (.type (by decide) htype hagain)

end Verification
end PresenceCaps
