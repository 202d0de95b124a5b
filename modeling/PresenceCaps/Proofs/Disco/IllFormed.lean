import Mathlib.Tactic.MkIffOfInductiveProp
import PresenceCaps.Proofs.Disco.Neighbours

/-! The replies that have no verification string: something in them is said twice, or a form declares two types. -/
namespace PresenceCaps

/-- Two identities say the same; a missing language or name is an empty one. -/
@[mk_iff]
structure Identity.Agrees (i j : Identity) : Prop where
  category : i.category = j.category
  type : i.type = j.type
  lang : i.lang.getD "" = j.lang.getD ""
  name : i.name.getD "" = j.name.getD ""

theorem Identity.key_eq_iff {i j : Identity} : i.key = j.key ↔ i.Agrees j := by
  simp only [Identity.agrees_iff, key, List.cons.injEq, and_true]

namespace DataForm

/-- Of all fields of the form, this one alone is called FORM_TYPE. -/
def SoleTypeField (f : DataForm) (x : FormField) : Prop :=
  ∃ l r, f.fields = l ++ x :: r ∧ x.var = "FORM_TYPE" ∧ ∀ y ∈ l ++ r, y.var ≠ "FORM_TYPE"

/-- There is one type field, it has a value, and all its values are this type. -/
def HasType (f : DataForm) (t : String) : Prop :=
  ∃ x, f.SoleTypeField x ∧ x.values ≠ [] ∧ ∀ v ∈ x.values, v = t

/-- There are several type fields, or two different values in the only one. -/
@[mk_iff]
inductive IsConflicting (f : DataForm) : Prop where
  | fields {x y : FormField} (h : [x, y].Sublist f.fields) (hx : x.var = "FORM_TYPE") (hy : y.var = "FORM_TYPE")
  | values {x : FormField} {u v : String} (h : f.SoleTypeField x) (hu : u ∈ x.values) (hv : v ∈ x.values)
      (hne : u ≠ v)

variable {f : DataForm} {t : String} {x : FormField}

theorem mem_typeFields_iff : x ∈ f.typeFields ↔ x ∈ f.fields ∧ x.var = "FORM_TYPE" := by
  rw [typeFields, List.mem_filter, beq_iff_eq, typeVar]

theorem typeFields_eq_singleton_iff : f.typeFields = [x] ↔ f.SoleTypeField x := by
  simp only [typeFields, List.filter_eq_cons_iff, List.filter_eq_nil_iff, beq_iff_eq, typeVar, SoleTypeField,
    List.mem_append]
  grind

theorem two_le_length_typeFields_iff : 2 ≤ f.typeFields.length ↔
    ∃ x y, [x, y].Sublist f.fields ∧ x.var = "FORM_TYPE" ∧ y.var = "FORM_TYPE" := by
  constructor
  · intro hlength
    rcases hfields : f.typeFields with - | ⟨x, - | ⟨y, rest⟩⟩
    · simp [hfields] at hlength
    · simp [hfields] at hlength
    · have hpair : [x, y].Sublist f.typeFields := by
        rw [hfields]
        exact ((List.nil_sublist rest).cons_cons y).cons_cons x
      have hx := hpair.subset List.mem_cons_self
      have hy := hpair.subset (List.mem_cons_of_mem x List.mem_cons_self)
      exact ⟨x, y, hpair.trans List.filter_sublist, (mem_typeFields_iff.1 hx).2, (mem_typeFields_iff.1 hy).2⟩
  · rintro ⟨x, y, hpair, hx, hy⟩
    have hboth : [x, y].filter (fun z => z.var == typeVar) = [x, y] := by simp [hx, hy, typeVar]
    have hkept := (hpair.filter fun z => z.var == typeVar).length_le
    rwa [hboth] at hkept

theorem kind_eq_typed_iff : f.kind = .typed t ↔ f.HasType t := by
  simp only [kind, HasType, ← typeFields_eq_singleton_iff]
  rcases f.typeFields with - | ⟨⟨var, values⟩, - | ⟨y, rest⟩⟩
  · simp
  · cases values with
    | nil => simp
    | cons v vs =>
      simp only [List.all_eq_true, beq_iff_eq, List.cons.injEq, and_true, ne_eq, exists_eq_left', reduceCtorEq,
        not_false_eq_true, true_and, List.forall_mem_cons]
      grind
  · simp

theorem kind_eq_conflicting_iff : f.kind = .conflicting ↔ f.IsConflicting := by
  simp only [isConflicting_iff, ← two_le_length_typeFields_iff, ← typeFields_eq_singleton_iff, kind]
  rcases f.typeFields with - | ⟨⟨var, values⟩, - | ⟨y, rest⟩⟩
  · simp
  · cases values with
    | nil => simp
    | cons v vs =>
      simp only [List.all_eq_true, beq_iff_eq, List.cons.injEq, and_true, exists_and_left, exists_eq_left',
        List.mem_cons, exists_eq_or_imp]
      grind
  · simp

/-- A form that counts as untyped has no value in any type field. -/
theorem values_eq_nil_of_kind_eq_untyped (h : f.kind = .untyped) (hx : x ∈ f.fields) (hvar : x.var = "FORM_TYPE") :
    x.values = [] := by
  have hmem := mem_typeFields_iff.2 ⟨hx, hvar⟩
  rw [kind] at h
  rcases hfields : f.typeFields with - | ⟨⟨var, values⟩, - | ⟨y, rest⟩⟩
  · simp [hfields] at hmem
  · rw [hfields, List.mem_singleton] at hmem
    cases values with
    | nil => rw [hmem]
    | cons v vs =>
      simp only [hfields] at h
      split at h <;> cases h
  · simp [hfields] at h

/-- The form with its type, where it has one. -/
def typed? (f : DataForm) : Option (String × DataForm) :=
  match f.kind with
  | .typed t => some (t, f)
  | _ => none

theorem typed?_eq_some_iff {p : String × DataForm} : f.typed? = some p ↔ f = p.2 ∧ f.HasType p.1 := by
  rw [← kind_eq_typed_iff, typed?]
  cases f.kind <;> grind

end DataForm

/-- What keeps a reply from being hashed; two entries of a list are a sublist of it, wherever they stand. -/
@[mk_iff]
inductive DiscoInfo.IllFormed (d : DiscoInfo) : Prop where
  | identity {i j : Identity} (h : [i, j].Sublist d.identities) (hagree : i.Agrees j)
  | feature {f : String} (h : [f, f].Sublist d.features)
  | conflict {f : DataForm} (h : f ∈ d.forms) (hf : f.IsConflicting)
  | type {f g : DataForm} {t : String} (h : [f, g].Sublist d.forms) (hf : f.HasType t) (hg : g.HasType t)

namespace Verification

theorem identityLines?_eq (is : List Identity) : identityLines? is =
    (sortDistinct? Identity.key is).map fun js => js.map fun j => "/".intercalate j.key := by
  have horder : textsLe = fun a b => decide (a ≤ b) :=
    funext₂ fun xs ys => Bool.eq_iff_iff.2 (textsLe_iff.trans decide_eq_true_iff.symm)
  rw [identityLines?, horder, ← map_sortBy, sortDistinct?]
  split
  · rfl
  · rw [List.map_map]
    rfl

theorem featureLines?_eq (fs : List String) : featureLines? fs = sortDistinct? id fs := by
  rw [featureLines?, sortDistinct?, List.map_id]
  rfl

theorem formLines?_eq (fs : List DataForm) : formLines? fs = (typedForms? fs).bind fun ts =>
    (sortDistinct? Prod.fst ts).map fun us => us.flatMap fun p => p.1 :: bodyLines p.2 := by
  rw [formLines?]
  congr
  funext ts
  rw [sortDistinct?, apply_ite (Option.map _)]
  rfl

theorem identityLines?_eq_none_iff {is : List Identity} :
    identityLines? is = none ↔ ∃ i j, [i, j].Sublist is ∧ i.Agrees j := by
  rw [identityLines?_eq, Option.map_eq_none_iff, sortDistinct?_eq_none_iff, not_pairwise_iff]
  simp only [not_not, Identity.key_eq_iff]

theorem featureLines?_eq_none_iff {fs : List String} : featureLines? fs = none ↔ ∃ f, [f, f].Sublist fs := by
  rw [featureLines?_eq, sortDistinct?_eq_none_iff]
  exact List.nodup_iff_sublist.not.trans not_forall_not

theorem typedForms?_eq_none_iff {fs : List DataForm} : typedForms? fs = none ↔ ∃ f ∈ fs, f.IsConflicting := by
  simp only [← DataForm.kind_eq_conflicting_iff]
  induction fs with
  | nil => simp [typedForms?]
  | cons f fs ih =>
    rw [typedForms?]
    cases hf : f.kind with
    | untyped => simp [ih, hf]
    | typed t => simp [ih, hf]
    | conflicting => simp [hf]

/-- Without a conflict, what is left of the forms are those with a type, in their order. -/
theorem typedForms?_eq_some {fs : List DataForm} {ts : List (String × DataForm)} (h : typedForms? fs = some ts) :
    ts = fs.filterMap DataForm.typed? := by
  induction fs generalizing ts with
  | nil =>
    cases h
    rfl
  | cons f fs ih =>
    rw [typedForms?] at h
    rw [List.filterMap_cons, DataForm.typed?]
    cases hf : f.kind with
    | untyped =>
      rw [hf] at h
      exact ih h
    | typed t =>
      rw [hf] at h
      obtain ⟨us, hus, rfl⟩ := Option.map_eq_some_iff.1 h
      rw [ih hus]
    | conflicting =>
      rw [hf] at h
      cases h

theorem formLines?_eq_none_iff {fs : List DataForm} : formLines? fs = none ↔
    (∃ f ∈ fs, f.IsConflicting) ∨ ∃ f g t, [f, g].Sublist fs ∧ f.HasType t ∧ g.HasType t := by
  rw [← typedForms?_eq_none_iff, formLines?_eq]
  cases h : typedForms? fs with
  | none => simp
  | some ts =>
    rw [Option.bind_some, Option.map_eq_none_iff, sortDistinct?_eq_none_iff, typedForms?_eq_some h,
      List.pairwise_filterMap, not_pairwise_iff]
    simp [DataForm.typed?_eq_some_iff]

theorem lines?_eq_none_iff {d : DiscoInfo} : lines? d = none ↔
    identityLines? d.identities = none ∨ featureLines? d.features = none ∨ formLines? d.forms = none := by
  rw [lines?]
  cases identityLines? d.identities <;> cases featureLines? d.features <;> simp

theorem string?_eq_none_iff {d : DiscoInfo} : string? d = none ↔ d.IllFormed := by
  rw [string?, Option.map_eq_none_iff, lines?_eq_none_iff, identityLines?_eq_none_iff, featureLines?_eq_none_iff,
    formLines?_eq_none_iff, DiscoInfo.illFormed_iff]

end Verification
end PresenceCaps
