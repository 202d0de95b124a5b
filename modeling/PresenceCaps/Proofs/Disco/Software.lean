import Mathlib
import PresenceCaps.Proofs.Disco.Arrangement

/-!
What a reply says of its software, and the form that it is read from. A reply that can be hashed has one form about
software at most, and this is one of the forms that are hashed; but a form that states its type more than once is hashed
and not read.
-/
namespace PresenceCaps
open Verification

namespace DataForm
variable {f : DataForm} {t u : String}

/-- The one type field has several values. -/
def RepeatsType (f : DataForm) : Prop := ∃ x, f.SoleTypeField x ∧ 2 ≤ x.values.length

/-- A form declares the type that it is hashed under, unless it repeats it. -/
theorem type?_eq_some_iff : f.type? = some t ↔ f.HasType t ∧ ¬ f.RepeatsType := by
  simp only [type?, HasType, RepeatsType, ← typeFields_eq_singleton_iff]
  rcases f.typeFields with - | ⟨⟨var, values⟩, - | ⟨y, rest⟩⟩
  · simp
  · rcases values with - | ⟨v, - | ⟨w, vs⟩⟩ <;> simp
  · simp

theorem SoleTypeField.unique {x y : FormField} (hx : f.SoleTypeField x) (hy : f.SoleTypeField y) : x = y := by
  rw [← typeFields_eq_singleton_iff] at hx hy
  exact (List.cons.inj (hx.symm.trans hy)).1

theorem HasType.unique (ht : f.HasType t) (hu : f.HasType u) : t = u := by
  rw [← kind_eq_typed_iff] at ht hu
  exact FormKind.typed.inj (ht.symm.trans hu)

/-- What a form about software says. -/
def softwareInfo (f : DataForm) : SoftwareInfo :=
  ⟨f.value? "software", f.value? "software_version", f.value? "os", f.value? "os_version"⟩

end DataForm

theorem SoftwareInfo.ofForm?_eq_some_iff {f : DataForm} {i : SoftwareInfo} : ofForm? f = some i ↔
    f.HasType DataForm.softwareType ∧ ¬ f.RepeatsType ∧ i = f.softwareInfo := by
  rw [ofForm?, ← and_assoc, ← DataForm.type?_eq_some_iff, Option.ite_none_right_eq_some, Option.some.injEq,
    eq_comm (b := i)]
  rfl

/-- A search for the first of at most one does not depend on the order. -/
theorem findSome?_eq_some_iff {α β : Type} {f : α → Option β} {l : List α} {b : β}
    (h : l.Pairwise fun x y => f x = none ∨ f y = none) : l.findSome? f = some b ↔ ∃ a ∈ l, f a = some b := by
  induction l with
  | nil => simp
  | cons a l ih =>
    obtain ⟨ha, hl⟩ := List.pairwise_cons.1 h
    rw [List.findSome?_cons]
    cases hfa : f a with
    | none => simp [ih hl, hfa]
    | some c =>
      have hrest : ∀ x ∈ l, f x = none := fun x hx => (ha x hx).resolve_left (by simp [hfa])
      simp only [List.mem_cons, exists_eq_or_imp, hfa, Option.some.injEq, iff_self_or]
      rintro ⟨x, hx, hfx⟩
      exact absurd ((hrest x hx).symm.trans hfx) (by simp)

/-- The forms that are hashed are those with a type. -/
theorem Arrangement.mem_forms_iff {d : DiscoInfo} (a : Arrangement d) {f : DataForm} {t : String} :
    (∃ g ∈ a.forms, g.form = f ∧ g.type = t) ↔ f ∈ d.forms ∧ f.HasType t := by
  constructor
  · rintro ⟨g, hg, rfl, rfl⟩
    have hmem : g.form ∈ a.forms.map ArrangedForm.form ++ a.untyped :=
      List.mem_append_left _ (List.mem_map_of_mem hg)
    exact ⟨a.forms_perm.mem_iff.1 hmem, g.hasType⟩
  · rintro ⟨hf, ht⟩
    rcases List.mem_append.1 (a.forms_perm.mem_iff.2 hf) with hf | hf
    · obtain ⟨g, hg, rfl⟩ := List.mem_map.1 hf
      exact ⟨g, hg, rfl, g.hasType.unique ht⟩
    · obtain ⟨x, ⟨l, r, hfields, hvar, -⟩, hvalues, -⟩ := ht
      have hx : x ∈ f.fields := hfields ▸ List.mem_append_right l List.mem_cons_self
      exact absurd (a.untyped_givesNoType f hf x hx hvar) hvalues

namespace DiscoInfo
variable {d : DiscoInfo}

theorem pairwise_hasType (h : ¬ d.IllFormed) (t : String) :
    d.forms.Pairwise fun f g => ¬ (f.HasType t ∧ g.HasType t) :=
  List.pairwise_iff_forall_sublist.2 fun {_ _} hs hboth => h (.type hs hboth.1 hboth.2)

/-- No two forms have the same type. -/
theorem eq_of_hasType (h : ¬ d.IllFormed) {f g : DataForm} {t : String} (hf : f ∈ d.forms) (hg : g ∈ d.forms)
    (hft : f.HasType t) (hgt : g.HasType t) : f = g := by
  have hsymm : Std.Symm fun f g : DataForm => ¬ (f.HasType t ∧ g.HasType t) := ⟨fun _ _ hnot hs => hnot hs.symm⟩
  by_contra hne
  exact (pairwise_hasType h t).forall hf hg hne ⟨hft, hgt⟩

theorem pairwise_ofForm? (h : ¬ d.IllFormed) :
    d.forms.Pairwise fun f g => SoftwareInfo.ofForm? f = none ∨ SoftwareInfo.ofForm? g = none := by
  refine (pairwise_hasType h DataForm.softwareType).imp fun {f g} hnot => ?_
  cases hf : SoftwareInfo.ofForm? f with
  | none => exact Or.inl rfl
  | some i =>
    refine Or.inr (Option.eq_none_iff_forall_ne_some.2 fun j hg => ?_)
    exact hnot ⟨(SoftwareInfo.ofForm?_eq_some_iff.1 hf).1, (SoftwareInfo.ofForm?_eq_some_iff.1 hg).1⟩

theorem software?_eq_some_iff (h : ¬ d.IllFormed) {i : SoftwareInfo} : d.software? = some i ↔
    ∃ f ∈ d.forms, f.HasType DataForm.softwareType ∧ ¬ f.RepeatsType ∧ i = f.softwareInfo := by
  rw [software?, findSome?_eq_some_iff (pairwise_ofForm? h)]
  simp only [SoftwareInfo.ofForm?_eq_some_iff]

theorem software?_perm (h : ¬ d.IllFormed) {forms : List DataForm} (hp : forms.Perm d.forms) :
    software? { d with forms } = d.software? := by
  have hmoved := (hp.pairwise_iff fun {_ _} => Or.symm).2 (pairwise_ofForm? h)
  ext i
  show forms.findSome? SoftwareInfo.ofForm? = some i ↔ d.forms.findSome? SoftwareInfo.ofForm? = some i
  rw [findSome?_eq_some_iff hmoved, findSome?_eq_some_iff (pairwise_ofForm? h)]
  simp only [hp.mem_iff]

/-- There is software to be read just if a form about it is hashed, unless this repeats its type. -/
theorem isSome_software?_iff (h : ¬ d.IllFormed) :
    (d.software?.isSome = true ↔ ∃ f ∈ d.forms, f.HasType DataForm.softwareType) ↔
      ∀ f ∈ d.forms, f.HasType DataForm.softwareType → ¬ f.RepeatsType := by
  have hsome : d.software?.isSome = true ↔ ∃ f ∈ d.forms, f.HasType DataForm.softwareType ∧ ¬ f.RepeatsType := by
    rw [Option.isSome_iff_exists]
    simp only [software?_eq_some_iff h]
    exact ⟨fun ⟨i, f, hf, ht, hr, _⟩ => ⟨f, hf, ht, hr⟩, fun ⟨f, hf, ht, hr⟩ => ⟨_, f, hf, ht, hr, rfl⟩⟩
  rw [hsome]
  constructor
  · intro hiff f hf ht
    -- what is read comes from some form about software, and there is only this one
    obtain ⟨g, hg, htg, hr⟩ := hiff.2 ⟨f, hf, ht⟩
    rwa [eq_of_hasType h hf hg ht htg]
  · exact fun hall => ⟨fun ⟨f, hf, ht, _⟩ => ⟨f, hf, ht⟩, fun ⟨f, hf, ht⟩ => ⟨f, hf, ht, hall f hf ht⟩⟩

end DiscoInfo

namespace Verification

/-- Of a reply that can be hashed, the forms that are hashed are those with a type, and each of them declares it as its
own unless it repeats it. One of them at most is about software. What the reply says of its software is read from this
form, if it does not repeat its type, and from no other, in whatever order the forms come. So there is something to be
read whenever there is such a form, just if it does not repeat its type. -/
theorem software_is_read_from_hashed_form {d : DiscoInfo} {text : String} (h : string? d = some text) :
    (∀ (a : Arrangement d) f t, (∃ g ∈ a.forms, g.form = f ∧ g.type = t) ↔ f ∈ d.forms ∧ f.HasType t) ∧
    (∀ f ∈ d.forms, ∀ t, f.type? = some t ↔ f.HasType t ∧ ¬ f.RepeatsType) ∧
    (∀ f g, [f, g].Sublist d.forms → f.HasType DataForm.softwareType → ¬ g.HasType DataForm.softwareType) ∧
    (∀ i, d.software? = some i ↔
      ∃ f ∈ d.forms, f.HasType DataForm.softwareType ∧ ¬ f.RepeatsType ∧ i = f.softwareInfo) ∧
    (∀ forms, forms.Perm d.forms → DiscoInfo.software? { d with forms } = d.software?) ∧
    ((d.software?.isSome = true ↔ ∃ f ∈ d.forms, f.HasType DataForm.softwareType) ↔
      ∀ f ∈ d.forms, f.HasType DataForm.softwareType → ¬ f.RepeatsType) := by
  have hwell : ¬ d.IllFormed := by
    rw [← string?_eq_none_iff, h]
    exact Option.some_ne_none text
  exact ⟨fun a _ _ => a.mem_forms_iff, fun _ _ _ => DataForm.type?_eq_some_iff,
    fun f g hs hf hg => hwell (.type hs hf hg), fun _ => DiscoInfo.software?_eq_some_iff hwell,
    fun _ hp => DiscoInfo.software?_perm hwell hp, DiscoInfo.isSome_software?_iff hwell⟩

/-- A form about software, which states its type as often as is asked. -/
def softwareForm (types : Nat) : DataForm :=
  ⟨[⟨DataForm.typeVar, List.replicate types DataForm.softwareType⟩, ⟨"os", ["Linux"]⟩]⟩

/-- It comes after a form without a type. -/
def softwareReply (types : Nat) : DiscoInfo where
  node := none
  identities := []
  features := ["msglog"]
  forms := [⟨[⟨"os", ["Mac"]⟩]⟩, softwareForm types]

theorem softwareForm_mem (types : Nat) : softwareForm types ∈ (softwareReply types).forms := by
  simp [softwareReply]

theorem soleTypeField_softwareForm (types : Nat) :
    (softwareForm types).SoleTypeField ⟨DataForm.typeVar, List.replicate types DataForm.softwareType⟩ :=
  ⟨[], [⟨"os", ["Linux"]⟩], rfl, rfl, by simp⟩

theorem hasType_softwareForm (types : Nat) : (softwareForm (types + 1)).HasType DataForm.softwareType :=
  ⟨_, soleTypeField_softwareForm _, by simp, fun _ hv => List.eq_of_mem_replicate hv⟩

/-- Whether it comes first or last does not matter to what is read from the form about software. -/
theorem software_of_reversedForms :
    string? (softwareReply 1) = some "msglog<urn:xmpp:dataforms:softwareinfo<os<Linux<" ∧
    (softwareReply 1).software? = some ⟨none, none, some "Linux", none⟩ ∧
    DiscoInfo.software? { softwareReply 1 with forms := (softwareReply 1).forms.reverse } =
      (softwareReply 1).software? := by
  have hhashed : string? (softwareReply 1) =
      some "msglog<urn:xmpp:dataforms:softwareinfo<os<Linux<" := by cbv
  have honce : ¬ (softwareForm 1).RepeatsType := by
    rintro ⟨x, hx, hlength⟩
    obtain rfl := hx.unique (soleTypeField_softwareForm 1)
    exact absurd hlength (by simp)
  have hsays : (⟨none, none, some "Linux", none⟩ : SoftwareInfo) = (softwareForm 1).softwareInfo := by
    simp [DataForm.softwareInfo, DataForm.value?, softwareForm, DataForm.typeVar]
  obtain ⟨-, -, -, hread, hmoved, -⟩ := software_is_read_from_hashed_form hhashed
  have hfound := (hread _).2 ⟨softwareForm 1, softwareForm_mem 1, hasType_softwareForm 0, honce, hsays⟩
  exact ⟨hhashed, hfound, hmoved _ (List.reverse_perm _)⟩

/-- A form that states twice that it is about software is hashed as such, but nothing is read from it. -/
theorem not_software_of_repeatedType :
    string? (softwareReply 2) = some "msglog<urn:xmpp:dataforms:softwareinfo<os<Linux<" ∧
    ((softwareForm 2).HasType DataForm.softwareType ∧ (softwareForm 2).type? = none) ∧
    ¬ ((softwareReply 2).software?.isSome = true ↔ ∃ f ∈ (softwareReply 2).forms, f.HasType DataForm.softwareType) := by
  have hnone : (softwareReply 2).software? = none := by
    simp [DiscoInfo.software?, softwareReply, SoftwareInfo.ofForm?, DataForm.type?, DataForm.typeFields, softwareForm,
      DataForm.typeVar, DataForm.softwareType]
  refine ⟨by cbv, ⟨hasType_softwareForm 1, rfl⟩, fun hread => ?_⟩
  have hsome := hread.2 ⟨softwareForm 2, softwareForm_mem 2, hasType_softwareForm 1⟩
  rw [hnone] at hsome
  exact absurd hsome Bool.false_ne_true

end Verification
end PresenceCaps
