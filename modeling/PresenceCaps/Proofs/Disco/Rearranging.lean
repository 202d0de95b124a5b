import Mathlib
import PresenceCaps.Proofs.Disco.Arrangement

/-!
The verification string does not depend on how a reply was put together: on the order of what is in it, as long as the
fields of one name keep theirs, and on whether a language or a name is left out or empty.
-/
namespace PresenceCaps

/-- The entries of two lists can be paired off, in whatever order they come, so that the two of a pair are related. -/
def PairedOff {α : Type} (R : α → α → Prop) (l m : List α) : Prop := ∃ k, k.Perm l ∧ List.Forall₂ R k m

section PairedOff
variable {α β : Type} {R : α → α → Prop} {f : α → β} {l m : List α}

theorem map_eq_of_forall₂ (h : List.Forall₂ R l m) (hf : ∀ a b, R a b → f a = f b) : l.map f = m.map f := by
  induction h with
  | nil => rfl
  | cons hab _ ih => rw [List.map_cons, List.map_cons, hf _ _ hab, ih]

/-- What related entries share comes as often in one list as in the other. -/
theorem PairedOff.map_perm (h : PairedOff R l m) (hf : ∀ a b, R a b → f a = f b) : (l.map f).Perm (m.map f) := by
  obtain ⟨k, hk, hpairs⟩ := h
  rw [← map_eq_of_forall₂ hpairs hf]
  exact (hk.map f).symm

end PairedOff

/-- The same field, with its values in whatever order. -/
structure FormField.Rearranges (x y : FormField) : Prop where
  var : x.var = y.var
  values : x.values.Perm y.values

/-- The same form, with its fields in another order that those of one name do not notice. -/
def DataForm.Rearranges (f g : DataForm) : Prop :=
  ∃ fields : List FormField, fields.Perm f.fields ∧
    (∀ var, (fields.filter fun x => x.var = var) = f.fields.filter fun x => x.var = var) ∧
    List.Forall₂ FormField.Rearranges fields g.fields

/-- The same reply, put together in another order. A part of an identity that is missing may be empty instead. -/
structure DiscoInfo.Rearranges (d e : DiscoInfo) : Prop where
  identities : PairedOff Identity.Agrees d.identities e.identities
  features : d.features.Perm e.features
  forms : PairedOff DataForm.Rearranges d.forms e.forms

open Verification

theorem FormField.Rearranges.fieldLines_eq {x y : FormField} (h : x.Rearranges y) : fieldLines x = fieldLines y := by
  have hvalues : sortTexts x.values = sortTexts y.values := by
    apply ((sortBy_perm id x.values).trans (h.values.trans (sortBy_perm id y.values).symm)).eq_of_pairwise
    · intro a b _ _ hab hba
      exact Std.le_antisymm hab hba
    · exact pairwise_sortBy id x.values
    · exact pairwise_sortBy id y.values
  rw [fieldLines, fieldLines, h.var, hvalues]

/-- Of a list that is not empty, the first entry stands for all if they are the same, in whatever order they come. -/
theorem all_eq_head_iff {v w : String} {vs ws : List String} (h : (v :: vs).Perm (w :: ws)) :
    vs.all (· == v) = ws.all (· == w) ∧ (vs.all (· == v) = true → v = w) := by
  have hv : vs.all (· == v) = true ↔ ∀ u ∈ v :: vs, u = v := by simp
  have hw : ws.all (· == w) = true ↔ ∀ u ∈ w :: ws, u = w := by simp
  have hfirst : vs.all (· == v) = true → w = v := fun hall => hv.1 hall w (h.mem_iff.2 List.mem_cons_self)
  have hsecond : ws.all (· == w) = true → v = w := fun hall => hw.1 hall v (h.mem_iff.1 List.mem_cons_self)
  refine ⟨Bool.eq_iff_iff.2 ⟨fun hall => hw.2 fun u hu => ?_, fun hall => hv.2 fun u hu => ?_⟩,
    fun hall => (hfirst hall).symm⟩
  · rw [hfirst hall]
    exact hv.1 hall u (h.mem_iff.2 hu)
  · rw [hsecond hall]
    exact hw.1 hall u (h.mem_iff.1 hu)

namespace DataForm
variable {f g : DataForm}

theorem Rearranges.typeFields (h : f.Rearranges g) :
    List.Forall₂ FormField.Rearranges f.typeFields g.typeFields := by
  obtain ⟨fields, -, hstable, hpairs⟩ := h
  have htypes : (fields.filter fun x => x.var == typeVar) = f.typeFields := hstable typeVar
  rw [← htypes]
  apply List.rel_filter _ hpairs
  intro x y hxy
  simp only [hxy.var]

/-- The type of a form is a matter of what its type fields hold, not of the order. -/
theorem Rearranges.kind_eq (h : f.Rearranges g) : f.kind = g.kind := by
  have htypes := h.typeFields
  rw [kind, kind]
  generalize f.typeFields = xs at htypes
  generalize g.typeFields = ys at htypes
  cases htypes with
  | nil => rfl
  | cons hxy hrest =>
    rename_i x y xs ys
    cases hrest with
    | cons _ _ => rfl
    | nil =>
      have hvalues := hxy.values
      dsimp only
      cases hx : x.values with
      | nil =>
        rw [hx] at hvalues
        rw [hvalues.nil_eq]
      | cons v vs =>
        cases hy : y.values with
        | nil =>
          rw [hx, hy] at hvalues
          exact absurd hvalues.eq_nil (List.cons_ne_nil v vs)
        | cons w ws =>
          rw [hx, hy] at hvalues
          obtain ⟨hall, hsame⟩ := all_eq_head_iff hvalues
          dsimp only
          rw [← hall]
          split
          · rename_i heq
            rw [hsame heq]
          · rfl

/-- Sorted by name, fields whose lines agree in pairs have the same lines. -/
theorem bodyLines_eq (f : DataForm) :
    bodyLines f = (sortBy Prod.fst (f.otherFields.map fun x => (x.var, fieldLines x))).flatMap Prod.snd := by
  rw [sortBy_map, List.flatMap_map]
  rfl

theorem Rearranges.bodyLines_eq (h : f.Rearranges g) : bodyLines f = bodyLines g := by
  obtain ⟨fields, -, hstable, hpairs⟩ := h
  let moved : DataForm := ⟨fields⟩
  -- moving fields of different names is undone by the sorting
  have hmoved : bodyLines moved = bodyLines f := by
    have hties (var : String) : (moved.otherFields.filter fun x => x.var = var) =
        f.otherFields.filter fun x => x.var = var := by
      rw [otherFields, otherFields, List.filter_comm, hstable var, List.filter_comm]
    have hsorted : sortBy FormField.var moved.otherFields = sortBy FormField.var f.otherFields :=
      sortBy_eq_of_filter_eq hties
    exact congrArg (List.flatMap fieldLines) hsorted
  have hother : List.Forall₂ FormField.Rearranges moved.otherFields g.otherFields := by
    apply List.rel_filter _ hpairs
    intro x y hxy
    simp only [hxy.var]
  have hlines : (moved.otherFields.map fun x => (x.var, fieldLines x)) =
      g.otherFields.map fun x => (x.var, fieldLines x) := by
    apply map_eq_of_forall₂ hother
    intro x y hxy
    rw [hxy.var, hxy.fieldLines_eq]
  rw [← hmoved, DataForm.bodyLines_eq, DataForm.bodyLines_eq, hlines]

/-- What a form with a type puts into the verification string: its type and the lines after it. -/
def typedLines? (f : DataForm) : Option (String × List String) := f.typed?.map fun p => (p.1, bodyLines p.2)

theorem Rearranges.typedLines?_eq (h : f.Rearranges g) : f.typedLines? = g.typedLines? := by
  rw [typedLines?, typedLines?, typed?, typed?, ← h.kind_eq]
  cases f.kind with
  | typed t => simp only [Option.map_some, h.bodyLines_eq]
  | _ => rfl

end DataForm

namespace Verification

theorem identityLines?_eq_sorted (is : List Identity) : identityLines? is =
    (sortDistinct? id (is.map Identity.key)).map fun keys => keys.map ("/".intercalate ·) := by
  rw [identityLines?_eq, sortDistinct?_map, Option.map_map, Function.id_comp]
  congr 1
  funext is
  rw [Function.comp, List.map_map]
  rfl

/-- The forms with a type, sorted by it, one after the other. -/
theorem formLines?_eq_sorted (fs : List DataForm) : formLines? fs =
    if .conflicting ∈ fs.map DataForm.kind then none
    else (sortDistinct? Prod.fst (fs.filterMap DataForm.typedLines?)).map fun us => us.flatMap fun p => p.1 :: p.2 := by
  have hconflict : .conflicting ∈ fs.map DataForm.kind ↔ typedForms? fs = none := by
    rw [typedForms?_eq_none_iff, List.mem_map]
    simp only [DataForm.kind_eq_conflicting_iff]
  rw [formLines?_eq]
  cases hts : typedForms? fs with
  | none => rw [if_pos (hconflict.2 hts), Option.bind_none]
  | some ts =>
    have hnone : ¬ FormKind.conflicting ∈ fs.map DataForm.kind := by
      rw [hconflict, hts]
      exact Option.some_ne_none ts
    have hlines : fs.filterMap DataForm.typedLines? = ts.map fun p => (p.1, bodyLines p.2) := by
      rw [typedForms?_eq_some hts, List.map_filterMap]
      rfl
    rw [if_neg hnone, hlines, sortDistinct?_map, Option.bind_some, Option.map_map]
    congr 1
    funext us
    rw [Function.comp, List.flatMap_map]

theorem identityLines?_eq_of_pairedOff {is js : List Identity} (h : PairedOff Identity.Agrees is js) :
    identityLines? is = identityLines? js := by
  have hkeys : (is.map Identity.key).Perm (js.map Identity.key) :=
    h.map_perm fun i j hij => Identity.key_eq_iff.2 hij
  rw [identityLines?_eq_sorted, identityLines?_eq_sorted, sortDistinct?_perm hkeys]

theorem formLines?_eq_of_pairedOff {fs gs : List DataForm} (h : PairedOff DataForm.Rearranges fs gs) :
    formLines? fs = formLines? gs := by
  have hkinds : (fs.map DataForm.kind).Perm (gs.map DataForm.kind) := h.map_perm fun f g hfg => hfg.kind_eq
  have htyped : (fs.filterMap DataForm.typedLines?).Perm (gs.filterMap DataForm.typedLines?) := by
    have hlines := h.map_perm fun f g hfg => hfg.typedLines?_eq
    simpa [List.filterMap_map] using hlines.filterMap id
  rw [formLines?_eq_sorted, formLines?_eq_sorted, sortDistinct?_perm htyped]
  simp only [hkinds.mem_iff]

theorem lines?_eq_of_rearranges {d e : DiscoInfo} (h : d.Rearranges e) : lines? d = lines? e := by
  have hfeatures : featureLines? d.features = featureLines? e.features := by
    rw [featureLines?_eq, featureLines?_eq, sortDistinct?_perm h.features]
  rw [lines?, lines?, identityLines?_eq_of_pairedOff h.identities, hfeatures, formLines?_eq_of_pairedOff h.forms]

/-- Replies that differ only in how they were put together have the same verification string or both none, and so the
same digests and the same verdict on whatever is advertised. -/
theorem rearranged_replies_hash_alike (d e : DiscoInfo) (h : d.Rearranges e) :
    string? d = string? e ∧ (∀ a : HashAlgorithm, d.digest? a = e.digest? a) ∧
    ∀ advertised : Digest, d.verify advertised = e.verify advertised := by
  have hstring : string? d = string? e := by rw [string?, string?, lines?_eq_of_rearranges h]
  have hdigest (a : HashAlgorithm) : d.digest? a = e.digest? a := by
    rw [DiscoInfo.digest?, DiscoInfo.digest?, hstring]
  refine ⟨hstring, hdigest, fun advertised => ?_⟩
  rw [DiscoInfo.verify, DiscoInfo.verify, hdigest]

/-- Everything in the order in which it is hashed; one of the systems has two names. -/
def orderedReply : DiscoInfo where
  node := none
  identities := [⟨"client", "bot", some "en", none⟩, ⟨"client", "pc", none, some "Fake"⟩]
  features := ["msglog", "vcard-temp"]
  forms := [⟨[⟨DataForm.typeVar, ["urn:xmpp:os"]⟩, ⟨"ip", ["6"]⟩, ⟨"os", ["Linux", "Mac"]⟩, ⟨"os", ["BSD"]⟩]⟩,
    .ofType "urn:xmpp:ping"]

/-- The same reply in another order, with its gaps filled. The two fields for systems stay as they are. -/
def shuffledReply : DiscoInfo where
  node := none
  identities := [⟨"client", "pc", some "", some "Fake"⟩, ⟨"client", "bot", some "en", some ""⟩]
  features := ["vcard-temp", "msglog"]
  forms := [.ofType "urn:xmpp:ping",
    ⟨[⟨"os", ["Mac", "Linux"]⟩, ⟨"ip", ["6"]⟩, ⟨"os", ["BSD"]⟩, ⟨DataForm.typeVar, ["urn:xmpp:os"]⟩]⟩]

theorem hash_alike_of_shuffledReply : orderedReply.Rearranges shuffledReply ∧
    string? shuffledReply = some ("client/bot/en/<client/pc//Fake<msglog<vcard-temp<" ++
      "urn:xmpp:os<ip<6<os<Linux<Mac<os<BSD<urn:xmpp:ping<") ∧
    shuffledReply.digest? .sha1 = orderedReply.digest? .sha1 := by
  have hmoved : DataForm.Rearranges
      ⟨[⟨DataForm.typeVar, ["urn:xmpp:os"]⟩, ⟨"ip", ["6"]⟩, ⟨"os", ["Linux", "Mac"]⟩, ⟨"os", ["BSD"]⟩]⟩
      ⟨[⟨"os", ["Mac", "Linux"]⟩, ⟨"ip", ["6"]⟩, ⟨"os", ["BSD"]⟩, ⟨DataForm.typeVar, ["urn:xmpp:os"]⟩]⟩ := by
    refine ⟨[⟨"os", ["Linux", "Mac"]⟩, ⟨"ip", ["6"]⟩, ⟨"os", ["BSD"]⟩, ⟨DataForm.typeVar, ["urn:xmpp:os"]⟩],
      by decide, fun var => ?_, ?_⟩
    · by_cases hip : "ip" = var
      · subst hip
        rfl
      · by_cases hos : "os" = var
        · subst hos
          rfl
        · simp [List.filter_cons, hip, hos]
    · exact .cons ⟨rfl, .swap _ _ _⟩ (.cons ⟨rfl, .refl _⟩ (.cons ⟨rfl, .refl _⟩ (.cons ⟨rfl, .refl _⟩ .nil)))
  have hsame : DataForm.Rearranges (.ofType "urn:xmpp:ping") (.ofType "urn:xmpp:ping") :=
    ⟨_, .refl _, fun _ => rfl, .cons ⟨rfl, .refl _⟩ .nil⟩
  have h : orderedReply.Rearranges shuffledReply := by
    refine ⟨⟨_, .swap _ _ _, ?_⟩, .swap _ _ _, ⟨_, .swap _ _ _, .cons hsame (.cons hmoved .nil)⟩⟩
    exact .cons ⟨rfl, rfl, rfl, rfl⟩ (.cons ⟨rfl, rfl, rfl, rfl⟩ .nil)
  obtain ⟨hstring, hdigest, -⟩ := rearranged_replies_hash_alike _ _ h
  refine ⟨h, ?_, (hdigest .sha1).symm⟩
  rw [← hstring]
  cbv

end Verification
end PresenceCaps
