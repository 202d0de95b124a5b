import Mathlib.Data.List.Forall2
import PresenceCaps.Address

/-!
Which texts are addresses, which of them are the same one, and that an address is read back from the text that it is
displayed as, whatever its resource is.
-/
namespace PresenceCaps

/-- The two forms of an ASCII letter. -/
def IsCapitalOf (a b : Char) : Prop := 'A' ≤ a ∧ a ≤ 'Z' ∧ b.toNat = a.toNat + 32

/-- Characters that are the same, up to the case of ASCII letters. -/
def SameLetter (a b : Char) : Prop := a = b ∨ IsCapitalOf a b ∨ IsCapitalOf b a

theorem isCapitalOf_iff {a b : Char} :
    IsCapitalOf a b ↔ (65 ≤ a.toNat ∧ a.toNat ≤ 90) ∧ b.toNat = a.toNat + 32 := and_assoc.symm

theorem toLower_eq_iff {a b : Char} : a.toLower = b.toLower ↔ SameLetter a b := by
  rw [SameLetter, isCapitalOf_iff, isCapitalOf_iff, ← Char.toNat_inj, ← Char.toNat_inj, toNat_toLower, toNat_toLower]
  split <;> split <;> omega

theorem lower_eq_iff {xs ys : List Char} : lower xs = lower ys ↔ List.Forall₂ SameLetter xs ys := by
  rw [lower, lower, ← List.forall₂_eq_eq_eq, List.forall₂_map_left_iff, List.forall₂_map_right_iff]
  simp only [toLower_eq_iff]

/-- What a bare address may be written as: there is no slash, and if there is an at sign, then only one, between two
names. -/
structure IsBareText (cs : List Char) : Prop where
  ne_nil : cs ≠ []
  slash : '/' ∉ cs
  names : '@' ∉ cs ∨ ∃ l d, cs = l ++ '@' :: d ∧ l ≠ [] ∧ d ≠ [] ∧ '@' ∉ l ∧ '@' ∉ d

/-- Texts with the same part before the at sign, or both without one, of which the rest agrees up to the case of ASCII
letters. -/
inductive SameBareText : List Char → List Char → Prop where
  | domains {xs ys : List Char} (hx : '@' ∉ xs) (hy : '@' ∉ ys) (h : List.Forall₂ SameLetter xs ys) : SameBareText xs ys
  | parts {l xs ys : List Char} (hl : '@' ∉ l) (h : List.Forall₂ SameLetter xs ys) :
    SameBareText (l ++ '@' :: xs) (l ++ '@' :: ys)

namespace BareAddress
variable {a b : BareAddress} {cs l d : List Char}

theorem ofChars?_of_notMem (h : '@' ∉ cs) :
    ofChars? cs = if hn : IsName cs then some (ofDomain cs hn) else none := by
  rw [ofChars?, splitFirst_eq_none_iff.2 h]

theorem ofChars?_append (h : '@' ∉ l) : ofChars? (l ++ '@' :: d) =
    if hn : IsName l ∧ IsName d then some (ofParts l d hn.1 hn.2) else none := by
  rw [ofChars?, splitFirst_eq_some_iff.2 ⟨rfl, h⟩]

theorem eq_ofDomain (hat : '@' ∉ cs) (h : ofChars? cs = some a) : ∃ hn : IsName cs, a = ofDomain cs hn := by
  rw [ofChars?_of_notMem hat] at h
  split at h
  · rename_i hn
    exact ⟨hn, (Option.some.inj h).symm⟩
  · exact absurd h (by simp)

theorem eq_ofParts (hat : '@' ∉ l) (h : ofChars? (l ++ '@' :: d) = some a) :
    ∃ (hl : IsName l) (hd : IsName d), a = ofParts l d hl hd := by
  rw [ofChars?_append hat] at h
  split at h
  · rename_i hn
    exact ⟨hn.1, hn.2, (Option.some.inj h).symm⟩
  · exact absurd h (by simp)

theorem ofChars?_cases (h : ofChars? cs = some a) : (∃ hn : IsName cs, a = ofDomain cs hn) ∨
    ∃ (l d : List Char) (hl : IsName l) (hd : IsName d), cs = l ++ '@' :: d ∧ a = ofParts l d hl hd := by
  by_cases hat : '@' ∈ cs
  · obtain ⟨l, d, rfl, hno⟩ := List.eq_append_cons_of_mem hat
    obtain ⟨hl, hd, heq⟩ := eq_ofParts hno h
    exact Or.inr ⟨l, d, hl, hd, rfl, heq⟩
  · exact Or.inl (eq_ofDomain hat h)

theorem exists_ofChars?_iff : (∃ a, ofChars? cs = some a) ↔ IsBareText cs := by
  constructor
  · rintro ⟨a, h⟩
    obtain ⟨⟨hne, hat, hslash⟩, -⟩ | ⟨l, d, ⟨hl, hlat, hls⟩, ⟨hd, hdat, hds⟩, rfl, -⟩ := ofChars?_cases h
    · exact ⟨hne, hslash, Or.inl hat⟩
    · exact ⟨by simp, by simp [hls, hds], Or.inr ⟨l, d, rfl, hl, hd, hlat, hdat⟩⟩
  · rintro ⟨hne, hslash, hat | ⟨l, d, rfl, hl, hd, hlat, hdat⟩⟩
    · exact ⟨_, (ofChars?_of_notMem hat).trans (dif_pos ⟨hne, hat, hslash⟩)⟩
    · simp only [List.mem_append, List.mem_cons, not_or] at hslash
      have hnames : IsName l ∧ IsName d := ⟨⟨hl, hlat, hslash.1⟩, ⟨hd, hdat, hslash.2.2⟩⟩
      exact ⟨_, (ofChars?_append hlat).trans (dif_pos hnames)⟩

theorem ofDomain_eq_iff {xs ys : List Char} {hx : IsName xs} {hy : IsName ys} :
    ofDomain xs hx = ofDomain ys hy ↔ List.Forall₂ SameLetter xs ys := by
  rw [← lower_eq_iff, ofDomain, ofDomain, mk.injEq, String.ofList_inj, eq_self_iff_true, true_and]

theorem ofParts_eq_iff {l m xs ys : List Char} {hl : IsName l} {hm : IsName m} {hx : IsName xs} {hy : IsName ys} :
    ofParts l xs hl hx = ofParts m ys hm hy ↔ l = m ∧ List.Forall₂ SameLetter xs ys := by
  rw [← lower_eq_iff, ofParts, ofParts, mk.injEq, Option.some.injEq, String.ofList_inj, String.ofList_inj]

theorem ofDomain_ne_ofParts (hn : IsName cs) (hl : IsName l) (hd : IsName d) : ofDomain cs hn ≠ ofParts l d hl hd :=
  fun heq => absurd (congrArg localPart heq).symm (Option.some_ne_none _)

/-- Two texts are the same address just if they differ in nothing but the case of their domains. -/
theorem eq_iff_sameBareText {xs ys : List Char} (ha : ofChars? xs = some a) (hb : ofChars? ys = some b) :
    a = b ↔ SameBareText xs ys := by
  constructor
  · intro heq
    -- an address with a part before the at sign is none without it, so the texts are of one kind
    obtain ⟨hx, rfl⟩ | ⟨l, d, hl, hd, rfl, rfl⟩ := ofChars?_cases ha <;>
      obtain ⟨hy, rfl⟩ | ⟨m, e, hm, he, rfl, rfl⟩ := ofChars?_cases hb
    · exact .domains hx.2.1 hy.2.1 (ofDomain_eq_iff.1 heq)
    · exact absurd heq (ofDomain_ne_ofParts hx hm he)
    · exact absurd heq.symm (ofDomain_ne_ofParts hy hl hd)
    · obtain ⟨rfl, hdomain⟩ := ofParts_eq_iff.1 heq
      exact .parts hl.2.1 hdomain
  · rintro (⟨hx, hy, h⟩ | ⟨hat, h⟩)
    · obtain ⟨hn, rfl⟩ := eq_ofDomain hx ha
      obtain ⟨hn', rfl⟩ := eq_ofDomain hy hb
      exact ofDomain_eq_iff.2 h
    · obtain ⟨hl, hd, rfl⟩ := eq_ofParts hat ha
      obtain ⟨hl', hd', rfl⟩ := eq_ofParts hat hb
      exact ofParts_eq_iff.2 ⟨rfl, h⟩

theorem parse_eq_ok_iff {s : String} : parse s = .ok a ↔ ofChars? s.toList = some a := by
  rw [parse]
  cases ofChars? s.toList <;> simp

theorem notMem_slash_display (a : BareAddress) : '/' ∉ a.display.toList :=
  (exists_ofChars?_iff.1 ⟨a, a.ofChars?_display⟩).slash

end BareAddress

namespace FullAddress

/-- The first slash of the displayed text ends the bare address, since there is none in that. -/
theorem parse_display (x : FullAddress) : parse x.display = .ok x := by
  obtain ⟨a, r⟩ := x
  by_cases hr : r = ""
  · subst hr
    have htext : display ⟨a, ""⟩ = a.display := if_pos rfl
    rw [htext, parse, splitFirst_eq_none_iff.2 a.notMem_slash_display, BareAddress.parse_display]
    rfl
  · have htext : (display ⟨a, r⟩).toList = a.display.toList ++ '/' :: r.toList := by simp [display, hr]
    rw [parse, htext, splitFirst_eq_some_iff.2 ⟨rfl, a.notMem_slash_display⟩]
    dsimp only
    rw [String.ofList_toList, String.ofList_toList, BareAddress.parse_display]
    rfl

end FullAddress

/-- A text is accepted just if it is nonempty, has no slash, and has no at sign or only one between two names; two
accepted texts are the same address just if they differ in nothing but the case of their domains. Every address, with
any resource, is read back from the text that it is displayed as, so no two are displayed alike. -/
theorem addresses_have_normal_form :
    (∀ s : String, (∃ a, BareAddress.parse s = .ok a) ↔ IsBareText s.toList) ∧
    (∀ (s t : String) (a b : BareAddress), BareAddress.parse s = .ok a → BareAddress.parse t = .ok b →
      (a = b ↔ SameBareText s.toList t.toList)) ∧
    (∀ a : BareAddress, BareAddress.parse a.display = .ok a ∧
      ∀ r : String, FullAddress.parse (a.withResource r).display = .ok ⟨a, r⟩) ∧
    (∀ x y : FullAddress, x.display = y.display → x = y) ∧
    (∀ (s : String) (x : FullAddress), FullAddress.parse s = .ok x → FullAddress.parse x.display = .ok x) := by
  refine ⟨fun s => ?_, fun s t a b ha hb => ?_, fun a => ⟨a.parse_display, fun r => ?_⟩, fun x y h => ?_,
    fun s x _ => x.parse_display⟩
  · simp only [BareAddress.parse_eq_ok_iff, BareAddress.exists_ofChars?_iff]
  · exact BareAddress.eq_iff_sameBareText (BareAddress.parse_eq_ok_iff.1 ha) (BareAddress.parse_eq_ok_iff.1 hb)
  · exact (a.withResource r).parse_display
  · have hx := x.parse_display
    rw [h, y.parse_display] at hx
    exact (Except.ok.inj hx).symm

/-- The domain may be written in capitals, the part before it may not, and a resource may have separators of its own. -/
theorem normal_form_of_mixedCase :
    let bob : BareAddress := .ofParts "Bob".toList "Example.COM".toList (by decide) (by decide)
    BareAddress.parse "Bob@Example.COM" = .ok bob ∧ BareAddress.parse "Bob@EXAMPLE.com" = .ok bob ∧
    SameBareText "Bob@Example.COM".toList "Bob@EXAMPLE.com".toList ∧ ¬ IsBareText "Bob@Example@COM".toList ∧
    FullAddress.parse "Bob@example.com/Home/1@x" = .ok (bob.withResource "Home/1@x") := by
  intro bob
  obtain ⟨haccepted, hsame, hread, -, hfull⟩ := addresses_have_normal_form
  have hcapital : BareAddress.parse "Bob@Example.COM" = .ok bob := by rfl
  have hshouted : BareAddress.parse "Bob@EXAMPLE.com" = .ok bob := by rfl
  have hrefused : BareAddress.parse "Bob@Example@COM" = .error (.invalidAddress "Bob@Example@COM") := by rfl
  refine ⟨hcapital, hshouted, (hsame _ _ _ _ hcapital hshouted).1 rfl, fun htext => ?_, ?_⟩
  · obtain ⟨a, ha⟩ := (haccepted _).2 htext
    rw [hrefused] at ha
    cases ha
  · exact (hread bob).2 "Home/1@x"

end PresenceCaps
