import Mathlib.Data.String.Basic
import PresenceCaps.Text.Order

/-!
The order of texts is the order of their bytes. A code point that comes first is encoded by bytes that come first, and
no encoding is the beginning of another one, so the first code point that differs decides for the bytes as well.
-/
namespace PresenceCaps

/-- The bytes that stand for a text. -/
def utf8 (s : String) : List UInt8 := s.toUTF8.data.toList

theorem utf8_eq_flatMap (s : String) : utf8 s = s.toList.flatMap String.utf8EncodeChar := by
  rw [utf8, String.toUTF8, ← String.utf8Encode_toList, List.utf8Encode, List.data_toByteArray]

/-- What follows does not matter where two code points differ. -/
theorem encode_append_lt {c d : Char} (h : c < d) (u v : List UInt8) :
    String.utf8EncodeChar c ++ u < String.utf8EncodeChar d ++ v := by
  have hlt : c.val.toNat < d.val.toNat := h
  have hmax : d.val.toNat < 1114112 := by
    rcases d.valid with hd | hd
    · exact Nat.lt_trans hd (by decide)
    · exact hd.2
  have hsmall (n b k : Nat) (hk : k + b ≤ 256) (hb : 0 < b) : (n % b + k) % 256 = n % b + k := by
    have := Nat.mod_lt n hb
    exact Nat.mod_eq_of_lt (by omega)
  have h4096 (n : Nat) : n / 4096 = n / 64 / 64 := (Nat.div_div_eq_div_mul n 64 64).symm
  have h262144 (n : Nat) : n / 262144 = n / 64 / 64 / 64 := by
    rw [Nat.div_div_eq_div_mul, Nat.div_div_eq_div_mul]
  unfold String.utf8EncodeChar
  dsimp only
  -- One case for each pair of lengths: equal lengths compare digit by digit, else the first byte decides.
  repeat' split
  all_goals
    simp (disch := decide) only [List.cons_append, List.nil_append, List.cons_lt_cons_iff, UInt8.lt_iff_toNat_lt,
      ← UInt8.toNat_inj, UInt8.toNat_ofNat', Nat.reducePow, hsmall, h4096, h262144]
    omega

theorem flatMap_encode_lt {cs ds : List Char} (h : cs < ds) :
    cs.flatMap String.utf8EncodeChar < ds.flatMap String.utf8EncodeChar := by
  induction cs generalizing ds with
  | nil =>
    cases ds with
    | nil => exact absurd h (List.lt_irrefl [])
    | cons d ds =>
      obtain ⟨b, bs, hbytes⟩ := List.exists_cons_of_ne_nil (String.utf8EncodeChar_ne_nil (c := d))
      rw [List.flatMap_nil, List.flatMap_cons, hbytes]
      exact List.nil_lt_cons _ _
  | cons c cs ih =>
    cases ds with
    | nil => exact absurd h (List.not_lt_nil _)
    | cons d ds =>
      rw [List.flatMap_cons, List.flatMap_cons]
      rcases List.cons_lt_cons_iff.1 h with hfirst | ⟨rfl, hrest⟩
      · exact encode_append_lt hfirst _ _
      · exact List.append_left_lt (ih hrest)

theorem utf8_lt {s t : String} : utf8 s < utf8 t ↔ s < t := by
  have hmono {s t : String} (h : s < t) : utf8 s < utf8 t := by
    rw [utf8_eq_flatMap, utf8_eq_flatMap]
    exact flatMap_encode_lt (String.lt_iff.1 h)
  refine ⟨fun h => ?_, hmono⟩
  rcases Std.lt_trichotomy s t with hst | rfl | hts
  · exact hst
  · exact absurd h (List.lt_irrefl _)
  · exact absurd (List.lt_trans h (hmono hts)) (List.lt_irrefl _)

theorem utf8_le {s t : String} : utf8 s ≤ utf8 t ↔ s ≤ t := by
  rw [← List.not_lt, utf8_lt, String.not_lt]

/-- The order of a dictionary is that of lists. -/
theorem textsLe_iff {xs ys : List String} : textsLe xs ys = true ↔ xs ≤ ys := by
  rw [← not_lt]
  induction xs generalizing ys with
  | nil => exact iff_of_true rfl (List.not_lt_nil ys)
  | cons x xs ih =>
    cases ys with
    | nil => exact iff_of_false Bool.false_ne_true (not_not.2 (List.nil_lt_cons x xs))
    | cons y ys =>
      rw [textsLe_cons_cons, List.cons_lt_cons_iff, ih]
      rcases lt_trichotomy x y with h | rfl | h
      · simp only [h, h.not_gt, h.ne', true_or, false_and, or_self, not_false_eq_true]
      · simp only [lt_irrefl, true_and, false_or]
      · simp only [h, h.not_gt, h.ne', true_or, false_and, or_self, not_true_eq_false]

end PresenceCaps
