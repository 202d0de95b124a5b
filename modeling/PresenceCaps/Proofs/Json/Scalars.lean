import Mathlib.Algebra.Group.Int.Defs
import PresenceCaps.Json.Printer
import PresenceCaps.Json.Reader
import PresenceCaps.Proofs.Text.Numeral

/-! Strings and numbers of a JSON text read back as what they were written for. -/
namespace PresenceCaps.Json
variable {c : Char} {cs rest taken : List Char}

/-! Strings -/

theorem untilQuote?_cons (hq : c ≠ '"') (hb : c ≠ '\\') (cs : List Char) :
    untilQuote? taken (c :: cs) = untilQuote? (c :: taken) cs := by
  rw [untilQuote?]
  · exact hq
  · intro a as h
    exact fun _ => hb h

/-- Escapes below the space character have two digits, of which neither ends the string. -/
theorem hexDigit_ne : ∀ n < 16, hexDigit n ≠ '"' ∧ hexDigit n ≠ '\\' := by decide

theorem untilQuote?_escaped (c : Char) (cs : List Char) :
    untilQuote? taken (escaped c ++ cs) = untilQuote? ((escaped c).reverse ++ taken) cs := by
  rw [escaped]
  split
  · rfl
  · rename_i hq
    split
    · rfl
    · rename_i hb
      split
      · rename_i hlow
        -- six characters, none of which but the first means anything here
        obtain ⟨hq₁, hb₁⟩ := hexDigit_ne (c.toNat / 16) (by omega)
        obtain ⟨hq₂, hb₂⟩ := hexDigit_ne (c.toNat % 16) (by omega)
        have hzero : '0' ≠ '"' ∧ '0' ≠ '\\' := by decide
        simp only [List.cons_append, List.nil_append]
        rw [untilQuote?, untilQuote?_cons hzero.1 hzero.2, untilQuote?_cons hzero.1 hzero.2, untilQuote?_cons hq₁ hb₁,
          untilQuote?_cons hq₂ hb₂]
        rfl
      · exact untilQuote?_cons hq hb cs

theorem untilQuote?_flatMap (s cs taken : List Char) :
    untilQuote? taken (s.flatMap escaped ++ '"' :: cs) = some (taken.reverse ++ s.flatMap escaped, cs) := by
  induction s generalizing taken with
  | nil =>
    rw [List.flatMap_nil, List.nil_append, untilQuote?, List.append_nil]
  | cons c s ih =>
    rw [List.flatMap_cons, List.append_assoc, untilQuote?_escaped, ih, List.reverse_append, List.reverse_reverse,
      List.append_assoc]

theorem spells_hex4 : ∀ n < 32, natural? 16 ['0', '0', hexDigit (n / 16), hexDigit (n % 16)] = some n := by decide

theorem escape?_low (hlow : c.toNat < 32) (cs : List Char) :
    escape? ('u' :: '0' :: '0' :: hexDigit (c.toNat / 16) :: hexDigit (c.toNat % 16) :: cs) = some (c, cs) := by
  have hhex : hex4? ('0' :: '0' :: hexDigit (c.toNat / 16) :: hexDigit (c.toNat % 16) :: cs) = some (c.toNat, cs) := by
    rw [hex4?, spells_hex4 c.toNat hlow]
    rfl
  rw [escape?, codePoint?, hhex]
  have hhigh : ¬ (0xD800 ≤ c.toNat ∧ c.toNat < 0xDC00) := by omega
  have hpair : ¬ (0xDC00 ≤ c.toNat ∧ c.toNat < 0xE000) := by omega
  simp [hhigh, hpair, Char.ofNat_toNat]

/-- One character of the string, however it was written. -/
theorem unescape?_escaped (fuel : Nat) (c : Char) (cs : List Char) :
    unescape? taken (fuel + 1) (escaped c ++ cs) = unescape? (c :: taken) fuel cs := by
  rw [escaped]
  split
  · rename_i h
    subst h
    rfl
  · split
    · rename_i h
      subst h
      rfl
    · rename_i hb
      split
      · rename_i hlow
        simp only [List.cons_append, List.nil_append]
        rw [unescape?, escape?_low hlow]
        rfl
      · rename_i hhigh
        rw [List.singleton_append, unescape?, if_neg hhigh]
        exact hb

theorem unescape?_flatMap {s : List Char} (taken : List Char) {fuel : Nat} (h : s.length ≤ fuel) :
    unescape? taken fuel (s.flatMap escaped) = some (taken.reverse ++ s) := by
  induction s generalizing taken fuel with
  | nil =>
    rw [List.flatMap_nil, List.append_nil]
    cases fuel <;> rfl
  | cons c s ih =>
    cases fuel with
    | zero => exact absurd h (by simp)
    | succ fuel =>
      rw [List.flatMap_cons, unescape?_escaped, ih (c :: taken) (Nat.le_of_succ_le_succ h), List.reverse_cons,
        List.append_assoc]
      rfl

theorem length_escaped_pos (c : Char) : 1 ≤ (escaped c).length := by
  rw [escaped]
  split
  · simp
  · split
    · simp
    · split <;> simp

theorem length_le_flatMap (s : List Char) : s.length ≤ (s.flatMap escaped).length := by
  induction s with
  | nil => simp
  | cons c s ih =>
    have := length_escaped_pos c
    rw [List.flatMap_cons, List.length_append, List.length_cons]
    omega

theorem toList_quoted (s : String) : (quoted s).toList = '"' :: (s.toList.flatMap escaped ++ ['"']) := by
  rw [quoted, String.toList_ofList]
  rfl

theorem string?_quoted (s : String) (cs : List Char) :
    string? (s.toList.flatMap escaped ++ '"' :: cs) = some (s, cs) := by
  have hraw := untilQuote?_flatMap s.toList cs []
  have htext := unescape?_flatMap [] (length_le_flatMap s.toList)
  rw [List.reverse_nil, List.nil_append] at hraw htext
  simp only [string?, hraw, htext, bind, Option.bind, String.ofList_toList]
  rfl

/-! Integers -/

/-- What may follow a value: a comma, a closing mark, or nothing. -/
def Ends (rest : List Char) : Prop := ∀ c ∈ rest.head?, c = ',' ∨ c = ']' ∨ c = '\x7d'

theorem Ends.nil : Ends [] := fun _ h => absurd h (by simp)

theorem Ends.cons (h : c = ',' ∨ c = ']' ∨ c = '\x7d') : Ends (c :: cs) := fun _ hc => by
  rw [List.head?_cons, Option.mem_some_iff] at hc
  exact hc ▸ h

theorem takeWhile_isDecimal {ds : List Char} (hds : ∀ c ∈ ds, isDecimal c = true) (hr : Ends rest) :
    (ds ++ rest).takeWhile isDecimal = ds := by
  rw [List.takeWhile_append_of_pos hds]
  cases rest with
  | nil => simp
  | cons c cs =>
    have hc : isDecimal c = false := by
      obtain rfl | rfl | rfl := hr c rfl <;> decide
    rw [List.takeWhile_cons, hc]
    simp

theorem wholePart?_toDigits (n : Nat) (hr : Ends rest) :
    wholePart? (Nat.toDigits 10 n ++ rest) = some (Nat.toDigits 10 n, rest) := by
  by_cases hn : n = 0
  · subst hn
    rfl
  · obtain ⟨c, ds, hds, hc⟩ := head_toDigits hn
    have hdigits := takeWhile_isDecimal (spells_toDigits n).isSome_digitIn? hr
    have hsome : ¬ (Nat.toDigits 10 n).isEmpty = true := by simp [hds]
    rw [wholePart?]
    · simp only [hdigits]
      rw [if_neg hsome, List.drop_left]
    · intro as h
      rw [hds, List.cons_append] at h
      exact hc (List.cons.inj h).1

/-- Neither a fraction nor an exponent. -/
theorem marked?_of_ends {isMark : Char → Bool} {signed : Bool} (hr : Ends rest)
    (hmark : ∀ c, c = ',' ∨ c = ']' ∨ c = '\x7d' → isMark c = false) :
    marked? isMark signed rest = some ([], rest) := by
  cases rest with
  | nil => rfl
  | cons c cs => rw [marked?, if_neg (by simp [hmark c (hr c rfl)])]

theorem toDigits_starts (n : Nat) : ∃ c cs, Nat.toDigits 10 n = c :: cs ∧ isDecimal c = true := by
  have hdigits := (spells_toDigits n).isSome_digitIn?
  obtain ⟨c, cs, hcs⟩ := List.exists_cons_of_ne_nil (Nat.toDigits_ne_nil (b := 10) (n := n))
  exact ⟨c, cs, hcs, hdigits c (hcs ▸ List.mem_cons_self)⟩

theorem toDigits_ne_minus (n : Nat) (cs : List Char) : Nat.toDigits 10 n ++ rest ≠ '-' :: cs := by
  obtain ⟨d, ds, hds, hd⟩ := toDigits_starts n
  rw [hds]
  intro h
  rw [(List.cons.inj h).1] at hd
  exact absurd hd (by decide)

/-- A number that ends there has neither a fraction nor an exponent. -/
theorem unmarked (hr : Ends rest) : marked? (· == '.') false rest = some ([], rest) ∧
    marked? (fun c => c == 'e' || c == 'E') true rest = some ([], rest) :=
  ⟨marked?_of_ends hr (by rintro c (rfl | rfl | rfl) <;> rfl),
    marked?_of_ends hr (by rintro c (rfl | rfl | rfl) <;> rfl)⟩

theorem number?_toDigits (n : Nat) (hr : Ends rest) :
    number? (Nat.toDigits 10 n ++ rest) = some (ofWhole false (Nat.toDigits 10 n), rest) := by
  obtain ⟨hfraction, hexponent⟩ := unmarked hr
  rw [number?.eq_def]
  split
  rename_i negative ds heq
  split at heq
  · rename_i tail hminus
    exact absurd hminus (toDigits_ne_minus n tail)
  · cases heq
    simp only [wholePart?_toDigits n hr, hfraction, hexponent, bind, Option.bind]
    rfl

theorem number?_minus (n : Nat) (hr : Ends rest) :
    number? ('-' :: (Nat.toDigits 10 n ++ rest)) = some (ofWhole true (Nat.toDigits 10 n), rest) := by
  obtain ⟨hfraction, hexponent⟩ := unmarked hr
  simp only [number?, wholePart?_toDigits n hr, hfraction, hexponent, bind, Option.bind]
  rfl

/-- What an integer may be that is held in a word of 64 bits, with a sign or without. -/
def IsWord (n : Int) : Prop := int64Min ≤ n ∧ n < 2 ^ 64

theorem ofWhole_toDigits {n : Nat} (hn : IsWord n) : ofWhole false (Nat.toDigits 10 n) = .int n := by
  have hvalue := (spells_toDigits n).ofDigits_filterMap
  have hsmall : n < 1 <<< 64 := by
    have := hn.2
    omega
  rw [ofWhole, hvalue]
  exact if_pos hsmall

theorem ofWhole_minus {n : Nat} (hpos : n ≠ 0) (hn : IsWord (-n)) : ofWhole true (Nat.toDigits 10 n) = .int (-n) := by
  have hvalue := (spells_toDigits n).ofDigits_filterMap
  have hword : ¬ (n = 0 ∨ int64Min > -(n : Int)) := fun h => h.elim hpos fun hlow => absurd hn.1 (Int.not_le.2 hlow)
  rw [ofWhole, hvalue]
  exact if_neg hword

theorem toList_natCast (n : Nat) : (toString (n : Int)).toList = Nat.toDigits 10 n := Nat.toList_repr

theorem toList_negSucc (n : Nat) : (toString (Int.negSucc n)).toList = '-' :: Nat.toDigits 10 (n + 1) := by
  rw [Int.toString_eq_repr, Int.repr, String.toList_append, Nat.toList_repr]
  rfl

/-- An integer starts with a digit or a sign. -/
theorem toString_starts (n : Int) : ∃ c cs, (toString n).toList = c :: cs ∧ (c = '-' ∨ isDecimal c = true) := by
  cases n with
  | ofNat n =>
    obtain ⟨c, cs, hcs, hc⟩ := toDigits_starts n
    exact ⟨c, cs, (toList_natCast n).trans hcs, Or.inr hc⟩
  | negSucc n => exact ⟨'-', Nat.toDigits 10 (n + 1), toList_negSucc n, Or.inl rfl⟩

theorem number?_toString {n : Int} (hn : IsWord n) (hr : Ends rest) :
    number? ((toString n).toList ++ rest) = some (.int n, rest) := by
  cases n with
  | ofNat n =>
    have hread := number?_toDigits n hr
    rwa [ofWhole_toDigits hn, ← toList_natCast] at hread
  | negSucc n =>
    have hread := number?_minus (n + 1) hr
    rwa [ofWhole_minus (Nat.succ_ne_zero n) hn, ← List.cons_append, ← toList_negSucc] at hread

end PresenceCaps.Json
