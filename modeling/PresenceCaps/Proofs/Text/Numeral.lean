import PresenceCaps.Text.Numeral

/-! Numerals that are written read back as the numbers that they were written for. -/
namespace PresenceCaps

/-- All of these are digits, and together they are the number. -/
def Spells (base : Nat) (cs : List Char) (n : Nat) : Prop := ∃ ds, digits? base cs = some ds ∧ ofDigits base ds = n

namespace Spells
variable {base n d : Nat} {cs : List Char} {c : Char}

theorem singleton (hc : digitIn? base c = some d) : Spells base [c] d := by
  refine ⟨[d], ?_, ?_⟩
  · rw [digits?, List.mapM_cons, hc]
    rfl
  · show 0 * base + d = d
    omega

/-- One digit more. -/
theorem concat (hn : Spells base cs n) (hc : digitIn? base c = some d) : Spells base (cs ++ [c]) (n * base + d) := by
  obtain ⟨ds, hds, rfl⟩ := hn
  rw [digits?] at hds
  refine ⟨ds ++ [d], ?_, ?_⟩
  · rw [digits?, List.mapM_append, hds, List.mapM_cons, hc]
    rfl
  · rw [ofDigits, List.foldl_append]
    rfl

theorem natural?_eq (hn : Spells base cs n) (hne : cs ≠ []) : natural? base cs = some n := by
  obtain ⟨ds, hds, rfl⟩ := hn
  rw [natural?, if_neg (by simpa using hne), hds]
  rfl

theorem isSome_digitIn? (hn : Spells base cs n) : ∀ c ∈ cs, (digitIn? base c).isSome := by
  obtain ⟨ds, hds, -⟩ := hn
  rw [digits?] at hds
  induction cs generalizing ds with
  | nil => exact fun c hc => absurd hc List.not_mem_nil
  | cons a cs ih =>
    rw [List.mapM_cons] at hds
    obtain ⟨d, hd, hds⟩ := Option.bind_eq_some_iff.1 hds
    obtain ⟨rest, hrest, -⟩ := Option.bind_eq_some_iff.1 hds
    exact List.forall_mem_cons.2 ⟨by rw [hd]; rfl, ih rest hrest⟩

theorem ofDigits_filterMap (hn : Spells base cs n) : ofDigits base (cs.filterMap (digitIn? base)) = n := by
  obtain ⟨ds, hds, rfl⟩ := hn
  congr 1
  rw [digits?] at hds
  induction cs generalizing ds with
  | nil => exact Option.some.inj hds
  | cons a cs ih =>
    rw [List.mapM_cons] at hds
    obtain ⟨d, hd, hds⟩ := Option.bind_eq_some_iff.1 hds
    obtain ⟨rest, hrest, hds⟩ := Option.bind_eq_some_iff.1 hds
    rw [List.filterMap_cons, hd, ih rest hrest]
    exact Option.some.inj hds

end Spells

/-- Digits are ASCII digits or letters. -/
theorem toNat_of_isSome_digitIn? {base : Nat} {c : Char} (h : (digitIn? base c).isSome) :
    (48 ≤ c.toNat ∧ c.toNat ≤ 57) ∨ (97 ≤ c.toNat ∧ c.toNat ≤ 122) ∨ (65 ≤ c.toNat ∧ c.toNat ≤ 90) := by
  obtain ⟨d, hd⟩ := Option.isSome_iff_exists.1 h
  obtain ⟨hvalue, -⟩ := Option.filter_eq_some_iff.1 hd
  split at hvalue
  · rename_i hdigit
    exact Or.inl hdigit
  · split at hvalue
    · rename_i hsmall
      exact Or.inr (Or.inl hsmall)
    · split at hvalue
      · rename_i hcapital
        exact Or.inr (Or.inr hcapital)
      · exact absurd hvalue (by simp)

theorem digitIn?_hexDigit : ∀ d < 16, digitIn? 16 (hexDigit d) = some d := by decide

theorem digitIn?_digitChar : ∀ d < 10, digitIn? 10 d.digitChar = some d := by decide

theorem hexDigits_ne_nil {n : Nat} (hn : n ≠ 0) : hexDigits n ≠ [] := by
  rw [hexDigits, if_neg hn]
  simp

theorem spells_hexDigits {n : Nat} (hn : n ≠ 0) : Spells 16 (hexDigits n) n := by
  induction n using Nat.strongRecOn with
  | ind n ih =>
    have hlast := digitIn?_hexDigit (n % 16) (Nat.mod_lt n (by decide))
    rw [hexDigits, if_neg hn]
    by_cases hfirst : n / 16 = 0
    · have hsmall : n % 16 = n := by omega
      rw [hfirst, hexDigits, if_pos rfl, List.nil_append, hsmall]
      exact .singleton (hsmall ▸ hlast)
    · have hrest := (ih (n / 16) (by omega) hfirst).concat hlast
      rwa [Nat.div_add_mod'] at hrest

theorem spells_toDigits (n : Nat) : Spells 10 (Nat.toDigits 10 n) n := by
  induction n using Nat.strongRecOn with
  | ind n ih =>
    rw [Nat.toDigits_eq_if (by decide)]
    split
    · rename_i hsmall
      exact .singleton (digitIn?_digitChar n hsmall)
    · rename_i hlarge
      have hrest := (ih (n / 10) (by omega)).concat (digitIn?_digitChar (n % 10) (Nat.mod_lt n (by decide)))
      rwa [Nat.div_add_mod'] at hrest

/-- No zero stands in front, but for the number zero. -/
theorem head_toDigits {n : Nat} (hn : n ≠ 0) : ∃ c cs, Nat.toDigits 10 n = c :: cs ∧ c ≠ '0' := by
  induction n using Nat.strongRecOn with
  | ind n ih =>
    rw [Nat.toDigits_eq_if (by decide)]
    split
    · exact ⟨_, [], rfl, by simpa using hn⟩
    · obtain ⟨c, cs, hcs, hc⟩ := ih (n / 10) (by omega) (by omega)
      exact ⟨c, cs ++ _, by rw [hcs]; rfl, hc⟩

/-- What is written in hexadecimal digits of a word that is not zero. -/
theorem hex32?_hexDigits {n : UInt32} (hn : n ≠ 0) : hex32? (hexDigits n.toNat) = some n := by
  have hne : n.toNat ≠ 0 := fun h => hn (UInt32.toNat_inj.1 h)
  have hread := (spells_hexDigits hne).natural?_eq (hexDigits_ne_nil hne)
  have hplus : ∀ rest, hexDigits n.toNat ≠ '+' :: rest := by
    intro rest h
    have := (spells_hexDigits hne).isSome_digitIn? '+' (h ▸ List.mem_cons_self)
    exact absurd this (by decide)
  have hlt : n.toNat < 4294967296 := n.toNat_lt
  rw [hex32?, hread]
  · simp only [Option.filter_some, hlt, decide_true, if_true, Option.map_some, UInt32.ofNat_toNat]
  · exact hplus

end PresenceCaps
