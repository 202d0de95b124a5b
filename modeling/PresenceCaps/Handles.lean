import PresenceCaps.Address
import PresenceCaps.Assoc

/-! Handles of contacts: numbered from one in the order in which the contacts were first named. -/
namespace PresenceCaps

/-- What is known about handles from either side, and the number that was given out last. -/
structure Handles where
  byContact : Assoc BareAddress ContactHandle
  byHandle : Assoc ContactHandle BareAddress
  last : UInt32
deriving DecidableEq

namespace Handles

def empty : Handles := ⟨[], [], 0⟩

def size (h : Handles) : Nat := h.byHandle.length

def handle? (h : Handles) (a : BareAddress) : Option ContactHandle := h.byContact.get? a

def contact? (h : Handles) (x : ContactHandle) : Option BareAddress := h.byHandle.get? x

def next? (h : Handles) : Option UInt32 := if h.last = 4294967295 then none else some (h.last + 1)

/-- Moves the counter to a number and tells both sides about it. -/
def give (h : Handles) (n : UInt32) (a : BareAddress) : Handles where
  byContact := h.byContact.set a ⟨n⟩
  byHandle := h.byHandle.set ⟨n⟩ a
  last := n

/-- The largest number is given out, but none is given out twice. -/
def ensure (h : Handles) (a : BareAddress) : Except ServiceError (Handles × ContactHandle) :=
  match h.handle? a with
  | some x => .ok (h, x)
  | none =>
    match h.next? with
    | some n => .ok (h.give n a, ⟨n⟩)
    | none => .error .handlesExhausted

theorem handle?_give (h : Handles) (n : UInt32) (a b : BareAddress) :
    (h.give n a).handle? b = if a = b then some ⟨n⟩ else h.handle? b :=
  Assoc.get?_set ..

theorem contact?_give (h : Handles) (n : UInt32) (a : BareAddress) (x : ContactHandle) :
    (h.give n a).contact? x = if ⟨n⟩ = x then some a else h.contact? x :=
  Assoc.get?_set ..

/-- The next number is one more than the last, and there is none after the largest. -/
theorem next?_eq_some_iff {h : Handles} {n : UInt32} : h.next? = some n ↔ n.toNat = h.last.toNat + 1 := by
  rw [next?]
  split
  · rename_i hmax
    refine iff_of_false (by simp) fun hn => ?_
    rw [hmax] at hn
    exact absurd n.toNat_lt (Nat.not_lt_of_le (Nat.le_of_eq hn.symm))
  · rename_i hne
    have hlt : h.last.toNat < 4294967295 :=
      Nat.lt_of_le_of_ne (Nat.le_of_lt_succ h.last.toNat_lt) fun he => hne (UInt32.toNat_inj.1 he)
    have hnext : (h.last + 1).toNat = h.last.toNat + 1 := by
      rw [UInt32.toNat_add]
      exact Nat.mod_eq_of_lt (Nat.succ_lt_succ hlt)
    rw [Option.some_inj, ← UInt32.toNat_inj, hnext, eq_comm]

end Handles
end PresenceCaps
