import PresenceCaps.Error
import PresenceCaps.Text.Order
import PresenceCaps.Text.Split

/-!
Addresses of contacts and of their resources. The domain is held in lower case, so equal addresses are equal
values, and every bare address reads back from its display text.
-/
namespace PresenceCaps

/-- What can stand on either side of the at sign. -/
def IsName (cs : List Char) : Prop := cs ≠ [] ∧ '@' ∉ cs ∧ '/' ∉ cs

instance (cs : List Char) : Decidable (IsName cs) := by unfold IsName; infer_instance

theorem IsName.lower {cs : List Char} (h : IsName cs) : IsName (lower cs) :=
  ⟨by simpa [PresenceCaps.lower] using h.1, mt (mem_lower_iff (x := '@') (by decide) (by decide)).1 h.2.1,
    mt (mem_lower_iff (x := '/') (by decide) (by decide)).1 h.2.2⟩

structure BareAddress where
  localPart : Option String
  domain : String
  local_ok : ∀ s ∈ localPart, IsName s.toList
  domain_ok : IsName domain.toList
  domain_lower : lower domain.toList = domain.toList
deriving DecidableEq

namespace BareAddress

def display (a : BareAddress) : String :=
  match a.localPart with
  | none => a.domain
  | some l => l ++ "@" ++ a.domain

def ofDomain (cs : List Char) (h : IsName cs) : BareAddress where
  localPart := none
  domain := String.ofList (lower cs)
  local_ok := by simp
  domain_ok := by simpa using h.lower
  domain_lower := by simp [lower_lower]

def ofParts (l d : List Char) (hl : IsName l) (hd : IsName d) : BareAddress where
  localPart := some (String.ofList l)
  domain := String.ofList (lower d)
  local_ok := by simpa using hl
  domain_ok := by simpa using hd.lower
  domain_lower := by simp [lower_lower]

def ofChars? (cs : List Char) : Option BareAddress :=
  match splitFirst '@' cs with
  | none => if h : IsName cs then some (ofDomain cs h) else none
  | some (l, d) => if h : IsName l ∧ IsName d then some (ofParts l d h.1 h.2) else none

def parse (s : String) : Except CapsError BareAddress :=
  match ofChars? s.toList with
  | some a => .ok a
  | none => .error (.invalidAddress s)

theorem display_eq_ofList (a : BareAddress) :
    a.display = String.ofList (match a.localPart with
      | none => a.domain.toList
      | some l => l.toList ++ '@' :: a.domain.toList) := by
  apply String.toList_inj.1
  unfold display
  cases a.localPart <;> simp

theorem ofChars?_display (a : BareAddress) : ofChars? a.display.toList = some a := by
  obtain ⟨lp, d, hl, hd, hlow⟩ := a
  rw [display_eq_ofList, String.toList_ofList, ofChars?]
  cases lp with
  | none =>
    rw [splitFirst_eq_none_iff.2 hd.2.1]
    simp [hd, ofDomain, hlow]
  | some l =>
    have h := hl l rfl
    rw [splitFirst_eq_some_iff.2 ⟨rfl, h.2.1⟩]
    simp [h, hd, ofParts, hlow]

theorem parse_display (a : BareAddress) : parse a.display = .ok a := by
  rw [parse, ofChars?_display]

end BareAddress

structure FullAddress where
  bare : BareAddress
  resource : String
deriving DecidableEq

namespace FullAddress

/-- The resource is all that follows the first slash. -/
def parse (s : String) : Except CapsError FullAddress :=
  match splitFirst '/' s.toList with
  | none => (BareAddress.parse s).map fun a => ⟨a, ""⟩
  | some (b, r) => (BareAddress.parse (String.ofList b)).map fun a => ⟨a, String.ofList r⟩

def display (a : FullAddress) : String :=
  if a.resource = "" then a.bare.display else a.bare.display ++ "/" ++ a.resource

/-- Bare addresses first, by the text that is displayed; then resources. -/
def le (a b : FullAddress) : Bool :=
  textsLe [a.bare.display, a.resource] [b.bare.display, b.resource]

def sort (xs : List FullAddress) : List FullAddress := xs.mergeSort le

end FullAddress

def BareAddress.withResource (a : BareAddress) (resource : String) : FullAddress := ⟨a, resource⟩

structure ContactHandle where
  value : UInt32
deriving DecidableEq, Repr

def ContactHandle.display (h : ContactHandle) : String := toString h.value.toNat

end PresenceCaps
