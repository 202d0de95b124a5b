import PresenceCaps.Text.Split

/-! Numerals: decimal integers with a sign, hexadecimal numbers, padded digits. -/
namespace PresenceCaps

def digitIn? (base : Nat) (c : Char) : Option Nat :=
  let n := c.toNat
  let d :=
    if '0'.toNat ≤ n ∧ n ≤ '9'.toNat then some (n - '0'.toNat)
    else if 'a'.toNat ≤ n ∧ n ≤ 'z'.toNat then some (n - 'a'.toNat + 10)
    else if 'A'.toNat ≤ n ∧ n ≤ 'Z'.toNat then some (n - 'A'.toNat + 10)
    else none
  d.filter (· < base)

def digits? (base : Nat) (cs : List Char) : Option (List Nat) := cs.mapM (digitIn? base)

def ofDigits (base : Nat) (ds : List Nat) : Nat := ds.foldl (fun n d => n * base + d) 0

/-- At least one digit and nothing else. -/
def natural? (base : Nat) (cs : List Char) : Option Nat :=
  if cs.isEmpty then none else (digits? base cs).map (ofDigits base)

/-- A decimal integer: one sign at most, then digits. -/
def integer? : List Char → Option Int
  | '-' :: cs => (natural? 10 cs).map fun n => -(n : Int)
  | '+' :: cs => (natural? 10 cs).map Int.ofNat
  | cs => (natural? 10 cs).map Int.ofNat

def int64Min : Int := -9223372036854775808

def int64Max : Int := 9223372036854775807

def integer64? (cs : List Char) : Option Int :=
  (integer? cs).filter fun n => int64Min ≤ n && n ≤ int64Max

/-- The character of a code point in hexadecimal digits. -/
def charOfHex? (ds : List Char) : Option Char :=
  (natural? 16 ds).bind fun n =>
    if h : n.isValidChar then some (Char.ofNatAux n h) else none

/-- A hexadecimal number below 2^32; a plus sign may stand before it. -/
def hex32? (cs : List Char) : Option UInt32 :=
  let ds := match cs with
    | '+' :: rest => rest
    | _ => cs
  ((natural? 16 ds).filter (· < 4294967296)).map UInt32.ofNat

/-- Digits with a point among them, and after an `e` an exponent. -/
def isUnsignedReal (cs : List Char) : Bool :=
  let whole := cs.takeWhile Char.isDigit
  let rest := cs.drop whole.length
  let fraction := match rest with
    | '.' :: ds => ds.takeWhile Char.isDigit
    | _ => []
  let exponent := match rest with
    | '.' :: ds => ds.drop fraction.length
    | _ => rest
  !(whole.isEmpty && fraction.isEmpty) && match exponent with
    | [] => true
    | 'e' :: ds => (integer? ds).isSome
    | 'E' :: ds => (integer? ds).isSome
    | _ => false

/-- A real number with one sign at most; also an infinity, or what is not a number. -/
def isReal (cs : List Char) : Bool :=
  let unsigned := match cs with
    | '+' :: ds => ds
    | '-' :: ds => ds
    | _ => cs
  isUnsignedReal unsigned || ["inf", "infinity", "nan"].any fun n => n.toList == lower unsigned

def hexDigit (n : Nat) : Char :=
  if n < 10 then Char.ofNat ('0'.toNat + n) else Char.ofNat ('a'.toNat + (n - 10))

/-- The lower-case digits of a positive number; none for zero. -/
def hexDigits (n : Nat) : List Char :=
  if n = 0 then [] else hexDigits (n / 16) ++ [hexDigit (n % 16)]
termination_by n

/-- Decimal digits with zeros in front up to the width. -/
def padded (width n : Nat) : String :=
  let s := toString n
  String.ofList (List.replicate (width - s.length) '0') ++ s

end PresenceCaps
