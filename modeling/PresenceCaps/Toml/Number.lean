import PresenceCaps.Toml.Lexical
import PresenceCaps.Datum.Basic

/-! Integers and floats of TOML. An integer has to fit into 64 bits, a float must not exceed all doubles. -/
namespace PresenceCaps.Toml

def sign : List Char → List Char × List Char
  | '-' :: cs => (['-'], cs)
  | '+' :: cs => (['+'], cs)
  | cs => ([], cs)

/-- A decimal integer without zeros in front. -/
def decimal? : List Char → Option (List Char × List Char)
  | '0' :: cs => some (['0'], cs)
  | cs => digitRun? 10 cs

def integer64Datum? (base : Nat) (negative : Bool) (ds : List Char) : Option Datum :=
  (natural? base ds).bind fun n =>
    let i : Int := if negative then -(n : Int) else n
    if int64Min ≤ i ∧ i ≤ int64Max then some (.int i) else none

def based? (base : Nat) (cs : List Char) : Option (Datum × List Char) :=
  (digitRun? base cs).bind fun (ds, rest) => (integer64Datum? base false ds).map fun t => (t, rest)

def fraction? : List Char → Option (List Char × List Char)
  | '.' :: cs => digitRun? 10 cs
  | _ => none

def exponent? : List Char → Option (List Char × List Char)
  | c :: cs =>
    if c = 'e' ∨ c = 'E' then
      let (s, cs) := sign cs
      (digitRun? 10 cs).map fun (ds, rest) => (s ++ ds, rest)
    else none
  | [] => none

/-- From here on a number rounds to infinity. -/
def doubleLimit : Nat := (1 <<< 1024) - (1 <<< 970)

/-- Whether `n * 10 ^ e` rounds to infinity; far from the limit the number of digits decides. -/
def exceedsDoubles (n : Nat) (e : Int) : Bool :=
  let size := (toString n).length + e
  if n = 0 ∨ size < 300 then false
  else if 320 < size then true
  else if 0 ≤ e then doubleLimit ≤ n * Nat.pow 10 e.toNat
  else doubleLimit * Nat.pow 10 (-e).toNat ≤ n

def floatDatum? (s whole frac exp : List Char) : Option Datum :=
  let literal := String.ofList (s ++ whole ++ (if frac.isEmpty then [] else '.' :: frac) ++
    (if exp.isEmpty then [] else 'e' :: exp))
  (natural? 10 (whole ++ frac)).bind fun n =>
    let e := (PresenceCaps.integer? exp).getD 0 - frac.length
    if s ≠ ['-'] ∧ exceedsDoubles n e then none else some (.real literal)

/-- A number that starts with an optional sign and decimal digits. -/
def decimalNumber? (cs : List Char) : Option (Datum × List Char) :=
  let (s, cs) := sign cs
  (decimal? cs).bind fun (whole, rest) =>
    match fraction? rest with
    | some (frac, rest) =>
      match exponent? rest with
      | some (exp, rest) => (floatDatum? s whole frac exp).map fun t => (t, rest)
      | none => (floatDatum? s whole frac []).map fun t => (t, rest)
    | none =>
      match exponent? rest with
      | some (exp, rest) => (floatDatum? s whole [] exp).map fun t => (t, rest)
      | none => (integer64Datum? 10 (s == ['-']) whole).map fun t => (t, rest)

def special? (cs : List Char) : Option (Datum × List Char) :=
  let (s, cs) := sign cs
  match cs with
  | 'i' :: 'n' :: 'f' :: rest => some (.real (String.ofList (s ++ ['i', 'n', 'f'])), rest)
  | 'n' :: 'a' :: 'n' :: rest => some (.real (String.ofList (s ++ ['n', 'a', 'n'])), rest)
  | _ => none

def number? : List Char → Option (Datum × List Char)
  | '0' :: 'x' :: cs => based? 16 cs
  | '0' :: 'o' :: cs => based? 8 cs
  | '0' :: 'b' :: cs => based? 2 cs
  | cs => (special? cs).or (decimalNumber? cs)

end PresenceCaps.Toml
