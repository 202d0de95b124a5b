import PresenceCaps.Stamp.Calendar
import PresenceCaps.Text.Blank
import PresenceCaps.Text.Numeral

/-!
Points in time, in the Internet profile of ISO 8601. They are read with any offset, with blanks between the
parts and without leading zeros; they are written in UTC.
-/
namespace PresenceCaps
open Calendar

/-- Seconds since the first of March of year zero; a leap second goes with the second before it. -/
structure Timestamp where
  seconds : Int
  nanos : Nat
  leap : Bool
deriving DecidableEq, Repr

namespace Timestamp

def isDecimal (c : Char) : Bool := (digitIn? 10 c).isSome

/-- One up to so many digits, after blanks. -/
def number? (width : Nat) (cs : List Char) : Option (Nat × List Char) :=
  let cs := trimLeft cs
  let ds := (cs.take width).takeWhile isDecimal
  (natural? 10 ds).map fun n => (n, cs.drop ds.length)

/-- A mark, after blanks. -/
def mark? (c : Char) (cs : List Char) : Option (List Char) :=
  match trimLeft cs with
  | a :: rest => if a = c then some rest else none
  | [] => none

/-- A year has four digits at most, unless it has a sign. -/
def year? (cs : List Char) : Option (Int × List Char) :=
  let signed (sign : Int) (rest : List Char) :=
    let ds := rest.takeWhile isDecimal
    (natural? 10 ds).map fun n => (sign * (n : Int), rest.drop ds.length)
  match trimLeft cs with
  | '-' :: rest => signed (-1) rest
  | '+' :: rest => signed 1 rest
  | cs => (number? 4 cs).map fun (n, rest) => ((n : Int), rest)

def date? (cs : List Char) : Option (Date × List Char) := do
  let (y, cs) ← year? cs
  let (m, cs) ← (mark? '-' cs).bind (number? 2)
  let (d, cs) ← (mark? '-' cs).bind (number? 2)
  return (⟨y, m, d⟩, cs)

/-- Nanoseconds; digits after the ninth are passed over. -/
def fraction? : List Char → Option (Nat × List Char)
  | '.' :: cs =>
    let ds := cs.takeWhile isDecimal
    (natural? 10 (ds.take 9)).map fun n => (n * Nat.pow 10 (9 - ds.length), cs.drop ds.length)
  | cs => some (0, cs)

/-- Hours up to 99 and minutes, in seconds. -/
def offset? (cs : List Char) : Option (Int × List Char) :=
  let two (cs : List Char) : Option (Nat × List Char) :=
    if cs.length < 2 then none else (natural? 10 (cs.take 2)).map fun n => (n, cs.drop 2)
  let amount (sign : Int) (cs : List Char) : Option (Int × List Char) := do
    let (h, cs) ← two cs
    let (m, cs) ← two (cs.dropWhile fun c => c == ':' || isBlank c)
    guard (m < 60)
    return (sign * ((h : Int) * 3600 + (m : Int) * 60), cs)
  match trimLeft cs with
  | 'Z' :: cs => some (0, cs)
  | 'z' :: cs => some (0, cs)
  | '+' :: cs => amount 1 cs
  | '-' :: cs => amount (-1) cs
  | '−' :: cs => amount (-1) cs
  | cs => if (cs.take 3).map Char.toUpper = ['U', 'T', 'C'] then some (0, cs.drop 3) else none

def separator? : List Char → Option (List Char)
  | 'T' :: cs => some cs
  | 't' :: cs => some cs
  | ' ' :: cs => some cs
  | _ => none

/-- The years that can be told apart, in local time and in UTC. -/
def yearInRange (y : Int) : Bool := -262143 ≤ y && y ≤ 262142

def date (t : Timestamp) : Date := Date.ofDayNumber (t.seconds / 86400)

def parse? (s : String) : Option Timestamp := do
  let (d, cs) ← date? s.toList
  let cs ← separator? cs
  let (h, cs) ← number? 2 cs
  let (m, cs) ← (mark? ':' cs).bind (number? 2)
  let (sec, cs) ← (mark? ':' cs).bind (number? 2)
  let (nanos, cs) ← fraction? cs
  let (offset, cs) ← offset? cs
  guard ((trimLeft cs).isEmpty ∧ d.isValid ∧ yearInRange d.year ∧ h < 24 ∧ m < 60 ∧ sec ≤ 60)
  guard (-86400 < offset ∧ offset < 86400)
  let seconds := d.dayNumber * 86400 + (h : Int) * 3600 + (m : Int) * 60 + (min sec 59 : Nat) - offset
  let t : Timestamp := ⟨seconds, nanos, sec == 60⟩
  guard (yearInRange t.date.year)
  return t

def yearText (y : Int) : String :=
  if 0 ≤ y ∧ y ≤ 9999 then padded 4 y.toNat
  else (if y < 0 then "-" else "+") ++ padded 4 y.natAbs

/-- No fraction, or three, six or nine digits: as few as tell it exactly. -/
def fractionText (nanos : Nat) : String :=
  if nanos = 0 then ""
  else if nanos % 1000000 = 0 then "." ++ padded 3 (nanos / 1000000)
  else if nanos % 1000 = 0 then "." ++ padded 6 (nanos / 1000)
  else "." ++ padded 9 nanos

def display (t : Timestamp) : String :=
  let d := t.date
  let s := (t.seconds % 86400).toNat
  yearText d.year ++ "-" ++ padded 2 d.month ++ "-" ++ padded 2 d.day ++ "T" ++ padded 2 (s / 3600) ++ ":" ++
    padded 2 (s / 60 % 60) ++ ":" ++ padded 2 (s % 60 + if t.leap then 1 else 0) ++ fractionText t.nanos ++ "Z"

end Timestamp
end PresenceCaps
