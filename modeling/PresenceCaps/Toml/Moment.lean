import PresenceCaps.Stamp.Calendar
import PresenceCaps.Text.Numeral

/-! Dates and times of TOML, read into the one text that they are written with. -/
namespace PresenceCaps.Toml

/-- Exactly `n` decimal digits. -/
def fixed? (n : Nat) (cs : List Char) : Option (Nat × List Char) :=
  let ds := cs.take n
  if ds.length = n then (natural? 10 ds).map fun v => (v, cs.drop n) else none

def within (lo hi : Nat) (r : Option (Nat × List Char)) : Option (Nat × List Char) :=
  r.filter fun v => lo ≤ v.1 && v.1 ≤ hi

def char? (c : Char) : List Char → Option (List Char)
  | a :: cs => if a = c then some cs else none
  | [] => none

def date? (cs : List Char) : Option (String × List Char) := do
  let (y, cs) ← fixed? 4 cs
  let cs ← char? '-' cs
  let (m, cs) ← within 1 12 (fixed? 2 cs)
  let cs ← char? '-' cs
  let (d, cs) ← within 1 (Calendar.daysInMonth y m) (fixed? 2 cs)
  return (padded 4 y ++ "-" ++ padded 2 m ++ "-" ++ padded 2 d, cs)

/-- Digits after the ninth are dropped, and so are zeros at the end. -/
def secondFraction (cs : List Char) : String × List Char :=
  match cs with
  | '.' :: rest =>
    let ds := rest.takeWhile Char.isDigit
    if ds.isEmpty then ("", cs)
    else
      let kept := ((ds.take 9).reverse.dropWhile (· == '0')).reverse
      (if kept.isEmpty then "" else String.ofList ('.' :: kept), rest.drop ds.length)
  | _ => ("", cs)

/-- The time of day, up to the given hour. -/
def timeUpTo? (lastHour : Nat) (cs : List Char) : Option (String × List Char) := do
  let (h, cs) ← within 0 lastHour (fixed? 2 cs)
  let cs ← char? ':' cs
  let (m, cs) ← within 0 59 (fixed? 2 cs)
  let cs ← char? ':' cs
  let (s, cs) ← within 0 60 (fixed? 2 cs)
  let (f, cs) := secondFraction cs
  return (padded 2 h ++ ":" ++ padded 2 m ++ ":" ++ padded 2 s ++ f, cs)

def time? (cs : List Char) : Option (String × List Char) := timeUpTo? 23 cs

def offsetText (negative : Bool) (minutes : Nat) : String :=
  (if negative && minutes != 0 then "-" else "+") ++ padded 2 (minutes / 60) ++ ":" ++ padded 2 (minutes % 60)

def offset? : List Char → Option (String × List Char)
  | 'Z' :: cs => some ("Z", cs)
  | 'z' :: cs => some ("Z", cs)
  | c :: cs => do
    guard (c = '+' ∨ c = '-')
    let (h, cs) ← within 0 23 (fixed? 2 cs)
    let cs ← char? ':' cs
    let (m, cs) ← within 0 59 (fixed? 2 cs)
    return (offsetText (c == '-') (h * 60 + m), cs)
  | [] => none

def timeAfterDate? : List Char → Option (String × List Char)
  | c :: cs => do
    guard (c = 'T' ∨ c = 't' ∨ c = ' ')
    let (t, cs) ← time? cs
    match offset? cs with
    | some (o, cs) => return ("T" ++ t ++ o, cs)
    | none => return ("T" ++ t, cs)
  | [] => none

def moment? (cs : List Char) : Option (String × List Char) :=
  match date? cs with
  | some (d, rest) =>
    match timeAfterDate? rest with
    | some (t, rest) => some (d ++ t, rest)
    | none => some (d, rest)
  | none => time? cs

/-! Moments that are told by a text of their own -/

/-- An offset in a text is not bound to the clock: it may be a whole day, and its minutes may be an hour or
more. -/
def offsetOfText? : List Char → Option String
  | [] => some ""
  | ['Z'] => some "Z"
  | ['z'] => some "Z"
  | c :: cs => do
    guard (c = '+' ∨ c = '-')
    let (h, cs) ← fixed? 2 cs
    let cs ← char? ':' cs
    let (m, cs) ← fixed? 2 cs
    guard (cs.isEmpty ∧ h * 60 + m ≤ 1440)
    return offsetText (c == '-') (h * 60 + m)

/-- The whole of a text; the day may end at hour 24, and only a time after a date has an offset. -/
def momentOfText? (cs : List Char) : Option String :=
  match date? cs with
  | some (d, []) => some d
  | some (d, c :: cs) => do
    guard (c = 'T' ∨ c = 't' ∨ c = ' ')
    let (t, cs) ← timeUpTo? 24 cs
    return d ++ "T" ++ t ++ (← offsetOfText? cs)
  | none =>
    match timeUpTo? 24 cs with
    | some (t, []) => some t
    | _ => none

end PresenceCaps.Toml
