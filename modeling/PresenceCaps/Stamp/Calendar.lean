/-! The Gregorian calendar, for all years before and after its own beginning. -/
namespace PresenceCaps.Calendar

def isLeapYear (y : Int) : Bool := y % 4 == 0 && (y % 100 != 0 || y % 400 == 0)

def daysInMonth (y : Int) (m : Nat) : Nat :=
  if m = 2 then (if isLeapYear y then 29 else 28)
  else if m = 4 ∨ m = 6 ∨ m = 9 ∨ m = 11 then 30 else 31

structure Date where
  year : Int
  month : Nat
  day : Nat
deriving DecidableEq, Repr

def Date.isValid (d : Date) : Bool :=
  1 ≤ d.month && d.month ≤ 12 && 1 ≤ d.day && d.day ≤ daysInMonth d.year d.month

/-- Days before March 1 of a year that begins in March, counted from March 1 of year zero. -/
def daysBeforeYear (y : Int) : Int := 365 * y + y / 4 - y / 100 + y / 400

/-- Days before a month of a year that begins in March; March is month zero. -/
def daysBeforeMonth (m : Nat) : Nat := (153 * m + 2) / 5

/-- Days since March 1 of year zero. -/
def Date.dayNumber (d : Date) : Int :=
  let early := d.month ≤ 2
  let y := if early then d.year - 1 else d.year
  let m := if early then d.month + 9 else d.month - 3
  daysBeforeYear y + daysBeforeMonth m + d.day - 1

/-- The date with a day number: the year is the last one that has begun by then. -/
def Date.ofDayNumber (n : Int) : Date :=
  let guess := 400 * n / 146097
  let y := if daysBeforeYear (guess + 1) ≤ n then guess + 1 else if n < daysBeforeYear guess then guess - 1 else guess
  let r := (n - daysBeforeYear y).toNat
  let m := (5 * r + 2) / 153
  let day := r - daysBeforeMonth m + 1
  if m < 10 then ⟨y, m + 3, day⟩ else ⟨y + 1, m - 9, day⟩

end PresenceCaps.Calendar
