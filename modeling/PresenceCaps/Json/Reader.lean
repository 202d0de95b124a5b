import PresenceCaps.Text.Numeral
import PresenceCaps.Datum.Basic

/-! Reading data from JSON texts. An integer is a number without fraction and exponent that fits a word. -/
namespace PresenceCaps.Json

/-- How deep arrays and objects may be nested. -/
def depthLimit : Nat := 127

def isSpace (c : Char) : Bool := c == ' ' || c == '\n' || c == '\t' || c == '\r'

def skipSpace (cs : List Char) : List Char := cs.dropWhile isSpace

def isDecimal (c : Char) : Bool := (digitIn? 10 c).isSome

/-- Digits without zeros in front. -/
def wholePart? (cs : List Char) : Option (List Char × List Char) :=
  match cs with
  | '0' :: rest => some (['0'], rest)
  | _ =>
    let ds := cs.takeWhile isDecimal
    if ds.isEmpty then none else some (ds, cs.drop ds.length)

/-- Digits after a mark, together with it; without the mark, nothing. -/
def marked? (isMark : Char → Bool) (signed : Bool) : List Char → Option (List Char × List Char)
  | [] => some ([], [])
  | c :: cs =>
    if isMark c then
      let sign := (cs.take 1).filter fun x => signed && (x == '+' || x == '-')
      let rest := cs.drop sign.length
      let ds := rest.takeWhile isDecimal
      if ds.isEmpty then none else some (c :: (sign ++ ds), rest.drop ds.length)
    else some ([], c :: cs)

/-- Zero with a sign is no integer, nor is a number beyond 64 bits. -/
def ofWhole (negative : Bool) (ds : List Char) : Datum :=
  let n := ofDigits 10 (ds.filterMap (digitIn? 10))
  let literal := String.ofList (if negative then '-' :: ds else ds)
  if negative then
    if n = 0 ∨ int64Min > -(n : Int) then .real literal else .int (-(n : Int))
  else if n < 1 <<< 64 then .int n else .real literal

def number? (cs : List Char) : Option (Datum × List Char) := do
  let (negative, cs) := match cs with
    | '-' :: rest => (true, rest)
    | _ => (false, cs)
  let (whole, cs) ← wholePart? cs
  let (fraction, cs) ← marked? (· == '.') false cs
  let (exponent, cs) ← marked? (fun c => c == 'e' || c == 'E') true cs
  if fraction.isEmpty ∧ exponent.isEmpty then return (ofWhole negative whole, cs)
  else
    let digits := whole ++ fraction ++ exponent
    return (.real (String.ofList (if negative then '-' :: digits else digits)), cs)

def hex4? : List Char → Option (Nat × List Char)
  | a :: b :: c :: d :: cs => (natural? 16 [a, b, c, d]).map fun n => (n, cs)
  | _ => none

/-- One code point; the second of a pair has to follow the first. -/
def codePoint? (cs : List Char) : Option (Char × List Char) := do
  let (hi, cs) ← hex4? cs
  if 0xD800 ≤ hi ∧ hi < 0xDC00 then
    match cs with
    | '\\' :: 'u' :: cs =>
      let (lo, cs) ← hex4? cs
      if 0xDC00 ≤ lo ∧ lo < 0xE000 then
        return (Char.ofNat (0x10000 + (hi - 0xD800) * 0x400 + (lo - 0xDC00)), cs)
      else none
    | _ => none
  else if 0xDC00 ≤ hi ∧ hi < 0xE000 then none
  else return (Char.ofNat hi, cs)

def escape? : List Char → Option (Char × List Char)
  | '"' :: cs => some ('"', cs)
  | '\\' :: cs => some ('\\', cs)
  | '/' :: cs => some ('/', cs)
  | 'b' :: cs => some ('\x08', cs)
  | 'f' :: cs => some ('\x0c', cs)
  | 'n' :: cs => some ('\n', cs)
  | 'r' :: cs => some ('\r', cs)
  | 't' :: cs => some ('\t', cs)
  | 'u' :: cs => codePoint? cs
  | _ => none

/-- The text up to the closing quote as it stands, and what follows the quote. -/
def untilQuote? (taken : List Char) : List Char → Option (List Char × List Char)
  | [] => none
  | '"' :: cs => some (taken.reverse, cs)
  | '\\' :: c :: cs => untilQuote? (c :: '\\' :: taken) cs
  | c :: cs => untilQuote? (c :: taken) cs

/-- The text with its escapes resolved; control characters are refused. -/
def unescape? (taken : List Char) : Nat → List Char → Option (List Char)
  | _, [] => some taken.reverse
  | 0, _ => none
  | fuel + 1, '\\' :: cs => (escape? cs).bind fun (c, cs) => unescape? (c :: taken) fuel cs
  | fuel + 1, c :: cs => if c.toNat < 0x20 then none else unescape? (c :: taken) fuel cs

/-- The rest of a string, after its opening quote. -/
def string? (cs : List Char) : Option (String × List Char) := do
  let (raw, cs) ← untilQuote? [] cs
  let text ← unescape? [] raw.length raw
  return (String.ofList text, cs)

/-- Items with commas between them, up to the closing mark. -/
def items? {α : Type} (close : Char) (item : List Char → Option (α × List Char)) (taken : List α) :
    Nat → List Char → Option (List α × List Char)
  | 0, _ => none
  | fuel + 1, cs => do
    let (a, cs) ← item (skipSpace cs)
    match skipSpace cs with
    | c :: cs =>
      if c = ',' then items? close item (a :: taken) fuel cs
      else if c = close then return ((a :: taken).reverse, cs)
      else none
    | [] => none

/-- What stands between brackets, after the opening one. -/
def enclosed? {α : Type} (close : Char) (item : List Char → Option (α × List Char)) (cs : List Char) :
    Option (List α × List Char) :=
  match skipSpace cs with
  | [] => none
  | c :: rest => if c = close then some ([], rest) else items? close item [] (cs.length + 1) (c :: rest)

def member? (value : List Char → Option (Datum × List Char)) :
    List Char → Option ((String × Datum) × List Char)
  | '"' :: cs => do
    let (k, cs) ← string? cs
    match skipSpace cs with
    | ':' :: cs =>
      let (t, cs) ← value (skipSpace cs)
      return ((k, t), cs)
    | _ => none
  | _ => none

/-- Of entries with one key the last counts. -/
def ofEntries (es : List (String × Datum)) : Datum :=
  .table (es.foldl (fun m e => Assoc.set m e.1 e.2) [])

def word? (cs : List Char) : Option (Datum × List Char) :=
  match cs with
  | 'n' :: 'u' :: 'l' :: 'l' :: cs => some (.null, cs)
  | 't' :: 'r' :: 'u' :: 'e' :: cs => some (.bool true, cs)
  | 'f' :: 'a' :: 'l' :: 's' :: 'e' :: cs => some (.bool false, cs)
  | '"' :: cs => (string? cs).map fun (s, cs) => (.text s, cs)
  | _ => number? cs

/-- A value with so many levels of nesting left. -/
def value? : Nat → List Char → Option (Datum × List Char)
  | depth, '[' :: cs =>
    match depth with
    | 0 => none
    | depth + 1 => (enclosed? ']' (value? depth) cs).map fun (ts, cs) => (.list ts, cs)
  | depth, '\x7b' :: cs =>
    match depth with
    | 0 => none
    | depth + 1 => (enclosed? '\x7d' (member? (value? depth)) cs).map fun (es, cs) => (ofEntries es, cs)
  | _, cs => word? cs

def parse? (s : String) : Option Datum :=
  match value? depthLimit (skipSpace s.toList) with
  | some (t, rest) => if (skipSpace rest).isEmpty then some t else none
  | none => none

end PresenceCaps.Json
