import PresenceCaps.Log.Pattern.Basic
import PresenceCaps.Text.Alphabet
import PresenceCaps.Text.Blank
import PresenceCaps.Text.Numeral

/-!
Reading regular expressions. They stand in braces, so no closing brace is ever read, and what needs one, as
repetition with counts does, is never complete.
-/
namespace PresenceCaps.Pattern

/-- In verbose mode blanks and comments are passed over. -/
def skip (verbose : Bool) : List Char → List Char
  | [] => []
  | c :: cs =>
    if !verbose then c :: cs
    else if isBlank c then skip verbose cs
    else if c = '#' then skip verbose (cs.dropWhile (· != '\n'))
    else c :: cs
termination_by cs => cs.length
decreasing_by
  · exact Nat.lt_succ_self cs.length
  · exact Nat.lt_succ_of_le (List.dropWhile_sublist (· != '\n')).length_le

/-- The next character but one, as a class sees it. -/
def afterNext (verbose : Bool) (cs : List Char) : Option Char :=
  if !verbose then cs.head?
  else match cs.dropWhile isBlank with
    | '#' :: rest => (rest.dropWhile isBlank).head?
    | rest => rest.head?

def isPunctuation (c : Char) : Bool := c.toNat < 128 && !c.isAlphanum && c != '<' && c != '>'

def hexDigits? (verbose : Bool) (taken : List Char) : Nat → List Char → Option (List Char × List Char)
  | 0, cs => some (taken.reverse, cs)
  | n + 1, cs =>
    match skip verbose cs with
    | c :: cs => if (digitIn? 16 c).isSome then hexDigits? verbose (c :: taken) n cs else none
    | [] => none

def hexLiteral? (verbose : Bool) (size : Nat) (cs : List Char) : Option (Pattern × List Char) := do
  let (ds, cs) ← hexDigits? verbose [] size cs
  let c ← charOfHex? ds
  return (.literal ⟨c, size == 2⟩, cs)

def escapes : Assoc Char Pattern :=
  [('d', .family false), ('s', .family false), ('w', .family false),
    ('D', .family true), ('S', .family true), ('W', .family true),
    ('a', .literal ⟨'\x07', false⟩), ('f', .literal ⟨'\x0c', false⟩), ('t', .literal ⟨'\t', false⟩),
    ('n', .literal ⟨'\n', false⟩), ('r', .literal ⟨'\r', false⟩), ('v', .literal ⟨'\x0b', false⟩),
    ('A', .assertion .textStart), ('z', .assertion .textEnd), ('b', .assertion .wordEdge),
    ('B', .assertion .noWordEdge), ('<', .assertion .wordStart), ('>', .assertion .wordEnd)]

/-- What follows a backslash. -/
def escape? (verbose : Bool) : List Char → Option (Pattern × List Char)
  | 'x' :: cs => hexLiteral? verbose 2 cs
  | 'u' :: cs => hexLiteral? verbose 4 cs
  | 'U' :: cs => hexLiteral? verbose 8 cs
  | c :: cs =>
    if isPunctuation c then some (.literal ⟨c, false⟩, cs) else (escapes.get? c).map fun p => (p, cs)
  | [] => none

/-! Classes in brackets -/

/-- A class that is still open: the part before the last operator, and the items after it, the last one first. -/
structure Bracket where
  negated : Bool
  left : Option Members
  items : List Members

namespace Bracket

def members (b : Bracket) : Members :=
  let right := Members.ofList b.items.reverse
  match b.left with
  | none => right
  | some left => .combined left right

def add (b : Bracket) (x : Members) : Bracket := { b with items := x :: b.items }

def combine (b : Bracket) : Bracket := { b with left := some b.members, items := [] }

/-- Dashes, or else a closing bracket, that stand first are literals. -/
def openWith (verbose : Bool) (b : Bracket) : List Char → Bracket × List Char
  | '-' :: cs => openDashes b ('-' :: cs) cs.length.succ
  | ']' :: cs => (b.add (.literal ⟨']', false⟩), cs)
  | cs => (b, cs)
where
  openDashes (b : Bracket) : List Char → Nat → Bracket × List Char
    | '-' :: cs, n + 1 => openDashes (b.add (.literal ⟨'-', false⟩)) (skip verbose cs) n
    | cs, _ => (b, cs)

/-- What follows the opening bracket of a class. -/
def ofStart (verbose : Bool) (cs : List Char) : Bracket × List Char :=
  match skip verbose cs with
  | '^' :: cs => openWith verbose ⟨true, none, []⟩ (skip verbose cs)
  | cs => openWith verbose ⟨false, none, []⟩ cs

end Bracket

def asciiClassNames : List String :=
  ["alnum", "alpha", "ascii", "blank", "cntrl", "digit", "graph", "lower", "print", "punct", "space", "upper",
    "word", "xdigit"]

/-- A named class, after its opening bracket. -/
def namedClass? : List Char → Option (Members × List Char)
  | ':' :: cs =>
    let (negated, cs) := match cs with
      | '^' :: rest => (true, rest)
      | _ => (false, cs)
    match splitFirst ':' cs with
    | some (name, ']' :: rest) =>
      if asciiClassNames.contains (String.ofList name) then some (.named negated, rest) else none
    | _ => none
  | _ => none

def classAtom? (verbose : Bool) : List Char → Option (Pattern × List Char)
  | '\\' :: cs => escape? verbose cs
  | c :: cs => some (.literal ⟨c, false⟩, cs)
  | [] => none

def range? : Pattern → Pattern → Option Members
  | .literal a, .literal b => if a.char ≤ b.char then some (.range a b) else none
  | _, _ => none

def member? : Pattern → Option Members
  | .literal l => some (.literal l)
  | .family negated => some (.family negated)
  | _ => none

/-- A dash between two characters makes a range, but not at the end of a class or before another dash. -/
def classItem? (verbose : Bool) (cs : List Char) : Option (Members × List Char) := do
  let (first, cs) ← classAtom? verbose cs
  match skip verbose cs with
  | '-' :: rest =>
    let next := afterNext verbose rest
    if next = some ']' ∨ next = some '-' then return (← member? first, '-' :: rest)
    else
      let (last, rest) ← classAtom? verbose (skip verbose rest)
      return (← range? first last, rest)
  | cs => return (← member? first, cs)

def isOperator (a b : Char) : Bool := a == b && (a == '&' || a == '-' || a == '~')

/-- The rest of a class, with the classes around it. -/
def bracketed? (verbose : Bool) (b : Bracket) (outer : List Bracket) :
    Nat → List Char → Option (Pattern × List Char)
  | 0, _ => none
  | fuel + 1, cs =>
    match skip verbose cs with
    | [] => none
    | '[' :: cs =>
      match namedClass? cs with
      | some (x, cs) => bracketed? verbose (b.add x) outer fuel cs
      | none =>
        let (inner, cs) := Bracket.ofStart verbose cs
        bracketed? verbose inner (b :: outer) fuel cs
    | ']' :: cs =>
      match outer with
      | [] => some (.bracketed b.negated b.members, cs)
      | o :: outer => bracketed? verbose (o.add (.nested b.negated b.members)) outer fuel cs
    | c :: d :: cs =>
      if isOperator c d then bracketed? verbose b.combine outer fuel cs
      else (classItem? verbose (c :: d :: cs)).bind fun (x, cs) => bracketed? verbose (b.add x) outer fuel cs
    | [_] => none

/-! Groups -/

/-- Switches up to the colon or bracket that ends them; those after a dash are turned off. -/
def switches? (taken : Switches) (negated : Bool) : List Char → Option (Switches × Char × List Char)
  | [] => none
  | c :: cs =>
    if c = ':' ∨ c = ')' then some (taken.reverse, c, cs)
    else if c = '-' then
      if negated ∨ (cs.head?.all fun d => d == ':' || d == ')') then none else switches? taken true cs
    else (Switch.ofChar? c).bind fun s =>
      if taken.contains s then none else switches? ((s, !negated) :: taken) negated cs

/-- The name of a group up to the angle bracket; it begins with a letter or an underscore. -/
def groupName? (cs : List Char) : Option (List Char × List Char) := do
  let (name, cs) ← splitFirst '>' cs
  let c ← name.head?
  guard (c = '_' ∨ isAlphabetic c)
  guard (name.all fun c => ['_', '.', '[', ']'].contains c || isAlphanumeric c)
  return (name, cs)

/-- A group that is still open: what stood before it, and the switches it begins with. -/
structure Enclosing where
  verbose : Bool
  items : List Pattern
  branches : List Pattern
  switches : Switches

/-- The open group: the items of its last branch and the branches before, the last ones first. -/
structure Reading where
  verbose : Bool
  names : List (List Char)
  items : List Pattern
  branches : List Pattern
  outer : List Enclosing

namespace Reading

def start : Reading := ⟨false, [], [], [], []⟩

def add (r : Reading) (p : Pattern) : Reading := { r with items := p :: r.items }

def branch (r : Reading) : Pattern := ofSequence r.items.reverse

def whole (r : Reading) : Pattern := ofChoice (r.branch :: r.branches).reverse

def nextBranch (r : Reading) : Reading := { r with items := [], branches := r.branch :: r.branches }

/-- There must be something to repeat. -/
def repeatLast? (r : Reading) : Option Reading :=
  match r.items with
  | [] | .switches _ :: _ => none
  | p :: items => some { r with items := .repeated p :: items }

def enter (r : Reading) (s : Switches) : Reading :=
  { r with
    verbose := (s.get? .verbose).getD r.verbose
    items := []
    branches := []
    outer := ⟨r.verbose, r.items, r.branches, s⟩ :: r.outer }

def leave? (r : Reading) : Option Reading :=
  match r.outer with
  | [] => none
  | o :: outer =>
    some { r with verbose := o.verbose, items := .group o.switches r.whole :: o.items, branches := o.branches, outer }

/-- No two groups have the same name. -/
def enterNamed? (r : Reading) (cs : List Char) : Option (Reading × List Char) := do
  let (name, cs) ← groupName? cs
  guard (!r.names.contains name)
  return ({ r with names := name :: r.names }.enter [], cs)

/-- What follows the opening parenthesis and a question mark. -/
def special? (r : Reading) : List Char → Option (Reading × List Char)
  | 'P' :: '<' :: cs => r.enterNamed? cs
  | '<' :: cs => r.enterNamed? cs
  | cs => do
    let (s, last, cs) ← switches? [] false cs
    if last = ':' then return (r.enter s, cs)
    else
      guard (!s.isEmpty)
      return ({ r with verbose := (s.get? .verbose).getD r.verbose }.add (.switches s), cs)

def step? (r : Reading) : List Char → Option (Reading × List Char)
  | [] => none
  | '(' :: cs =>
    match skip r.verbose cs with
    | '?' :: cs => r.special? cs
    | cs => some (r.enter [], cs)
  | ')' :: cs => r.leave?.map (·, cs)
  | '|' :: cs => some (r.nextBranch, cs)
  | '[' :: cs =>
    let (b, cs) := Bracket.ofStart r.verbose cs
    (bracketed? r.verbose b [] cs.length.succ cs).map fun (p, cs) => (r.add p, cs)
  | '\x7b' :: _ => none
  | '\\' :: cs => (escape? r.verbose cs).map fun (p, cs) => (r.add p, cs)
  | '.' :: cs => some (r.add .anyChar, cs)
  | '^' :: cs => some (r.add (.assertion .lineStart), cs)
  | '$' :: cs => some (r.add (.assertion .lineEnd), cs)
  | c :: cs =>
    if c = '?' ∨ c = '*' ∨ c = '+' then
      r.repeatLast?.map fun r => (r, match cs with
        | '?' :: rest => rest
        | _ => cs)
    else some (r.add (.literal ⟨c, false⟩), cs)

/-- Every step takes one character at least. -/
def run? : Nat → Reading → List Char → Option Reading
  | 0, _, _ => none
  | fuel + 1, r, cs =>
    match skip r.verbose cs with
    | [] => some r
    | cs => (r.step? cs).bind fun (r, cs) => run? fuel r cs

end Reading

/-- The pattern that a text stands for; all its groups are closed. -/
def parse? (cs : List Char) : Option Pattern :=
  (Reading.run? (cs.length + 1) .start cs).bind fun r => if r.outer.isEmpty then some r.whole else none

end PresenceCaps.Pattern
