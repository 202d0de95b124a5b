import PresenceCaps.Toml.Moment
import PresenceCaps.Toml.Number
import PresenceCaps.Toml.Section

/-! TOML documents: values, statements, and the datum that the statements build up. -/
namespace PresenceCaps.Toml

/-- How deep arrays and inline tables may be nested, and how many parts a key may have. -/
def depthLimit : Nat := 79

def isBareKeyChar (c : Char) : Bool := c.isAlphanum || c == '-' || c == '_'

def keyPart? (cs : List Char) : Option (String × List Char) :=
  match cs with
  | '"' :: _ => singleLine? cs
  | '\'' :: _ => singleLine? cs
  | _ =>
    let k := cs.takeWhile isBareKeyChar
    if k.isEmpty then none else some (String.ofList k, cs.drop k.length)

/-- Parts joined by dots, with blanks around each. -/
def keyParts? : Nat → List Char → Option (List String × List Char)
  | 0, _ => none
  | fuel + 1, cs => do
    let (k, cs) ← keyPart? (skipSpace cs)
    match skipSpace cs with
    | '.' :: cs =>
      let (ks, cs) ← keyParts? fuel cs
      return (k :: ks, cs)
    | cs => return ([k], cs)

def key? (cs : List Char) : Option (List String × List Char) := keyParts? depthLimit cs

/-- The rest of an array; a comma may stand after the last item. -/
def arrayItems? (item : List Char → Option (Node × List Char)) :
    Nat → List Char → Option (List Node × List Char)
  | 0, _ => none
  | fuel + 1, cs =>
    match skipLines cs with
    | ']' :: cs => some ([], cs)
    | cs => do
      let (t, cs) ← item cs
      match skipLines cs with
      | ',' :: cs =>
        let (ts, cs) ← arrayItems? item fuel cs
        return (t :: ts, cs)
      | ']' :: cs => return ([t], cs)
      | _ => none

/-- The rest of an inline table, after its opening brace or a comma. -/
def inlineEntries? (item : List Char → Option (Node × List Char)) (es : Entries) :
    Nat → List Char → Option (Entries × List Char)
  | 0, _ => none
  | fuel + 1, cs => do
    let (k, cs) ← key? cs
    let cs ← char? '=' cs
    let (t, cs) ← item (skipSpace cs)
    let es ← es.put? true t k
    match skipSpace cs with
    | ',' :: cs => inlineEntries? item es fuel cs
    | '\x7d' :: cs => return (es, cs)
    | _ => none

def inlineTable? (item : List Char → Option (Node × List Char)) (fuel : Nat) (cs : List Char) :
    Option (Node × List Char) :=
  match skipSpace cs with
  | '\x7d' :: cs => some (.inlineTable [], cs)
  | cs => (inlineEntries? item [] fuel cs).map fun (es, cs) => (.inlineTable es, cs)

def scalar? (cs : List Char) : Option (Node × List Char) :=
  match cs with
  | '"' :: _ => (string? cs).map fun (s, cs) => (.leaf (.text s), cs)
  | '\'' :: _ => (string? cs).map fun (s, cs) => (.leaf (.text s), cs)
  | 't' :: 'r' :: 'u' :: 'e' :: cs => some (.leaf (.bool true), cs)
  | 'f' :: 'a' :: 'l' :: 's' :: 'e' :: cs => some (.leaf (.bool false), cs)
  | _ =>
    match moment? cs with
    | some (s, cs) => some (.moment s, cs)
    | none => (number? cs).map fun (t, cs) => (.leaf t, cs)

/-- A value with so many levels of nesting left, none of which has more than `size` items. -/
def value? (size : Nat) : Nat → List Char → Option (Node × List Char)
  | depth, '[' :: cs =>
    match depth with
    | 0 => none
    | depth + 1 => (arrayItems? (value? size depth) size cs).map fun (ts, cs) => (.array ts, cs)
  | depth, '\x7b' :: cs =>
    match depth with
    | 0 => none
    | depth + 1 => inlineTable? (value? size depth) size cs
  | _, cs => scalar? cs

inductive Statement where
  | openTable (path : List String)
  | openItem (path : List String)
  | assign (path : List String) (value : Node)

/-- One statement, up to the end of its line. -/
def statement? (size : Nat) : List Char → Option (Statement × List Char)
  | '[' :: '[' :: cs => do
    let (k, cs) ← key? cs
    let cs ← (char? ']' cs).bind (char? ']')
    return (.openItem k, ← endOfLine? cs)
  | '[' :: cs => do
    let (k, cs) ← key? cs
    let cs ← char? ']' cs
    return (.openTable k, ← endOfLine? cs)
  | cs => do
    let (k, cs) ← key? cs
    let cs ← char? '=' cs
    let (t, cs) ← value? size depthLimit (skipSpace cs)
    return (.assign k t, ← endOfLine? cs)

/-- All statements; every line that is neither blank nor a comment holds one. -/
def statements? (size : Nat) (taken : List Statement) : Nat → List Char → Option (List Statement)
  | 0, _ => none
  | fuel + 1, cs =>
    match skipLines cs with
    | [] => some taken.reverse
    | cs => (statement? size cs).bind fun (s, cs) => statements? size (s :: taken) fuel cs

/-- The tables so far, and the header that is open. -/
structure Building where
  root : Entries
  header : List String

def Building.step? (b : Building) : Statement → Option Building
  | .openTable path => (b.root.openTable? path).map fun root => ⟨root, path⟩
  | .openItem path => (b.root.openItem? path).map fun root => ⟨root, path⟩
  | .assign path t => (b.root.under? (Entries.put? true t path) b.header).map fun root => { b with root }

def build? (ss : List Statement) : Option Datum :=
  (ss.foldlM Building.step? ⟨[], []⟩).bind fun b => b.root.toDatum?

/-- A byte order mark at the start is passed over. -/
def skipMark : List Char → List Char
  | '\ufeff' :: cs => cs
  | cs => cs

def parse? (s : String) : Option Datum :=
  let cs := skipMark s.toList
  let size := cs.length + 1
  (statements? size [] size cs).bind build?

end PresenceCaps.Toml
