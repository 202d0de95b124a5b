import PresenceCaps.Datum.Basic

/-!
Reading records, variants and lists out of data. A record is a table with named fields or a list of its
fields in order; a variant is its bare name or a table with the name as its only key.
-/
namespace PresenceCaps.Datum

def text? : Datum → Option String
  | text s => some s
  | _ => none

def bool? : Datum → Option Bool
  | bool b => some b
  | _ => none

def list? : Datum → Option (List Datum)
  | list ts => some ts
  | _ => none

/-- An integer in the given range, ends included. -/
def intIn? (lo hi : Int) : Datum → Option Int
  | int n => if lo ≤ n ∧ n ≤ hi then some n else none
  | _ => none

def word32? (t : Datum) : Option UInt32 :=
  (t.intIn? 0 4294967295).map fun n => UInt32.ofNat n.toNat

def word64? (t : Datum) : Option UInt64 :=
  (t.intIn? 0 18446744073709551615).map fun n => UInt64.ofNat n.toNat

def int8? (t : Datum) : Option Int8 :=
  (t.intIn? (-128) 127).map Int8.ofInt

def ofWord32 (n : UInt32) : Datum := int n.toNat

def ofWord64 (n : UInt64) : Datum := int n.toNat

def ofInt8 (n : Int8) : Datum := int n.toInt

def listOf? {α : Type} (read : Datum → Option α) (t : Datum) : Option (List α) :=
  t.list?.bind fun ts => ts.mapM read

def ofList {α : Type} (write : α → Datum) (xs : List α) : Datum := list (xs.map write)

def texts? : Datum → Option (List String) := listOf? text?

def ofTexts : List String → Datum := ofList text

def ofOption {α : Type} (write : α → Datum) : Option α → Datum
  | none => null
  | some a => write a

/-- The fields of a record, absent ones as `none`. A list has at least `needed` and at most all of them. -/
def fields? (names : List String) (needed : Nat) : Datum → Option (List (Option Datum))
  | table es => some (names.map (Assoc.get? es))
  | list ts =>
    if needed ≤ ts.length ∧ ts.length ≤ names.length then
      some (ts.map some ++ List.replicate (names.length - ts.length) none)
    else none
  | _ => none

/-- As `fields?`, where a table has no key besides the names. -/
def closedFields? (names : List String) (needed : Nat) (t : Datum) : Option (List (Option Datum)) :=
  match t with
  | table es => if es.all (fun e => names.contains e.1) then t.fields? names needed else none
  | _ => t.fields? names needed

def required {α : Type} (read : Datum → Option α) (field : Option Datum) : Option α := field.bind read

/-- Missing and null are the same. -/
def nullable {α : Type} (read : Datum → Option α) : Option Datum → Option (Option α)
  | none => some none
  | some null => some none
  | some t => (read t).map some

/-- A missing field has its default; null is a value like any other. -/
def withDefault {α : Type} (d : α) (read : Datum → Option α) : Option Datum → Option α
  | none => some d
  | some t => read t

/-- The name of a variant and what it carries. -/
def variant? : Datum → Option (String × Option Datum)
  | text name => some (name, none)
  | table [(name, t)] => some (name, some t)
  | _ => none

/-- A variant out of a list of plain ones: it carries nothing, or null. -/
def plain? {α : Type} (names : List (String × α)) (t : Datum) : Option α :=
  match t.variant? with
  | some (name, none) => Assoc.get? names name
  | some (name, some null) => Assoc.get? names name
  | _ => none

/-- What the variant of this name carries. -/
def payload? (name : String) (t : Datum) : Option Datum :=
  match t.variant? with
  | some (n, some u) => if n = name then some u else none
  | _ => none

def tagged (name : String) (t : Datum) : Datum := table [(name, t)]

end PresenceCaps.Datum
