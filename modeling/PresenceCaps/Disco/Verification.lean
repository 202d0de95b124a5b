import PresenceCaps.Digest.Base64
import PresenceCaps.Digest.Sha1
import PresenceCaps.Digest.Sha256
import PresenceCaps.Disco.Info
import PresenceCaps.Signature
import PresenceCaps.Text.Order

/-!
The verification string of a reply, and the digest that an advertisement promises. The string is a list of
lines, each ended by a less-than sign; a reply that says something twice has none.
-/
namespace PresenceCaps

/-- How the type of a form enters the verification string. -/
inductive FormKind where
  | untyped
  | typed (type : String)
  | conflicting
deriving DecidableEq, Repr

/-- Two type fields, or two different values in one, are a conflict; a type field without values is none. -/
def DataForm.kind (f : DataForm) : FormKind :=
  match f.typeFields with
  | [] => .untyped
  | [x] =>
    match x.values with
    | [] => .untyped
    | v :: vs => if vs.all (· == v) then .typed v else .conflicting
  | _ => .conflicting

namespace Verification

def sortTexts (xs : List String) : List String := xs.mergeSort fun a b => decide (a ≤ b)

/-- Whether two neighbours of a list agree; in a sorted list that finds everything that is there twice. -/
def hasEqualNeighbours {α : Type} [DecidableEq α] : List α → Bool
  | [] => false
  | [_] => false
  | a :: b :: rest => decide (a = b) || hasEqualNeighbours (b :: rest)

/-- The identity lines, ordered by key. -/
def identityLines? (is : List Identity) : Option (List String) :=
  let keys := (is.map Identity.key).mergeSort textsLe
  if hasEqualNeighbours keys then none else some (keys.map ("/".intercalate ·))

def featureLines? (fs : List String) : Option (List String) :=
  let sorted := sortTexts fs
  if hasEqualNeighbours sorted then none else some sorted

def fieldLines (x : FormField) : List String := x.var :: sortTexts x.values

/-- The lines of a form after its type: the other fields ordered by name, those of one name as they came. -/
def bodyLines (f : DataForm) : List String :=
  ((f.fields.filter fun x => x.var != DataForm.typeVar).mergeSort fun a b => decide (a.var ≤ b.var)).flatMap
    fieldLines

/-- The typed forms with their types; untyped ones are left out, a conflict spoils all. -/
def typedForms? : List DataForm → Option (List (String × DataForm))
  | [] => some []
  | f :: fs =>
    match f.kind with
    | .untyped => typedForms? fs
    | .typed t => (typedForms? fs).map ((t, f) :: ·)
    | .conflicting => none

def formLines? (fs : List DataForm) : Option (List String) :=
  (typedForms? fs).bind fun ts =>
    let sorted := ts.mergeSort fun a b => decide (a.1 ≤ b.1)
    if hasEqualNeighbours (sorted.map Prod.fst) then none
    else some (sorted.flatMap fun p => p.1 :: bodyLines p.2)

def lines? (d : DiscoInfo) : Option (List String) :=
  (identityLines? d.identities).bind fun is =>
    (featureLines? d.features).bind fun fs =>
      (formLines? d.forms).map fun xs => is ++ fs ++ xs

/-- The text that is hashed. -/
def string? (d : DiscoInfo) : Option String :=
  (lines? d).map fun ls => String.join (ls.map (· ++ "<"))

end Verification

namespace HashAlgorithm

def hash? (a : HashAlgorithm) (s : String) : Option String :=
  let bytes := s.toUTF8.toList
  match a with
  | sha1 => some (String.ofList (Base64.encode (Sha1.digest bytes)))
  | sha256 => some (String.ofList (Base64.encode (Sha256.digest bytes)))
  | other _ => none

end HashAlgorithm

inductive Verdict where
  | agrees
  | differs (computed : Option String)
  | unsupported
deriving DecidableEq, Repr

namespace DiscoInfo

def digest? (d : DiscoInfo) (a : HashAlgorithm) : Option String :=
  (Verification.string? d).bind a.hash?

def verify (d : DiscoInfo) (advertised : Digest) : Verdict :=
  if advertised.algorithm.isSupported then
    let computed := d.digest? advertised.algorithm
    if computed = some advertised.value then .agrees else .differs computed
  else .unsupported

end DiscoInfo
end PresenceCaps
