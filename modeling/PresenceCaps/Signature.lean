import PresenceCaps.Text.Split

/-! The names under which bundles of capabilities are advertised. -/
namespace PresenceCaps

inductive HashAlgorithm where
  | sha1
  | sha256
  | other (name : String)
deriving DecidableEq, Repr

namespace HashAlgorithm

/-- The two known names are read in any letter case; another name is kept as it is. -/
def ofName (name : String) : HashAlgorithm :=
  let key := String.ofList (lower name.toList)
  if key = "sha-1" then sha1 else if key = "sha-256" then sha256 else other name

def name : HashAlgorithm → String
  | sha1 => "sha-1"
  | sha256 => "sha-256"
  | other n => n

def isSupported : HashAlgorithm → Bool
  | other _ => false
  | _ => true

end HashAlgorithm

structure Digest where
  algorithm : HashAlgorithm
  value : String
deriving DecidableEq, Repr

inductive BundleToken where
  | version (token : String)
  | extension (token : String)
deriving DecidableEq, Repr

def BundleToken.text : BundleToken → String
  | version t => t
  | extension t => t

/-- Two signatures name the same bundle only if node, token and digest all agree. -/
structure CapabilitySignature where
  node : String
  token : BundleToken
  digest : Option Digest
deriving DecidableEq, Repr

namespace CapabilitySignature

def ofVersion (node ver : String) : CapabilitySignature := ⟨node, .version ver, none⟩

/-- The version is at the same time the digest. -/
def ofHash (node ver : String) (algorithm : HashAlgorithm) : CapabilitySignature :=
  ⟨node, .version ver, some ⟨algorithm, ver⟩⟩

def ofExtension (node ext : String) : CapabilitySignature := ⟨node, .extension ext, none⟩

/-- The node that a discovery query for the bundle names. -/
def queryNode (s : CapabilitySignature) : String := s.node ++ "#" ++ s.token.text

/-- The digest, if it is one that can be checked. -/
def verifiableDigest (s : CapabilitySignature) : Option Digest :=
  s.digest.filter fun d => d.algorithm.isSupported

def isHashed (s : CapabilitySignature) : Bool := s.verifiableDigest.isSome

def display (s : CapabilitySignature) : String :=
  match s.digest with
  | none => s.queryNode
  | some d => s.queryNode ++ " (" ++ d.algorithm.name ++ ")"

end CapabilitySignature
end PresenceCaps
