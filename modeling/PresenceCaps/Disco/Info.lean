import PresenceCaps.Capability.Features

/-! Replies to discovery queries: identities, features and data forms. -/
namespace PresenceCaps

structure Identity where
  category : String
  type : String
  lang : Option String
  name : Option String
deriving DecidableEq, Repr

/-- What identities are ordered and told apart by; a missing part is empty. -/
def Identity.key (i : Identity) : List String :=
  [i.category, i.type, i.lang.getD "", i.name.getD ""]

structure FormField where
  var : String
  values : List String
deriving DecidableEq, Repr

structure DataForm where
  fields : List FormField
deriving DecidableEq, Repr

namespace DataForm

def typeVar : String := "FORM_TYPE"

def softwareType : String := "urn:xmpp:dataforms:softwareinfo"

def ofType (type : String) : DataForm := ⟨[⟨typeVar, [type]⟩]⟩

def withField (f : DataForm) (var value : String) : DataForm := ⟨f.fields ++ [⟨var, [value]⟩]⟩

def typeFields (f : DataForm) : List FormField := f.fields.filter fun x => x.var == typeVar

/-- The type that a form declares: exactly one type field with exactly one value. -/
def type? (f : DataForm) : Option String :=
  match f.typeFields with
  | [⟨_, [t]⟩] => some t
  | _ => none

/-- The first value of the first field with this name. -/
def value? (f : DataForm) (var : String) : Option String :=
  (f.fields.find? fun x => x.var == var).bind fun x => x.values.head?

end DataForm

structure SoftwareInfo where
  software : Option String
  softwareVersion : Option String
  os : Option String
  osVersion : Option String
deriving DecidableEq, Repr

def SoftwareInfo.ofForm? (f : DataForm) : Option SoftwareInfo :=
  if f.type? = some DataForm.softwareType then
    some ⟨f.value? "software", f.value? "software_version", f.value? "os", f.value? "os_version"⟩
  else none

structure DiscoInfo where
  node : Option String
  identities : List Identity
  features : List String
  forms : List DataForm
deriving DecidableEq, Repr

namespace DiscoInfo

def empty : DiscoInfo := ⟨none, [], [], []⟩

def ofFeatures (features : List String) : DiscoInfo := { empty with features }

def withNode (d : DiscoInfo) (node : String) : DiscoInfo := { d with node := some node }

def withIdentity (d : DiscoInfo) (i : Identity) : DiscoInfo := { d with identities := d.identities ++ [i] }

def withFeatures (d : DiscoInfo) (fs : List String) : DiscoInfo := { d with features := d.features ++ fs }

def withForm (d : DiscoInfo) (f : DataForm) : DiscoInfo := { d with forms := d.forms ++ [f] }

def featureSet (d : DiscoInfo) : FeatureSet := .ofList d.features

/-- Read from the first form that is about software. -/
def software? (d : DiscoInfo) : Option SoftwareInfo := d.forms.findSome? SoftwareInfo.ofForm?

end DiscoInfo
end PresenceCaps
