import PresenceCaps.Disco.Info
import PresenceCaps.Datum.Codec

/-! Discovery replies as data. -/
namespace PresenceCaps
open Datum

namespace Identity

def toDatum (i : Identity) : Datum :=
  table [("category", text i.category), ("type", text i.type), ("lang", ofOption text i.lang),
    ("name", ofOption text i.name)]

def ofDatum? (t : Datum) : Option Identity :=
  match t.fields? ["category", "type", "lang", "name"] 2 with
  | some [category, type, lang, name] => do
    let category ← required text? category
    let type ← required text? type
    let lang ← nullable text? lang
    let name ← nullable text? name
    return ⟨category, type, lang, name⟩
  | _ => none

end Identity

namespace FormField

def toDatum (f : FormField) : Datum := table [("var", text f.var), ("values", ofTexts f.values)]

def ofDatum? (t : Datum) : Option FormField :=
  match t.fields? ["var", "values"] 1 with
  | some [var, values] => do
    let var ← required text? var
    let values ← withDefault [] texts? values
    return ⟨var, values⟩
  | _ => none

end FormField

namespace DataForm

def toDatum (f : DataForm) : Datum := table [("fields", ofList FormField.toDatum f.fields)]

def ofDatum? (t : Datum) : Option DataForm :=
  match t.fields? ["fields"] 0 with
  | some [fields] => (withDefault [] (listOf? FormField.ofDatum?) fields).map mk
  | _ => none

end DataForm

namespace DiscoInfo

def toDatum (d : DiscoInfo) : Datum :=
  table [("node", ofOption text d.node), ("identities", ofList Identity.toDatum d.identities),
    ("features", ofTexts d.features), ("forms", ofList DataForm.toDatum d.forms)]

def ofDatum? (t : Datum) : Option DiscoInfo :=
  match t.fields? ["node", "identities", "features", "forms"] 0 with
  | some [node, identities, features, forms] => do
    let node ← nullable text? node
    let identities ← withDefault [] (listOf? Identity.ofDatum?) identities
    let features ← withDefault [] texts? features
    let forms ← withDefault [] (listOf? DataForm.ofDatum?) forms
    return ⟨node, identities, features, forms⟩
  | _ => none

end DiscoInfo

namespace SoftwareInfo

def toDatum (s : SoftwareInfo) : Datum :=
  table [("software", ofOption text s.software), ("software_version", ofOption text s.softwareVersion),
    ("os", ofOption text s.os), ("os_version", ofOption text s.osVersion)]

def ofDatum? (t : Datum) : Option SoftwareInfo :=
  match t.fields? ["software", "software_version", "os", "os_version"] 4 with
  | some [software, softwareVersion, os, osVersion] => do
    let software ← nullable text? software
    let softwareVersion ← nullable text? softwareVersion
    let os ← nullable text? os
    let osVersion ← nullable text? osVersion
    return ⟨software, softwareVersion, os, osVersion⟩
  | _ => none

end SoftwareInfo
end PresenceCaps
