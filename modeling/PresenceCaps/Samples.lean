import PresenceCaps.Disco.Info
import PresenceCaps.Presence

/-! A made-up client, its replies and its advertisements. -/
namespace PresenceCaps.Sample

def clientNode : String := "http://telepathy.freedesktop.org/fake-client"

/-- The SHA-1 digest of the reply with the software form. -/
def clientSha1 : String := "CzO+nkbflbxu1pgzOQSIi8gOyDc="

def softwareForm : DataForm :=
  ((((DataForm.ofType DataForm.softwareType).withField "software" "A Fake Client with Twisted").withField
    "software_version" "5.11.2-svn-20080512").withField
    "os" "Debian GNU/Linux unstable (sid) unstable sid").withField "os_version" "2.6.24-1-amd64"

def audioReply : DiscoInfo := .ofFeatures [Feature.jingle015, Feature.jingle015Audio, Feature.googleP2P]

def videoExtensionReply : DiscoInfo := .ofFeatures [Feature.jingle015Video]

def hashedReply : DiscoInfo := audioReply.withForm softwareForm

def tubesReply : DiscoInfo :=
  (DiscoInfo.empty.withIdentity ⟨"client", "pc", none, some "Fake"⟩).withFeatures
    [Feature.tubes, Feature.fileTransfer]

def advertisement (ver : String) : CapsAdvertisement := .ofVersion clientNode ver

def hashedAdvertisement : CapsAdvertisement := { advertisement clientSha1 with hash := some "sha-1" }

def contact (n : Nat) : Except CapsError FullAddress :=
  FullAddress.parse s!"contact{n}@example.com/Resource"

def bob : BareAddress := ⟨some "bob", "example.com", by decide, by decide, by decide⟩

def laptop : FullAddress := bob.withResource "Laptop"

def phone : FullAddress := bob.withResource "Phone"

def available (a : FullAddress) (caps : CapsAdvertisement) : PresenceUpdate := ⟨a, .available, 0, some caps⟩

def presence (n : Nat) (caps : CapsAdvertisement) : Except CapsError PresenceUpdate :=
  (contact n).map fun a => ⟨a, .available, 0, some caps⟩

end PresenceCaps.Sample
