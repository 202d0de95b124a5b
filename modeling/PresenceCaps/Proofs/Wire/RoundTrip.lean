import Mathlib
import PresenceCaps.Log.Config
import PresenceCaps.Proofs.Address.NormalForm
import PresenceCaps.Proofs.Capability.Naming
import PresenceCaps.Proofs.Datum.Codec
import PresenceCaps.Settings.Codec
import PresenceCaps.Wire.Disco
import PresenceCaps.Wire.Presence

/-!
Whatever is sent or kept as data is read back as it was. Each record is taken apart into its fields, and each variant
into what it carries.
-/
namespace PresenceCaps
open Datum

/-! Addresses, handles, flags and channels -/

namespace BareAddress

theorem faithful : Faithful 0 toDatum ofDatum? where
  reads_back a := a.ofChars?_display
  fits a := .text a.display

end BareAddress

namespace FullAddress

theorem faithful : Faithful 1 toDatum ofDatum? where
  reads_back a := by
    have hfields : a.toDatum.fields? ["bare", "resource"] 2 = some [some a.bare.toDatum, some (text a.resource)] :=
      fields?_table rfl (by decide)
    rw [ofDatum?, hfields]
    simp only [required, Option.bind_some, BareAddress.faithful.reads_back, faithful_text.reads_back]
    rfl
  fits a := fits_table ["bare", "resource"] rfl (by decide) ⟨BareAddress.faithful.fits a.bare, .text a.resource⟩

end FullAddress

theorem ContactHandle.faithful : Faithful 0 toDatum ofDatum? where
  reads_back x := by rw [ofDatum?, toDatum, faithful_word32.reads_back, Option.map_some]
  fits x := faithful_word32.fits x.value

theorem Capabilities.faithful : Faithful 0 toDatum ofDatum? where
  reads_back c := c.read?_write
  fits c := .text c.write

theorem MediaFlags.faithful : Faithful 0 toDatum ofDatum? where
  reads_back m := m.read?_write
  fits m := .text m.write

theorem ChannelClass.faithful : Faithful 1 toDatum ofDatum? where
  reads_back c := by
    cases c with
    | streamedMedia flags =>
      rw [toDatum, ofDatum?, payload?_tagged]
      simp only [MediaFlags.faithful.reads_back, Option.map_some]
    | text => rfl
    | fileTransfer => rfl
    | tube => rfl
  fits c := by
    cases c with
    | streamedMedia flags => exact fits_tagged (MediaFlags.faithful.fits flags)
    | text => exact .text "text"
    | fileTransfer => exact .text "file_transfer"
    | tube => exact .text "tube"

namespace ContactCapabilities

theorem faithful : Faithful 3 toDatum ofDatum? where
  reads_back c := by
    have hfields : c.toDatum.fields? ["handle", "classes"] 2 =
        some [some c.handle.toDatum, some (ofList ChannelClass.toDatum c.classes)] := fields?_table rfl (by decide)
    rw [ofDatum?, hfields]
    simp only [required, Option.bind_some, ContactHandle.faithful.reads_back, ChannelClass.faithful.list.reads_back]
    rfl
  fits c := fits_table ["handle", "classes"] rfl (by decide)
    ⟨ContactHandle.faithful.fits c.handle, ChannelClass.faithful.list.fits c.classes⟩

end ContactCapabilities

/-! Signatures, advertisements and presence updates -/

theorem HashAlgorithm.faithful : Faithful 1 toDatum ofDatum? where
  reads_back h := by cases h <;> rfl
  fits h := by
    cases h with
    | sha1 => exact .text "sha1"
    | sha256 => exact .text "sha256"
    | other name => exact fits_tagged (.text name)

/-- What carries a name is not a known algorithm, also with the name of one, and all else that is read is. -/
theorem HashAlgorithm.isSupported_eq_false_iff {t : Datum} {h : HashAlgorithm} (hread : ofDatum? t = some h) :
    h.isSupported = false ↔ ∃ name, t = tagged "other" (text name) ∧ h = other name := by
  rw [ofDatum?] at hread
  split at hread
  · rename_i u hu
    obtain rfl := payload?_eq_some_iff.1 hu
    -- only a text is read as what it carries
    cases u with
    | text name =>
      obtain rfl := (Option.some.inj hread).symm
      exact iff_of_true rfl ⟨name, rfl, rfl⟩
    | _ => cases hread
  · -- without something that it carries, it is one of the plain names
    rename_i hnone
    have hknown : h = sha1 ∨ h = sha256 := by
      obtain ⟨name, hmem⟩ := mem_of_plain? hread
      simp only [List.mem_cons, Prod.mk.injEq, List.not_mem_nil, or_false] at hmem
      exact hmem.imp And.right And.right
    refine iff_of_false ?_ ?_
    · obtain rfl | rfl := hknown <;> exact Bool.noConfusion
    · rintro ⟨name, rfl, -⟩
      rw [payload?_tagged] at hnone
      cases hnone

namespace Digest

theorem faithful : Faithful 2 toDatum ofDatum? where
  reads_back d := by
    have hfields : d.toDatum.fields? ["algorithm", "value"] 2 = some [some d.algorithm.toDatum, some (text d.value)] :=
      fields?_table rfl (by decide)
    rw [ofDatum?, hfields]
    simp only [required, Option.bind_some, HashAlgorithm.faithful.reads_back, faithful_text.reads_back]
    rfl
  fits d := fits_table ["algorithm", "value"] rfl (by decide) ⟨HashAlgorithm.faithful.fits d.algorithm, .text d.value⟩

end Digest

theorem BundleToken.faithful : Faithful 1 toDatum ofDatum? where
  reads_back b := by cases b <;> rfl
  fits b := by
    cases b with
    | version s => exact fits_tagged (.text s)
    | extension s => exact fits_tagged (.text s)

namespace CapabilitySignature

theorem faithful_digest : Faithful 2 (ofOption Digest.toDatum) fun t => nullable Digest.ofDatum? (some t) :=
  Digest.faithful.option fun _ => Datum.noConfusion

theorem faithful : Faithful 3 toDatum ofDatum? where
  reads_back s := by
    have hfields : s.toDatum.fields? ["node", "token", "digest"] 3 =
        some [some (text s.node), some s.token.toDatum, some (ofOption Digest.toDatum s.digest)] :=
      fields?_table rfl (by decide)
    rw [ofDatum?, hfields]
    simp only [required, Option.bind_some, faithful_text.reads_back, BundleToken.faithful.reads_back,
      faithful_digest.reads_back]
    rfl
  fits s := fits_table ["node", "token", "digest"] rfl (by decide)
    ⟨.text s.node, BundleToken.faithful.fits s.token, faithful_digest.fits s.digest⟩

end CapabilitySignature

namespace CapsAdvertisement

theorem faithful : Faithful 2 toDatum ofDatum? where
  reads_back a := by
    have hfields : a.toDatum.fields? ["node", "ver", "hash", "ext"] 2 =
        some [some (text a.node), some (text a.ver), some (ofOption text a.hash), some (ofTexts a.ext)] :=
      fields?_table rfl (by decide)
    rw [ofDatum?, hfields]
    simp only [required, withDefault, Option.bind_some, faithful_text.reads_back, faithful_optionalText.reads_back,
      faithful_texts.reads_back]
    rfl
  fits a := fits_table ["node", "ver", "hash", "ext"] rfl (by decide)
    ⟨.text a.node, .text a.ver, faithful_optionalText.fits a.hash, faithful_texts.fits a.ext⟩

end CapsAdvertisement

theorem Availability.faithful : Faithful 0 toDatum ofDatum? where
  reads_back a := by cases a <;> rfl
  fits a := by cases a <;> exact .text _

namespace PresenceUpdate

theorem faithful_caps :
    Faithful 2 (ofOption CapsAdvertisement.toDatum) fun t => nullable CapsAdvertisement.ofDatum? (some t) :=
  CapsAdvertisement.faithful.option fun _ => Datum.noConfusion

theorem faithful : Faithful 3 toDatum ofDatum? where
  reads_back u := by
    have hfields : u.toDatum.fields? ["from", "availability", "priority", "caps"] 2 =
        some [some u.sender.toDatum, some u.availability.toDatum, some (ofInt8 u.priority),
          some (ofOption CapsAdvertisement.toDatum u.caps)] := fields?_table rfl (by decide)
    rw [ofDatum?, hfields]
    simp only [required, withDefault, Option.bind_some, FullAddress.faithful.reads_back,
      Availability.faithful.reads_back, faithful_int8.reads_back, faithful_caps.reads_back]
    rfl
  fits u := fits_table ["from", "availability", "priority", "caps"] rfl (by decide)
    ⟨FullAddress.faithful.fits u.sender, Availability.faithful.fits u.availability, faithful_int8.fits u.priority,
      faithful_caps.fits u.caps⟩

end PresenceUpdate

/-! Discovery replies -/

namespace Identity

theorem faithful : Faithful 1 toDatum ofDatum? where
  reads_back i := by
    have hfields : i.toDatum.fields? ["category", "type", "lang", "name"] 2 =
        some [some (text i.category), some (text i.type), some (ofOption text i.lang), some (ofOption text i.name)] :=
      fields?_table rfl (by decide)
    rw [ofDatum?, hfields]
    simp only [required, Option.bind_some, faithful_text.reads_back, faithful_optionalText.reads_back]
    rfl
  fits i := fits_table ["category", "type", "lang", "name"] rfl (by decide)
    ⟨.text i.category, .text i.type, faithful_optionalText.fits i.lang, faithful_optionalText.fits i.name⟩

end Identity

namespace FormField

theorem faithful : Faithful 2 toDatum ofDatum? where
  reads_back f := by
    have hfields : f.toDatum.fields? ["var", "values"] 1 = some [some (text f.var), some (ofTexts f.values)] :=
      fields?_table rfl (by decide)
    rw [ofDatum?, hfields]
    simp only [required, withDefault, Option.bind_some, faithful_text.reads_back, faithful_texts.reads_back]
    rfl
  fits f := fits_table ["var", "values"] rfl (by decide) ⟨.text f.var, faithful_texts.fits f.values⟩

end FormField

namespace DataForm

theorem faithful : Faithful 4 toDatum ofDatum? where
  reads_back f := by
    have hfields : f.toDatum.fields? ["fields"] 0 = some [some (ofList FormField.toDatum f.fields)] :=
      fields?_table rfl (by decide)
    rw [ofDatum?, hfields]
    simp only [withDefault, FormField.faithful.list.reads_back, Option.map_some]
  fits f := fits_table ["fields"] rfl (by decide) (FormField.faithful.list.fits f.fields)

end DataForm

namespace DiscoInfo

theorem faithful : Faithful 6 toDatum ofDatum? where
  reads_back d := by
    have hfields : d.toDatum.fields? ["node", "identities", "features", "forms"] 0 =
        some [some (ofOption text d.node), some (ofList Identity.toDatum d.identities), some (ofTexts d.features),
          some (ofList DataForm.toDatum d.forms)] := fields?_table rfl (by decide)
    rw [ofDatum?, hfields]
    simp only [withDefault, faithful_optionalText.reads_back, Identity.faithful.list.reads_back,
      faithful_texts.reads_back, DataForm.faithful.list.reads_back]
    rfl
  fits d := fits_table ["node", "identities", "features", "forms"] rfl (by decide)
    ⟨faithful_optionalText.fits d.node, Identity.faithful.list.fits d.identities, faithful_texts.fits d.features,
      DataForm.faithful.list.fits d.forms⟩

end DiscoInfo

/-! Settings -/

theorem TrustSettings.faithful : Faithful 1 toDatum ofDatum? :=
  faithful_word32.single "confirmations_required" (fun _ => rfl) default.confirmationsRequired

theorem DiscoverySettings.faithful : Faithful 1 toDatum ofDatum? :=
  faithful_word64.single "query_timeout_secs" (fun _ => rfl) default.queryTimeoutSecs

theorem ServiceSettings.faithful : Faithful 1 toDatum ofDatum? :=
  faithful_word64.single "command_buffer" (fun _ => rfl) default.commandBuffer

theorem EventSettings.faithful : Faithful 1 toDatum ofDatum? :=
  faithful_word64.single "channel_capacity" (fun _ => rfl) default.channelCapacity

theorem LogSettings.faithful : Faithful 2 toDatum ofDatum? where
  reads_back s := by
    have hfields : s.toDatum.closedFields? ["level", "format", "directives"] 0 =
        some [some (text s.level), some (text s.format), some (ofTexts s.directives)] :=
      closedFields?_table rfl (by decide)
    rw [ofDatum?, hfields]
    simp only [withDefault, faithful_text.reads_back, faithful_texts.reads_back]
    rfl
  fits s := fits_table ["level", "format", "directives"] rfl (by decide)
    ⟨.text s.level, .text s.format, faithful_texts.fits s.directives⟩

namespace Settings

theorem faithful : Faithful 3 toDatum ofDatum? where
  reads_back s := by
    have hfields : s.toDatum.closedFields? ["trust", "discovery", "service", "events", "logging"] 0 =
        some [some s.trust.toDatum, some s.discovery.toDatum, some s.service.toDatum, some s.events.toDatum,
          some s.logging.toDatum] := closedFields?_table rfl (by decide)
    rw [ofDatum?, hfields]
    simp only [withDefault, TrustSettings.faithful.reads_back, DiscoverySettings.faithful.reads_back,
      ServiceSettings.faithful.reads_back, EventSettings.faithful.reads_back, LogSettings.faithful.reads_back]
    rfl
  fits s := fits_table ["trust", "discovery", "service", "events", "logging"] rfl (by decide)
    ⟨TrustSettings.faithful.fits s.trust, DiscoverySettings.faithful.fits s.discovery,
      ServiceSettings.faithful.fits s.service, EventSettings.faithful.fits s.events,
      LogSettings.faithful.fits s.logging⟩

end Settings

/-! Logging -/

theorem LogFormat.faithful : Faithful 0 toDatum ofDatum? where
  reads_back f := by cases f <;> rfl
  fits f := .text f.name

theorem LogTarget.faithful : Faithful 0 toDatum ofDatum? where
  reads_back t := by cases t <;> rfl
  fits t := .text t.name

namespace LogConfig

theorem faithful : Faithful 2 toDatum ofDatum? where
  reads_back c := by
    have hfields : c.toDatum.fields? ["level", "format", "target", "timestamps", "ansi", "directives"] 0 =
        some [some (text c.level), some c.format.toDatum, some c.target.toDatum, some (bool c.timestamps),
          some (bool c.ansi), some (ofTexts c.directives)] := fields?_table rfl (by decide)
    rw [ofDatum?, hfields]
    simp only [withDefault, faithful_text.reads_back, LogFormat.faithful.reads_back, LogTarget.faithful.reads_back,
      faithful_bool.reads_back, faithful_texts.reads_back]
    rfl
  fits c := fits_table ["level", "format", "target", "timestamps", "ansi", "directives"] rfl (by decide)
    ⟨.text c.level, LogFormat.faithful.fits c.format, LogTarget.faithful.fits c.target, .bool c.timestamps,
      .bool c.ansi, faithful_texts.fits c.directives⟩

end LogConfig

/-- Presence updates, signatures, advertisements, discovery replies, the capabilities of contacts, settings and the
setup of logging are read back as they were, from data and from JSON texts, and so are all sets of flags, with any bits
that have no name. What carries the name of an algorithm under `other` is an algorithm of that name, which is not
supported, and nothing else is read as one that is not. An address that is read is written with its domain in lower
case, and else as it was. -/
theorem values_are_read_back_from_json :
    RoundTrips PresenceUpdate.toDatum PresenceUpdate.ofDatum? ∧
    RoundTrips CapabilitySignature.toDatum CapabilitySignature.ofDatum? ∧
    RoundTrips CapsAdvertisement.toDatum CapsAdvertisement.ofDatum? ∧
    RoundTrips DiscoInfo.toDatum DiscoInfo.ofDatum? ∧
    RoundTrips ContactCapabilities.toDatum ContactCapabilities.ofDatum? ∧
    RoundTrips Settings.toDatum Settings.ofDatum? ∧
    RoundTrips LogConfig.toDatum LogConfig.ofDatum? ∧
    RoundTrips Capabilities.toDatum Capabilities.ofDatum? ∧
    RoundTrips MediaFlags.toDatum MediaFlags.ofDatum? ∧
    RoundTrips HashAlgorithm.toDatum HashAlgorithm.ofDatum? ∧
    (∀ t h, HashAlgorithm.ofDatum? t = some h →
      (h.isSupported = false ↔ ∃ name, t = tagged "other" (text name) ∧ h = .other name)) ∧
    RoundTrips BareAddress.toDatum BareAddress.ofDatum? ∧
    ∀ (s : String) (a : BareAddress), BareAddress.ofDatum? (text s) = some a →
      a.toDatum = text a.display ∧ SameBareText s.toList a.display.toList ∧
        lower a.domain.toList = a.domain.toList := by
  refine ⟨PresenceUpdate.faithful.roundTrips (by decide), CapabilitySignature.faithful.roundTrips (by decide),
    CapsAdvertisement.faithful.roundTrips (by decide), DiscoInfo.faithful.roundTrips (by decide),
    ContactCapabilities.faithful.roundTrips (by decide), Settings.faithful.roundTrips (by decide),
    LogConfig.faithful.roundTrips (by decide), Capabilities.faithful.roundTrips (by decide),
    MediaFlags.faithful.roundTrips (by decide), HashAlgorithm.faithful.roundTrips (by decide), fun t h hread => ?_,
    BareAddress.faithful.roundTrips (by decide), fun s a hread => ?_⟩
  · exact HashAlgorithm.isSupported_eq_false_iff hread
  · exact ⟨rfl, (BareAddress.eq_iff_sameBareText hread a.ofChars?_display).1 rfl, a.domain_lower⟩

/-- Flags without a name are a number, control characters are escaped, the name of a known algorithm that is carried
stays a name, and a domain in capitals is written in small letters. -/
theorem json_round_trip_of_unknownNames :
    let contact : ContactCapabilities := ⟨⟨7⟩, [.streamedMedia ⟨18⟩, .tube]⟩
    let sig : CapabilitySignature := ⟨"n\n", .version "1", some ⟨.other "sha-1", "1"⟩⟩
    let bob : BareAddress := .ofParts "Bob".toList "Example.COM".toList (by decide) (by decide)
    (Json.parse? "\x7b\"handle\":7,\"classes\":[\x7b\"streamed_media\":\"VIDEO | 0x10\"\x7d,\"tube\"]\x7d").bind
      ContactCapabilities.ofDatum? = some contact ∧
    Json.print sig.toDatum = "\x7b\"node\":\"n\\u000a\",\"token\":\x7b\"version\":\"1\"\x7d,\"digest\":" ++
      "\x7b\"algorithm\":\x7b\"other\":\"sha-1\"\x7d,\"value\":\"1\"\x7d\x7d" ∧
    (Json.parse? (Json.print sig.toDatum)).bind CapabilitySignature.ofDatum? = some sig ∧ sig.isHashed = false ∧
    BareAddress.ofDatum? (text "Bob@Example.COM") = some bob ∧ bob.toDatum = text "Bob@example.com" ∧
    SameBareText "Bob@Example.COM".toList "Bob@example.com".toList ∧
    HashAlgorithm.ofDatum? (tagged "other" (text "sha1")) = some (.other "sha1") ∧
    (HashAlgorithm.other "sha1").isSupported = false := by
  intro contact sig bob
  obtain ⟨-, hsig, -, -, hcontact, -, -, -, -, -, hother, -, haddress⟩ := values_are_read_back_from_json
  have hread := hcontact.text contact
  have hprinted : Json.print contact.toDatum =
      "\x7b\"handle\":7,\"classes\":[\x7b\"streamed_media\":\"VIDEO | 0x10\"\x7d,\"tube\"]\x7d" := by cbv
  rw [hprinted] at hread
  have hbob : BareAddress.ofDatum? (text "Bob@Example.COM") = some bob := by rfl
  have hsha1 : HashAlgorithm.ofDatum? (tagged "other" (text "sha1")) = some (.other "sha1") := by rfl
  refine ⟨hread, by cbv, hsig.text sig, by rfl, hbob, by rfl, ?_, hsha1, ?_⟩
  · exact (haddress _ _ hbob).2.1
  · exact (hother _ _ hsha1).2 ⟨"sha1", rfl, rfl⟩

end PresenceCaps
