import Mathlib.Data.List.Basic
import PresenceCaps.Datum.Codec
import PresenceCaps.Proofs.Json.RoundTrip
import PresenceCaps.Proofs.Text.Joined

/-! What is written as data is read back, from single values to lists, options and records. -/
namespace PresenceCaps.Datum
variable {α : Type} {write : α → Datum} {read : Datum → Option α} {depth levels needed : Nat} {t : Datum}
  {es : List (String × Datum)} {names : List String}

/-- Each value is read back from the datum that stands for it, which has so many levels at most. -/
structure Faithful (levels : Nat) (write : α → Datum) (read : Datum → Option α) : Prop where
  reads_back : ∀ a, read (write a) = some a
  fits : ∀ {depth : Nat} (a : α), Json.Fits (depth + levels) (write a)

/-! Single values -/

theorem faithful_text : Faithful 0 text text? where
  reads_back _ := rfl
  fits s := .text s

theorem faithful_bool : Faithful 0 bool bool? where
  reads_back _ := rfl
  fits b := .bool b

/-- Numbers of a range, which 64 bits can hold. -/
theorem faithful_number {number : α → Int} {ofNumber : Int → α} {lo hi : Int} (hlo : int64Min ≤ lo) (hhi : hi < 2 ^ 64)
    (hrange : ∀ a, lo ≤ number a ∧ number a ≤ hi) (hback : ∀ a, ofNumber (number a) = a) :
    Faithful 0 (fun a => int (number a)) fun t => (t.intIn? lo hi).map ofNumber where
  reads_back a := by
    have hin : (int (number a)).intIn? lo hi = some (number a) := if_pos (hrange a)
    rw [hin, Option.map_some, hback]
  fits a := .int ⟨Int.le_trans hlo (hrange a).1, Int.lt_of_le_of_lt (hrange a).2 hhi⟩

theorem faithful_word32 : Faithful 0 ofWord32 word32? := by
  refine faithful_number (by decide) (by decide) (fun n => ?_) fun n => ?_
  · have hlt := n.toNat_lt
    omega
  · rw [Int.toNat_natCast, UInt32.ofNat_toNat]

theorem faithful_word64 : Faithful 0 ofWord64 word64? := by
  refine faithful_number (by decide) (by decide) (fun n => ?_) fun n => ?_
  · have hlt := n.toNat_lt
    omega
  · rw [Int.toNat_natCast, UInt64.ofNat_toNat]

theorem faithful_int8 : Faithful 0 ofInt8 int8? := by
  refine faithful_number (by decide) (by decide) (fun n => ?_) fun n => n.ofInt_toInt
  have hlo := n.le_toInt
  have hhi := n.toInt_lt
  omega

/-! Lists and options -/

theorem Faithful.list (h : Faithful levels write read) : Faithful (levels + 1) (ofList write) (listOf? read) where
  reads_back xs := by
    have hread : (xs.map write).mapM read = some xs := by
      rw [List.mapM_map]
      exact (mapM_eq_some_map fun a _ => h.reads_back a).trans (congrArg some (List.map_id' xs))
    exact hread
  fits xs := by
    refine .list fun t ht => ?_
    obtain ⟨a, -, rfl⟩ := List.mem_map.1 ht
    exact h.fits a

theorem faithful_texts : Faithful 1 ofTexts texts? := faithful_text.list

/-- Null stands for what is missing, so it must not stand for a value. -/
theorem Faithful.option (h : Faithful levels write read) (hne : ∀ a, write a ≠ null) :
    Faithful levels (ofOption write) fun t => nullable read (some t) where
  reads_back x := by
    cases x with
    | none => rfl
    | some a =>
      rw [ofOption, nullable, h.reads_back]
      · rfl
      · exact hne a
  fits x := by
    cases x with
    | none => exact .null
    | some a => exact h.fits a

theorem faithful_optionalText : Faithful 0 (ofOption text) fun t => nullable text? (some t) :=
  faithful_text.option fun _ => Datum.noConfusion

/-! Records and variants -/

theorem fields?_table (hnames : Assoc.keys es = names) (hn : names.Nodup) :
    (table es).fields? names needed = some (es.map fun e => some e.2) := by
  subst hnames
  rw [fields?, Assoc.keys, List.map_map]
  exact congrArg some (List.map_congr_left fun e he => (Assoc.get?_eq_some_iff_mem hn).2 he)

theorem closedFields?_table (hnames : Assoc.keys es = names) (hn : names.Nodup) :
    (table es).closedFields? names needed = some (es.map fun e => some e.2) := by
  have hknown : es.all (fun e => names.contains e.1) = true := by
    rw [List.all_eq_true]
    intro e he
    rw [List.contains_iff_mem, ← hnames]
    exact List.mem_map_of_mem he
  rw [closedFields?, if_pos hknown, fields?_table hnames hn]

/-- A record fits if each of its fields does. -/
theorem fits_table (names : List String) (hnames : Assoc.keys es = names) (hn : names.Nodup)
    (each : (es.map Prod.snd).Forall (Json.Fits depth)) : Json.Fits (depth + 1) (table es) := by
  rw [List.forall_map_iff, List.forall_iff_forall_mem] at each
  exact .table (hnames ▸ hn) each

/-- A record of one field, which has a default. -/
theorem Faithful.single {β : Type} {field : β → α} {mk : α → β} (h : Faithful levels write read) (name : String)
    (hmk : ∀ b, mk (field b) = b) (d : α) :
    Faithful (levels + 1) (fun b => table [(name, write (field b))]) fun t =>
      match t.closedFields? [name] 0 with
      | some [value] => (withDefault d read value).map mk
      | _ => none where
  reads_back b := by
    have hfields : (table [(name, write (field b))]).closedFields? [name] 0 = some [some (write (field b))] :=
      closedFields?_table rfl (List.pairwise_singleton _ name)
    simp only [hfields, withDefault, h.reads_back, Option.map_some, hmk]
  fits b := fits_table [name] rfl (List.pairwise_singleton _ name) (h.fits (field b))

theorem fits_tagged {name : String} (ht : Json.Fits depth t) : Json.Fits (depth + 1) (tagged name t) :=
  fits_table [name] rfl (List.pairwise_singleton _ name) ht

theorem payload?_tagged (name : String) (t : Datum) : (tagged name t).payload? name = some t := if_pos rfl

theorem eq_tagged_of_variant? {u : Datum} {name : String} (h : t.variant? = some (name, some u)) :
    t = tagged name u := by
  rw [variant?.eq_def] at h
  split at h
  · cases h
  · cases h
    rfl
  · cases h

theorem payload?_eq_some_iff {u : Datum} {name : String} : t.payload? name = some u ↔ t = tagged name u := by
  constructor
  · intro h
    rw [payload?] at h
    split at h
    · rename_i n v hv
      split at h
      · rename_i hn
        rw [← hn, ← Option.some.inj h]
        exact eq_tagged_of_variant? hv
      · cases h
    · cases h
  · rintro rfl
    exact payload?_tagged name u

theorem mem_of_plain? {variants : List (String × α)} {a : α} (h : plain? variants t = some a) :
    ∃ name, (name, a) ∈ variants := by
  rw [plain?] at h
  split at h
  · exact ⟨_, Assoc.mem_of_get?_eq_some h⟩
  · exact ⟨_, Assoc.mem_of_get?_eq_some h⟩
  · cases h

/-! Texts -/

/-- Values are read back from their data and from the JSON texts of these, and no two values have one text. -/
structure RoundTrips (write : α → Datum) (read : Datum → Option α) : Prop where
  data : ∀ a, read (write a) = some a
  text : ∀ a, (Json.parse? (Json.print (write a))).bind read = some a
  injective : ∀ a b, Json.print (write a) = Json.print (write b) → a = b

theorem Faithful.roundTrips (h : Faithful levels write read) (hlevels : levels ≤ Json.depthLimit) :
    RoundTrips write read := by
  have htext (a : α) : (Json.parse? (Json.print (write a))).bind read = some a := by
    have hfits : Json.Fits (Json.depthLimit - levels + levels) (write a) := h.fits a
    rw [Nat.sub_add_cancel hlevels] at hfits
    rw [Json.parse?_print hfits]
    exact h.reads_back a
  refine ⟨h.reads_back, htext, fun a b hab => ?_⟩
  have hb := htext b
  rw [← hab, htext a] at hb
  exact Option.some.inj hb

end PresenceCaps.Datum
