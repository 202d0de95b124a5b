import PresenceCaps.Proofs.Settings.Precedence

/-!
Two environments that differ in one variable, whose field the document sets. It makes no difference which of them is
used if the field is set by its key; if it is set by its place in a list, the variable is read all the same, and must
not be an error.
-/
namespace PresenceCaps
open Datum

namespace Assoc
variable {α β : Type} [DecidableEq α] {m : Assoc α β} {k : α} {f : β → β}

/-- What is changed into itself stays. -/
theorem modify_eq_self (hm : (keys m).Nodup) {v : β} (h : get? m k = some v) (hf : f v = v) : modify m k f = m := by
  rw [modify]
  refine (List.map_congr_left fun e he => ?_).trans (List.map_id m)
  split
  · rename_i hk
    have hget : get? m k = some e.2 := (get?_eq_some_iff_mem hm).2 (hk ▸ he)
    obtain rfl := Option.some.inj (h.symm.trans hget)
    rw [hf]
    rfl
  · rfl

end Assoc

namespace Datum

/-- A table in which a section is a list. -/
structure HasList (s : String) (ts : List Datum) (t : Datum) : Prop where
  exists_table : ∃ es, t = table es ∧ (Assoc.keys es).Nodup
  child : t.child? s = some (list ts)

end Datum

namespace Fallback
variable {a b : Fallback} {bs : List Fallback} {env env' : Environment} {overlay merged merged' : Datum} {s : String}
  {ts : List Datum}

theorem hasList_put (h : HasList s ts merged) (b : Fallback) (v : Datum) : HasList s ts (b.put v merged) := by
  obtain ⟨⟨es, rfl, hes⟩, hs⟩ := h
  refine ⟨⟨_, rfl, Assoc.nodup_keys_modify hes _ _⟩, ?_⟩
  rw [child?_put, hs]
  split <;> rfl

theorem hasList_apply (h : HasList s ts merged) (happly : b.apply env overlay merged = .ok merged') :
    HasList s ts merged' := by
  obtain ⟨-, rfl⟩ | ⟨raw, v, -, -, rfl⟩ := apply_cases happly
  · exact h
  · exact hasList_put h b v

/-- There is no place for a field in a section that is a list. -/
theorem put_of_hasList (h : HasList b.sectionName ts merged) (v : Datum) : b.put v merged = merged := by
  obtain ⟨⟨es, rfl, hes⟩, hs⟩ := h
  exact congrArg table (Assoc.modify_eq_self hes hs rfl)

/-- If the variable is there, it is what the field asks for. -/
def CanRead (b : Fallback) (env : Environment) : Prop :=
  ∀ raw, env.get? b.variableName = some raw → ∃ v, b.value? raw = some v

/-- The document has the key of the field, so that its variable is not read. Or the section of the field is a list, so
that its variable is read, and then there is no place for it. -/
def IsPassedOver (b : Fallback) (overlay : Datum) (env : Environment) (merged : Datum) : Prop :=
  b.isSetBy overlay = true ∨ b.CanRead env ∧ ∃ ts, HasList b.sectionName ts merged

theorem apply_eq_of_get?_eq (h : env.get? b.variableName = env'.get? b.variableName) :
    b.apply env overlay merged = b.apply env' overlay merged := by
  rw [apply, apply, h]

theorem apply_of_isPassedOver (h : b.IsPassedOver overlay env merged) : b.apply env overlay merged = .ok merged := by
  rw [apply]
  cases hraw : env.get? b.variableName with
  | none => rfl
  | some raw =>
    dsimp only
    split
    · rfl
    · rename_i hunset
      obtain ⟨hread, ts, hlist⟩ := h.resolve_left hunset
      obtain ⟨v, hv⟩ := hread raw hraw
      rw [hv]
      exact congrArg Except.ok (put_of_hasList hlist v)

theorem apply_eq_error {raw : String} (hunset : b.isSetBy overlay = false) (hraw : env.get? b.variableName = some raw)
    (hv : b.value? raw = none) : b.apply env overlay merged = .error (.notAnInteger b.variableName raw) := by
  rw [apply, hraw]
  dsimp only
  rw [hunset, if_neg Bool.false_ne_true, hv]

/-- Environments that no fallback can tell apart have the same effect. -/
theorem applyAll_congr {P : Datum → Prop} (hm : P merged)
    (hkeeps : ∀ b ∈ bs, ∀ m m', P m → b.apply env overlay m = .ok m' → P m')
    (hsame : ∀ b ∈ bs, ∀ m, P m → b.apply env overlay m = b.apply env' overlay m) :
    applyAll env overlay bs merged = applyAll env' overlay bs merged := by
  induction bs generalizing merged with
  | nil => rfl
  | cons b bs ih =>
    rw [applyAll, applyAll, ← hsame b List.mem_cons_self merged hm]
    cases hnext : b.apply env overlay merged with
    | error e => rfl
    | ok next =>
      have hnext' := hkeeps b List.mem_cons_self merged next hm hnext
      exact ih hnext' (fun c hc => hkeeps c (List.mem_cons_of_mem b hc)) fun c hc => hsame c (List.mem_cons_of_mem b hc)

/-- The fallbacks before one that fails have the same effect with both environments. -/
theorem applyAll_eq_error {raw : String} (h : applyAll env overlay bs merged = .ok merged') (hb : b ∈ bs)
    (hothers : ∀ c ∈ bs, c ≠ b → env.get? c.variableName = env'.get? c.variableName)
    (hunset : b.isSetBy overlay = false) (hraw : env'.get? b.variableName = some raw) (hv : b.value? raw = none) :
    applyAll env' overlay bs merged = .error (.notAnInteger b.variableName raw) := by
  induction bs generalizing merged with
  | nil => exact absurd hb List.not_mem_nil
  | cons c bs ih =>
    obtain ⟨next, hnext, hrest⟩ := exists_of_applyAll_cons h
    rw [applyAll]
    by_cases hc : c = b
    · rw [hc, apply_eq_error hunset hraw hv]
      rfl
    · rw [← apply_eq_of_get?_eq (hothers c List.mem_cons_self hc), hnext]
      have hmem : b ∈ bs := (List.mem_cons.1 hb).resolve_left (Ne.symm hc)
      exact ih hrest hmem fun d hd => hothers d (List.mem_cons_of_mem c hd)

/-- Every field that a variable can set has a variable of its own. -/
theorem eq_of_variableName_eq (ha : a ∈ all) (hb : b ∈ all) (h : a.variableName = b.variableName) : a = b := by
  have hdistinct : ∀ a ∈ all, ∀ b ∈ all, a.variableName = b.variableName → a = b := by decide
  exact hdistinct a ha b hb h

/-- A variable that is passed over with either environment makes no difference. -/
theorem applyAll_of_isPassedOver (hb : b ∈ all) (h : b.IsPassedOver overlay env merged)
    (h' : b.IsPassedOver overlay env' merged)
    (hothers : ∀ name, name ≠ b.variableName → env.get? name = env'.get? name) :
    applyAll env overlay all merged = applyAll env' overlay all merged := by
  have hkeeps (e : Environment) (m m' : Datum) (c : Fallback) (hm : b.IsPassedOver overlay e m)
      (hnext : c.apply env overlay m = .ok m') : b.IsPassedOver overlay e m' :=
    hm.imp_right fun ⟨hread, ts, hlist⟩ => ⟨hread, ts, hasList_apply hlist hnext⟩
  apply applyAll_congr (P := fun m => b.IsPassedOver overlay env m ∧ b.IsPassedOver overlay env' m) ⟨h, h'⟩
  · exact fun c _ m m' hm hnext => ⟨hkeeps env m m' c hm.1 hnext, hkeeps env' m m' c hm.2 hnext⟩
  · intro c hc m hm
    by_cases hcb : c.variableName = b.variableName
    · obtain rfl := eq_of_variableName_eq hc hb hcb
      rw [apply_of_isPassedOver hm.1, apply_of_isPassedOver hm.2]
    · exact apply_eq_of_get?_eq (hothers _ hcb)

end Fallback

namespace SettingsField
variable {f : SettingsField} {b : Fallback} {overlay : Datum}

/-- The document has the key of the field in its section, or an element at the place of the field if the section is a
list. -/
def IsSetIn (f : SettingsField) (overlay : Datum) : Prop :=
  ∃ s v, overlay.child? f.sectionName = some s ∧ s.field? f.key f.position = some v

theorem of_fallback?_eq_some (hb : f.fallback? = some b) : b ∈ Fallback.all ∧ b.path = f.path := by
  refine ⟨List.mem_of_find?_eq_some hb, ?_⟩
  simpa using List.find?_some hb

theorem IsSetIn.cases (h : f.IsSetIn overlay) :
    (overlay.get? f.path).isSome = true ∨ ∃ ts, overlay.child? f.sectionName = some (.list ts) := by
  obtain ⟨s, v, hs, hv⟩ := h
  cases s with
  | table es =>
    left
    rw [path, get?_two, hs, Option.bind_some]
    exact Option.isSome_iff_exists.2 ⟨v, hv⟩
  | list ts => exact Or.inr ⟨ts, hs⟩
  | _ => exact absurd hv (by simp [field?])

/-- A section that is a list in the document stays one over the defaults. -/
theorem hasList_overDefaults (hf : f ∈ all) (hd : overlay.DistinctKeys) {ts : List Datum}
    (hs : overlay.child? f.sectionName = some (.list ts)) :
    HasList f.sectionName ts (Settings.overDefaults overlay) := by
  cases overlay with
  | table es =>
    have hdefaults : (Assoc.keys [("trust", Settings.default.trust.toDatum),
        ("discovery", Settings.default.discovery.toDatum), ("service", Settings.default.service.toDatum),
        ("events", Settings.default.events.toDatum), ("logging", Settings.default.logging.toDatum)]).Nodup := by decide
    refine ⟨⟨_, ?_, nodup_keys_mergeEntries hdefaults es⟩, (child?_overDefaults hf hd rfl).1 _ hs rfl⟩
    rw [Settings.overDefaults, Settings.toDatum, merge]
  | _ => exact absurd hs (by simp [child?])

end SettingsField

namespace Settings
variable {f : SettingsField} {b : Fallback} {overlay : Datum} {env env' : Environment}

/-- If the document sets a field that a variable can set, then two environments that differ in this variable only load
the same settings, or fail in the same way: always if the document has the key of the field, and if the section of the
field is a list, then as long as the variable, if it is there, can be read. A variable that cannot be read makes loading
fail in this case, although it is of no use. -/
theorem set_fields_are_undisturbed (hf : f ∈ SettingsField.all) (hb : f.fallback? = some b) (hd : overlay.DistinctKeys)
    (hset : f.IsSetIn overlay) (hothers : ∀ name, name ≠ b.variableName → env.get? name = env'.get? name) :
    ((overlay.get? f.path).isSome = true → resolve overlay env = resolve overlay env') ∧
    (b.CanRead env → b.CanRead env' → resolve overlay env = resolve overlay env') ∧
    (∀ ts c raw, overlay.child? f.sectionName = some (.list ts) → resolve overlay env = .ok c →
      env'.get? b.variableName = some raw → b.value? raw = none →
      resolve overlay env' = .error (.notAnInteger b.variableName raw)) := by
  obtain ⟨hall, hpath⟩ := SettingsField.of_fallback?_eq_some hb
  have hsection : b.sectionName = f.sectionName := (List.cons.inj hpath).1
  have hkey : b.isSetBy overlay = (overlay.get? f.path).isSome := by rw [← hpath]; rfl
  have hlist (ts : List Datum) (hs : overlay.child? f.sectionName = some (.list ts)) :
      HasList b.sectionName ts (overDefaults overlay) :=
    hsection.symm ▸ SettingsField.hasList_overDefaults hf hd hs
  have hsame (h : b.IsPassedOver overlay env (overDefaults overlay))
      (h' : b.IsPassedOver overlay env' (overDefaults overlay)) : resolve overlay env = resolve overlay env' := by
    rw [resolve, resolve, Fallback.applyAll_of_isPassedOver hall h h' hothers]
  refine ⟨fun hk => ?_, fun hread hread' => ?_, fun ts c raw hs hc hraw hv => ?_⟩
  · exact hsame (Or.inl (hkey.trans hk)) (Or.inl (hkey.trans hk))
  · rcases hset.cases with hk | ⟨ts, hs⟩
    · exact hsame (Or.inl (hkey.trans hk)) (Or.inl (hkey.trans hk))
    · exact hsame (Or.inr ⟨hread, ts, hlist ts hs⟩) (Or.inr ⟨hread', ts, hlist ts hs⟩)
  · obtain ⟨merged, hmerged, -, -⟩ := exists_of_resolve hc
    -- a key is looked for in tables only, so that the list does not count as having the field
    have hunset : b.isSetBy overlay = false := by
      rw [hkey, SettingsField.path, get?_two, hs]
      rfl
    have herror := Fallback.applyAll_eq_error hmerged hall
      (fun c hc hne => hothers _ fun he => hne (Fallback.eq_of_variableName_eq hc hall he)) hunset hraw hv
    rw [resolve, herror]
    rfl

theorem get?_singleton_of_ne (x raw : String) : ∀ name, name ≠ x →
    Assoc.get? ([(x, raw)] : Environment) name = Assoc.get? ([] : Environment) name := fun _ h => if_neg (Ne.symm h)

/-- The document has the timeout by its place and the confirmations by their key. -/
theorem undisturbed_of_mixedDocument :
    let overlay : Datum :=
      .table [("discovery", .list [.int 30]), ("trust", .table [("confirmations_required", .int 3)])]
    SettingsField.queryTimeoutSecs.IsSetIn overlay ∧ SettingsField.confirmationsRequired.IsSetIn overlay ∧
      resolve overlay [("ENTCAPS_QUERY_TIMEOUT_SECS", " 7 ")] = resolve overlay [] ∧
      resolve overlay [("ENTCAPS_CONFIRMATIONS_REQUIRED", "lots")] = resolve overlay [] ∧
      resolve overlay [("ENTCAPS_QUERY_TIMEOUT_SECS", "lots")] =
        .error (.notAnInteger "ENTCAPS_QUERY_TIMEOUT_SECS" "lots") := by
  intro overlay
  have hd : overlay.DistinctKeys := by
    have hdocument : Toml.parse? "discovery = [30]\n[trust]\nconfirmations_required = 3" = some overlay := by cbv
    exact Toml.distinctKeys_of_parse? hdocument
  have htimeout : SettingsField.queryTimeoutSecs.IsSetIn overlay := ⟨.list [.int 30], .int 30, rfl, rfl⟩
  have hconfirmations : SettingsField.confirmationsRequired.IsSetIn overlay :=
    ⟨.table [("confirmations_required", .int 3)], .int 3, rfl, rfl⟩
  have hresolved : resolve overlay [] = .ok ⟨⟨3⟩, ⟨30⟩, .default, .default, .default⟩ := rfl
  have hmem : SettingsField.queryTimeoutSecs ∈ SettingsField.all := by simp [SettingsField.all]
  have hmem' : SettingsField.confirmationsRequired ∈ SettingsField.all := by simp [SettingsField.all]
  have hnumber : Fallback.CanRead ⟨"ENTCAPS_QUERY_TIMEOUT_SECS", "discovery", "query_timeout_secs", true⟩
      [("ENTCAPS_QUERY_TIMEOUT_SECS", " 7 ")] := fun raw hraw => by
    obtain rfl := Option.some.inj hraw
    exact ⟨.int 7, rfl⟩
  have hnothing (b : Fallback) : b.CanRead [] := fun raw hraw => absurd hraw (by simp)
  have hseven := get?_singleton_of_ne "ENTCAPS_QUERY_TIMEOUT_SECS" " 7 "
  have hlots := get?_singleton_of_ne "ENTCAPS_QUERY_TIMEOUT_SECS" "lots"
  have hlots' := get?_singleton_of_ne "ENTCAPS_CONFIRMATIONS_REQUIRED" "lots"
  obtain ⟨-, hread, -⟩ := set_fields_are_undisturbed hmem rfl hd htimeout hseven
  obtain ⟨hkey, -, -⟩ := set_fields_are_undisturbed hmem' rfl hd hconfirmations hlots'
  obtain ⟨-, -, herror⟩ := set_fields_are_undisturbed hmem rfl hd htimeout fun name hname => (hlots name hname).symm
  exact ⟨htimeout, hconfirmations, hread hnumber (hnothing _), hkey rfl, herror _ _ _ rfl hresolved rfl rfl⟩

/-- The document has a timeout, by its place, and a variable that is not used for it makes loading fail. -/
theorem not_undisturbed_of_listedTimeout :
    let overlay : Datum := .table [("discovery", .list [.int 30])]
    Toml.parse? "discovery = [30]" = some overlay ∧ SettingsField.queryTimeoutSecs.IsSetIn overlay ∧
      resolve overlay [] = .ok { Settings.default with discovery := ⟨30⟩ } ∧
      resolve overlay [("ENTCAPS_QUERY_TIMEOUT_SECS", "lots")] =
        .error (.notAnInteger "ENTCAPS_QUERY_TIMEOUT_SECS" "lots") ∧
      resolve overlay [("ENTCAPS_QUERY_TIMEOUT_SECS", "lots")] ≠ resolve overlay [] := by
  intro overlay
  have hresolved : resolve overlay [] = .ok { Settings.default with discovery := ⟨30⟩ } := rfl
  have herror : resolve overlay [("ENTCAPS_QUERY_TIMEOUT_SECS", "lots")] =
      .error (.notAnInteger "ENTCAPS_QUERY_TIMEOUT_SECS" "lots") := rfl
  refine ⟨by cbv, ⟨.list [.int 30], .int 30, rfl, rfl⟩, hresolved, herror, ?_⟩
  rw [herror, hresolved]
  simp

end Settings
end PresenceCaps
