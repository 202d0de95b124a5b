import PresenceCaps.Proofs.Json.Scalars

/-!
Data that is printed as a JSON text is read back from it, as far as it has no table with a key twice, no number that is
no integer of 64 bits, and no more levels than the reader takes.
-/
namespace PresenceCaps.Json
variable {c close : Char} {cs rest text : List Char} {depth fuel : Nat} {t : Datum}

/-- Data with so many levels of lists and tables at most that a text can hold it without loss. -/
inductive Fits : Nat → Datum → Prop where
  | null {depth : Nat} : Fits depth .null
  | bool {depth : Nat} (b : Bool) : Fits depth (.bool b)
  | int {depth : Nat} {n : Int} (word : IsWord n) : Fits depth (.int n)
  | text {depth : Nat} (s : String) : Fits depth (.text s)
  | list {depth : Nat} {ts : List Datum} (each : ∀ t ∈ ts, Fits depth t) : Fits (depth + 1) (.list ts)
  | table {depth : Nat} {es : List (String × Datum)} (nodup : (Assoc.keys es).Nodup)
      (each : ∀ e ∈ es, Fits depth e.2) : Fits (depth + 1) (.table es)

/-! Items with commas between them -/

/-- No space and no closing mark: where an item starts. -/
def IsStart (c : Char) : Prop := isSpace c = false ∧ c ≠ ']' ∧ c ≠ '\x7d'

instance (c : Char) : Decidable (IsStart c) := by unfold IsStart; infer_instance

/-- The text of an item, wherever it stands: the item is read, and what follows is left. -/
structure Reads {α : Type} (item : List Char → Option (α × List Char)) (text : List Char) (a : α) : Prop where
  starts : ∃ c cs, text = c :: cs ∧ IsStart c
  reads : ∀ {rest : List Char}, Ends rest → item (text ++ rest) = some (a, rest)

theorem skipSpace_cons (h : isSpace c = false) (cs : List Char) : skipSpace (c :: cs) = c :: cs := by
  rw [skipSpace, List.dropWhile_cons_of_neg]
  simp [h]

theorem Reads.skipSpace {α : Type} {item : List Char → Option (α × List Char)} {a : α} (h : Reads item text a)
    (rest : List Char) : skipSpace (text ++ rest) = text ++ rest := by
  obtain ⟨c, cs, rfl, hc⟩ := h.starts
  exact skipSpace_cons hc.1 (cs ++ rest)

/-- A mark that ends a list or a table. -/
def Closes (c : Char) : Prop := c = ']' ∨ c = '\x7d'

theorem Closes.not_space (h : Closes c) : isSpace c = false := by obtain rfl | rfl := h <;> rfl

theorem Closes.ne_comma (h : Closes c) : c ≠ ',' := by obtain rfl | rfl := h <;> decide

theorem IsStart.ne_of_closes (h : IsStart c) (hclose : Closes close) : c ≠ close := by
  obtain rfl | rfl := hclose
  · exact h.2.1
  · exact h.2.2

section Items
variable {α : Type} {item : List Char → Option (α × List Char)} {render : α → List Char} {a : α} {as taken : List α}

theorem Reads.items?_last (h : Reads item text a) (hclose : Closes close) (rest : List Char) :
    items? close item taken (fuel + 1) (text ++ close :: rest) = some ((a :: taken).reverse, rest) := by
  have hread : item (text ++ close :: rest) = some (a, close :: rest) := h.reads (.cons (Or.inr hclose))
  simp only [items?, h.skipSpace, hread, skipSpace_cons hclose.not_space, bind, Option.bind]
  rw [if_neg hclose.ne_comma, if_pos trivial]
  rfl

theorem Reads.items?_comma (h : Reads item text a) (rest : List Char) :
    items? close item taken (fuel + 1) (text ++ ',' :: rest) = items? close item (a :: taken) fuel rest := by
  have hread : item (text ++ ',' :: rest) = some (a, ',' :: rest) := h.reads (.cons (Or.inl rfl))
  simp only [items?, h.skipSpace, hread, skipSpace_cons (c := ',') rfl, bind, Option.bind]
  exact if_pos trivial

theorem intercalate_comma (x y : List Char) (zs : List (List Char)) (rest : List Char) :
    [','].intercalate (x :: y :: zs) ++ rest = x ++ ',' :: ([','].intercalate (y :: zs) ++ rest) := by
  simp [List.intercalate_cons_cons]

theorem items?_intercalate (taken : List α) (hclose : Closes close) (hne : as ≠ [])
    (has : ∀ a ∈ as, Reads item (render a) a) (hfuel : as.length ≤ fuel) (rest : List Char) :
    items? close item taken fuel ([','].intercalate (as.map render) ++ close :: rest) =
      some (taken.reverse ++ as, rest) := by
  induction as generalizing taken fuel with
  | nil => exact absurd rfl hne
  | cons a as ih =>
    obtain ⟨ha, has⟩ := List.forall_mem_cons.1 has
    cases fuel with
    | zero => exact absurd hfuel (Nat.not_succ_le_zero _)
    | succ fuel =>
      cases as with
      | nil =>
        rw [List.map_singleton, List.intercalate_singleton, ha.items?_last hclose, List.reverse_cons]
      | cons b bs =>
        have hlater := ih (a :: taken) (List.cons_ne_nil b bs) has (Nat.le_of_succ_le_succ hfuel)
        rw [List.map_cons, List.map_cons, intercalate_comma, ha.items?_comma, ← List.map_cons, hlater,
          List.reverse_cons, List.append_assoc, List.singleton_append]

/-- There are as many commas as items, but for one. -/
theorem length_le_intercalate (render : α → List Char) (as : List α) :
    as.length ≤ ([','].intercalate (as.map render)).length + 1 := by
  induction as with
  | nil => exact Nat.zero_le _
  | cons a as ih =>
    cases as with
    | nil => exact Nat.le_add_left 1 _
    | cons b bs =>
      rw [List.map_cons, List.map_cons, List.intercalate_cons_cons, ← List.map_cons]
      simp only [List.length_append, List.length_cons, List.length_nil] at ih ⊢
      omega

theorem enclosed?_intercalate (hclose : Closes close) (has : ∀ a ∈ as, Reads item (render a) a) (rest : List Char) :
    enclosed? close item ([','].intercalate (as.map render) ++ close :: rest) = some (as, rest) := by
  cases as with
  | nil =>
    rw [List.map_nil, List.intercalate_nil, List.nil_append, enclosed?, skipSpace_cons hclose.not_space]
    exact if_pos rfl
  | cons a as =>
    have hlength : (a :: as).length ≤ ([','].intercalate ((a :: as).map render) ++ close :: rest).length + 1 := by
      have := length_le_intercalate render (a :: as)
      rw [List.length_append]
      omega
    have hitems := items?_intercalate [] hclose (List.cons_ne_nil a as) has hlength rest
    -- what comes first is the start of an item, so it is not the closing mark
    obtain ⟨c, cs, htext, hc⟩ : ∃ c cs, [','].intercalate ((a :: as).map render) ++ close :: rest = c :: cs ∧
        IsStart c := by
      obtain ⟨c, cs, hcs, hc⟩ := (has a List.mem_cons_self).starts
      cases as with
      | nil => exact ⟨c, cs ++ close :: rest, by simp [hcs], hc⟩
      | cons b bs => exact ⟨c, _, by rw [List.map_cons, List.map_cons, intercalate_comma, hcs, List.cons_append], hc⟩
    rw [htext] at hitems ⊢
    rw [enclosed?, skipSpace_cons hc.1]
    exact (if_neg (hc.ne_of_closes hclose)).trans hitems

end Items

/-! Values -/

theorem printItems_eq_map (ts : List Datum) : printItems ts = ts.map print := by
  induction ts with
  | nil => rfl
  | cons t ts ih => rw [printItems, ih, List.map_cons]

/-- A key, a colon and what stands under the key. -/
def printEntry (e : String × Datum) : String := quoted e.1 ++ ":" ++ print e.2

theorem printEntries_eq_map (es : List (String × Datum)) : printEntries es = es.map printEntry := by
  induction es with
  | nil => rfl
  | cons e es ih =>
    obtain ⟨k, t⟩ := e
    rw [printEntries, ih, List.map_cons]
    rfl

theorem toList_intercalate_map {α : Type} (f : α → String) (as : List α) :
    (",".intercalate (as.map f)).toList = [','].intercalate (as.map fun a => (f a).toList) := by
  rw [String.toList_intercalate, List.map_map]
  rfl

theorem toList_print_list (ts : List Datum) :
    (print (.list ts)).toList = '[' :: ([','].intercalate (ts.map fun t => (print t).toList) ++ [']']) := by
  rw [print, printItems_eq_map, String.toList_append, String.toList_append, toList_intercalate_map]
  rfl

theorem toList_print_table (es : List (String × Datum)) : (print (.table es)).toList =
    '\x7b' :: ([','].intercalate (es.map fun e => (printEntry e).toList) ++ ['\x7d']) := by
  rw [print, printEntries_eq_map, String.toList_append, String.toList_append, toList_intercalate_map]
  rfl

theorem toList_printEntry (e : String × Datum) :
    (printEntry e).toList = '"' :: (e.1.toList.flatMap escaped ++ '"' :: ':' :: (print e.2).toList) := by
  rw [printEntry, String.toList_append, String.toList_append, toList_quoted]
  simp

/-- Where no key comes twice, each entry goes to the end. -/
theorem foldl_set (more taken : List (String × Datum)) (h : (Assoc.keys (taken ++ more)).Nodup) :
    more.foldl (fun m e => Assoc.set m e.1 e.2) taken = taken ++ more := by
  induction more generalizing taken with
  | nil => rw [List.foldl_nil, List.append_nil]
  | cons e more ih =>
    have hnew : e.1 ∉ Assoc.keys taken := by
      rw [Assoc.keys, List.map_append, List.map_cons] at h
      intro hmem
      exact (List.nodup_append.1 h).2.2 e.1 hmem e.1 List.mem_cons_self rfl
    have hsplit : taken ++ e :: more = (taken ++ [e]) ++ more := by rw [List.append_assoc, List.singleton_append]
    rw [List.foldl_cons, Assoc.set_of_get?_eq_none (Assoc.get?_eq_none_iff.2 hnew), hsplit]
    exact ih (taken ++ [e]) (hsplit ▸ h)

theorem ofEntries_eq_table {es : List (String × Datum)} (h : (Assoc.keys es).Nodup) : ofEntries es = .table es :=
  congrArg Datum.table (foldl_set es [] h)

theorem value?_of_ne (hlist : c ≠ '[') (htable : c ≠ '\x7b') (cs : List Char) :
    value? depth (c :: cs) = word? (c :: cs) := by
  rw [value?]
  · intro cs h
    exact hlist (List.cons.inj h).1
  · intro cs h
    exact htable (List.cons.inj h).1

/-- A sign or a digit does not start anything but a number. -/
theorem value?_of_number (h : c = '-' ∨ isDecimal c = true) (cs : List Char) :
    value? depth (c :: cs) = number? (c :: cs) := by
  have hne (d : Char) (hd : ¬ (d = '-' ∨ isDecimal d = true)) : c ≠ d := fun heq => hd (heq ▸ h)
  rw [value?_of_ne (hne '[' (by decide)) (hne '\x7b' (by decide)), word?]
  · intro cs h
    exact hne 'n' (by decide) (List.cons.inj h).1
  · intro cs h
    exact hne 't' (by decide) (List.cons.inj h).1
  · intro cs h
    exact hne 'f' (by decide) (List.cons.inj h).1
  · intro cs h
    exact hne '"' (by decide) (List.cons.inj h).1

theorem isStart_of_number (h : c = '-' ∨ isDecimal c = true) : IsStart c := by
  have hne (d : Char) (hd : ¬ (d = '-' ∨ isDecimal d = true)) : c ≠ d := fun heq => hd (heq ▸ h)
  refine ⟨?_, hne ']' (by decide), hne '\x7d' (by decide)⟩
  simp only [isSpace, Bool.or_eq_false_iff, beq_eq_false_iff_ne]
  exact ⟨⟨⟨hne ' ' (by decide), hne '\n' (by decide)⟩, hne '\t' (by decide)⟩, hne '\r' (by decide)⟩

theorem reads_entry {e : String × Datum} (h : Reads (value? depth) (print e.2).toList e.2) :
    Reads (member? (value? depth)) (printEntry e).toList e where
  starts := ⟨'"', _, toList_printEntry e, by decide⟩
  reads {rest} hr := by
    have hvalue := h.reads hr
    have hkey := string?_quoted e.1 (':' :: ((print e.2).toList ++ rest))
    have htext : (printEntry e).toList ++ rest =
        '"' :: (e.1.toList.flatMap escaped ++ '"' :: (':' :: ((print e.2).toList ++ rest))) := by
      rw [toList_printEntry]
      simp
    rw [htext, member?, hkey]
    simp only [skipSpace_cons (c := ':') rfl, h.skipSpace, hvalue, bind, Option.bind]
    rfl

/-- Induction on the data: a text of its own stands for each scalar, and lists and tables are read item by item. -/
theorem Fits.reads (h : Fits depth t) : Reads (value? depth) (print t).toList t := by
  induction h with
  | null =>
    refine ⟨⟨'n', _, rfl, by decide⟩, fun _ => ?_⟩
    exact value?_of_ne (by decide) (by decide) _
  | bool b =>
    cases b with
    | false =>
      refine ⟨⟨'f', _, rfl, by decide⟩, fun _ => ?_⟩
      exact value?_of_ne (by decide) (by decide) _
    | true =>
      refine ⟨⟨'t', _, rfl, by decide⟩, fun _ => ?_⟩
      exact value?_of_ne (by decide) (by decide) _
  | @int depth n word =>
    obtain ⟨c, cs, hcs, hc⟩ := toString_starts n
    refine ⟨⟨c, cs, hcs, isStart_of_number hc⟩, fun {rest} hr => ?_⟩
    have hread := number?_toString word hr
    rw [print]
    rw [hcs, List.cons_append] at hread ⊢
    rw [value?_of_number hc, hread]
  | text s =>
    refine ⟨⟨'"', _, toList_quoted s, by decide⟩, fun {rest} _ => ?_⟩
    have hread := string?_quoted s rest
    rw [print, toList_quoted, List.cons_append, List.append_assoc, List.singleton_append,
      value?_of_ne (by decide) (by decide), word?, hread]
    rfl
  | @list depth ts each ih =>
    refine ⟨⟨'[', _, toList_print_list ts, by decide⟩, fun {rest} _ => ?_⟩
    have hitems := enclosed?_intercalate (Or.inl rfl : Closes ']') ih rest
    rw [toList_print_list, List.cons_append, List.append_assoc, List.singleton_append, value?, hitems]
    rfl
  | @table depth es nodup each ih =>
    refine ⟨⟨'\x7b', _, toList_print_table es, by decide⟩, fun {rest} _ => ?_⟩
    have hitems := enclosed?_intercalate (Or.inr rfl : Closes '\x7d') (fun e he => reads_entry (ih e he)) rest
    rw [toList_print_table, List.cons_append, List.append_assoc, List.singleton_append, value?, hitems,
      ← ofEntries_eq_table nodup]
    rfl

theorem parse?_print (h : Fits depthLimit t) : parse? (print t) = some t := by
  have hread := h.reads.reads .nil
  have hstart := h.reads.skipSpace []
  rw [List.append_nil] at hread hstart
  rw [parse?, hstart, hread]
  rfl

end PresenceCaps.Json
