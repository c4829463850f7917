import CallerGraph.Json.Reader

/-!
# Written documents are read back

A document that is written, on one line or indented, is read back as the value
that it was written for, whatever characters its texts have.  This is so for
values without numbers: a number is kept as it is spelled, and not every
spelling is one.

The readers take the characters from a place on, so everything is said of a
written part with some `rest` behind it.  A text is read back as it is because
no character is half of a surrogate pair.  Values are read back by induction on
the value, the items of an array and the fields of an object by induction on
their list; the budget that the readers need is never more than the number of
characters that were written.
-/

namespace CallerGraph

namespace Json

variable {layout : Layout} {depth budget : Nat} {cs rest : List Char}

/-! ## Strings -/

/-- No character is half of a surrogate pair. -/
theorem not_half_toNat (c : Char) :
    isHighHalf c.toNat = false ∧ isLowHalf c.toNat = false := by
  have hvalid : c.toNat < 0xD800 ∨ 0xDFFF < c.toNat ∧ c.toNat < 0x110000 := c.valid
  unfold isHighHalf isLowHalf
  simp only [Bool.and_eq_false_iff, decide_eq_false_iff_not]
  omega

theorem textOfUnits?_map_toNat (cs : List Char) :
    textOfUnits? (cs.map Char.toNat) = some cs := by
  induction cs with
  | nil => rfl
  | cons c cs ih =>
      obtain ⟨hhigh, hlow⟩ := not_half_toNat c
      cases cs with
      | nil => simp [textOfUnits?, hhigh, hlow]
      | cons d cs =>
          rw [List.map_cons] at ih
          simp [textOfUnits?, hhigh, hlow, ih]

theorem codeUnits?_short {e c : Char} (hshort : shortEscape? e = some c) (rest : List Char) :
    codeUnits? ('\\' :: e :: rest) =
      (codeUnits? rest).map fun found => (c.toNat :: found.1, found.2) := by
  have hne : e ≠ 'u' := by
    rintro rfl
    cases hshort
  rw [codeUnits?]
  · simp only [hshort]
    cases codeUnits? rest <;> rfl
  · exact fun _ _ _ _ _ hu => absurd hu hne

theorem codeUnits?_unicode {a b c d : Char} {unit : Nat}
    (hunit : Text.hexQuad? a b c d = some unit) (rest : List Char) :
    codeUnits? ('\\' :: 'u' :: a :: b :: c :: d :: rest) =
      (codeUnits? rest).map fun found => (unit :: found.1, found.2) := by
  rw [codeUnits?]
  simp only [hunit]
  cases codeUnits? rest <;> rfl

theorem codeUnits?_plain {c : Char} (hquote : c ≠ '"') (hback : c ≠ '\\')
    (hcontrol : ¬ c.toNat < 0x20) (rest : List Char) :
    codeUnits? (c :: rest) =
      (codeUnits? rest).map fun found => (c.toNat :: found.1, found.2) := by
  rw [codeUnits?]
  · simp only [hcontrol, hback]
    cases codeUnits? rest <;> rfl
  · exact hquote
  · exact fun _ _ _ _ _ heq => absurd heq hback
  · exact fun _ _ heq => absurd heq hback

/-- **A character is one code unit,** however it is written. -/
theorem codeUnits?_escapeChar (c : Char) (rest : List Char) :
    codeUnits? (escapeChar c ++ rest) =
      (codeUnits? rest).map fun found => (c.toNat :: found.1, found.2) := by
  unfold escapeChar
  split
  case h_8 _ hquote hback _ _ _ _ _ =>
    by_cases hcontrol : c.toNat < 0x20
    · have hhigh := Text.hexValue?_hexDigit (by omega : c.toNat / 16 < 16)
      have hlow := Text.hexValue?_hexDigit (by omega : c.toNat % 16 < 16)
      have hunit : Text.hexQuad? '0' '0' (Text.hexDigit (c.toNat / 16))
          (Text.hexDigit (c.toNat % 16)) = some c.toNat := by
        have hzero : Text.hexValue? '0' = some 0 := by decide
        have hsum : c.toNat / 16 * 16 + c.toNat % 16 = c.toNat := by omega
        simp [Text.hexQuad?, hhigh, hlow, hzero, hsum]
      rw [if_pos hcontrol]
      exact codeUnits?_unicode hunit rest
    · rw [if_neg hcontrol]
      exact codeUnits?_plain hquote hback hcontrol rest
  all_goals exact codeUnits?_short rfl rest

theorem codeUnits?_flatMap (cs rest : List Char) :
    codeUnits? (cs.flatMap escapeChar ++ '"' :: rest) = some (cs.map Char.toNat, rest) := by
  induction cs with
  | nil => rw [List.flatMap_nil, List.nil_append, codeUnits?, List.map_nil]
  | cons c cs ih =>
      rw [List.flatMap_cons, List.append_assoc, codeUnits?_escapeChar, ih]
      rfl

/-- **A text is read back.** -/
theorem stringRest?_quote (text : String) (rest : List Char) :
    ∃ behind, (quote text).toList ++ rest = '"' :: behind ∧
      stringRest? behind = some (some text, rest) := by
  refine ⟨text.toList.flatMap escapeChar ++ '"' :: rest, ?_, ?_⟩
  · simp [quote]
  · rw [stringRest?, codeUnits?_flatMap]
    change some ((textOfUnits? (text.toList.map Char.toNat)).map String.ofList, rest) = _
    rw [textOfUnits?_map_toNat, Option.map_some, String.ofList_toList]

/-! ## White space -/

theorem skipSpace_cons {c : Char} (hspace : isSpace c = false) (cs : List Char) :
    skipSpace (c :: cs) = c :: cs := by
  rw [skipSpace, List.dropWhile_cons_of_neg (Bool.eq_false_iff.1 hspace)]

@[simp] theorem skipSpace_skipSpace (cs : List Char) :
    skipSpace (skipSpace cs) = skipSpace cs := by
  unfold skipSpace
  induction cs with
  | nil => rfl
  | cons c cs ih =>
      cases hspace : isSpace c with
      | true => simpa [hspace] using ih
      | false => simp [hspace]

/-- A line break is white space and nothing else. -/
@[simp] theorem skipSpace_lineBreak (layout : Layout) (depth : Nat) (cs : List Char) :
    skipSpace ((layout.lineBreak depth).toList ++ cs) = skipSpace cs := by
  cases layout with
  | compact => rfl
  | indented =>
      have hspaces : ∀ c ∈ List.replicate (2 * depth) ' ', isSpace c = true := by
        intro c hc
        rw [List.eq_of_mem_replicate hc]
        rfl
      have hbreak : (Layout.lineBreak .indented depth).toList =
          '\n' :: List.replicate (2 * depth) ' ' := by
        simp [Layout.lineBreak]
      rw [hbreak, List.cons_append]
      change skipSpace (List.replicate (2 * depth) ' ' ++ cs) = skipSpace cs
      exact List.dropWhile_append_of_pos hspaces

/-- White space in front of a value is passed over. -/
theorem value?_congr {others : List Char} (hskip : skipSpace cs = skipSpace others) :
    value? budget cs = value? budget others := by
  cases budget with
  | zero => rfl
  | succ budget => simp only [value?, hskip]

theorem items?_congr {others : List Char} (hskip : skipSpace cs = skipSpace others) :
    items? budget cs = items? budget others := by
  cases budget with
  | zero => rfl
  | succ budget => simp only [items?, value?_congr hskip]

theorem fields?_congr {others : List Char} (hskip : skipSpace cs = skipSpace others) :
    fields? budget cs = fields? budget others := by
  cases budget with
  | zero => rfl
  | succ budget => simp only [fields?, hskip]

/-! ## Values -/

/-- The value is read back wherever it is written, with a step for each of its
characters. -/
def ReadBack (layout : Layout) (value : Json) : Prop :=
  ∀ depth budget : Nat, (value.writeAt layout depth).toList.length ≤ budget → ∀ rest,
    value? budget ((value.writeAt layout depth).toList ++ rest) = some (value, rest)

/-- An array with an item is read by its items. -/
theorem value?_array (hitem : ∀ rest, skipSpace cs ≠ ']' :: rest) :
    value? (budget + 1) ('[' :: cs) =
      (items? budget cs).map fun found => (array found.1, found.2) := by
  rw [value?, skipSpace_cons rfl]
  simp only
  rw [items?_congr (skipSpace_skipSpace cs)]

/-- An object with a field is read by its fields. -/
theorem value?_object (hfield : ∀ rest, skipSpace cs ≠ '\x7d' :: rest) :
    value? (budget + 1) ('\x7b' :: cs) =
      (fields? budget cs).map fun found => (objectOf found.1, found.2) := by
  rw [value?, skipSpace_cons rfl]
  simp only
  rw [fields?_congr (skipSpace_skipSpace cs)]

/-- No value starts with a closing bracket. -/
theorem ReadBack.skipSpace_ne {value : Json} (h : ReadBack layout value) (rest : List Char) :
    skipSpace ((value.writeAt layout depth).toList ++ cs) ≠ ']' :: rest := by
  intro hskip
  have hread := h depth _ (Nat.le_succ _) cs
  rw [value?_congr (hskip.trans (skipSpace_cons rfl rest).symm)] at hread
  cases hread

/-- An item with a closing bracket behind it is the last. -/
theorem items?_last {item : Json} {behind : List Char}
    (hread : value? budget cs = some (item, behind)) (hclose : skipSpace behind = ']' :: rest) :
    items? (budget + 1) cs = some ([item], rest) := by
  simp only [items?, hread, hclose, Option.bind_eq_bind, Option.bind_some]
  rfl

/-- An item with a comma behind it has others after it. -/
theorem items?_more {item : Json} {items : List Json} {behind others : List Char}
    (hread : value? budget cs = some (item, behind)) (hcomma : skipSpace behind = ',' :: others)
    (hmore : items? budget others = some (items, rest)) :
    items? (budget + 1) cs = some (item :: items, rest) := by
  simp only [items?, hread, hcomma, hmore, Option.bind_eq_bind, Option.bind_some]
  rfl

/-- **The items of an array are read back.** -/
theorem items?_write {item : Json} {items : List Json} (hitem : ReadBack layout item)
    (hitems : ∀ item ∈ items, ReadBack layout item)
    (hbudget : (item.writeAt layout depth).toList.length +
      (writeItems layout depth items).toList.length < budget) (outer : Nat) (rest : List Char) :
    items? budget ((item.writeAt layout depth).toList ++ ((writeItems layout depth items).toList ++
      ((layout.lineBreak outer).toList ++ ']' :: rest))) = some (item :: items, rest) := by
  obtain ⟨budget, rfl⟩ := Nat.exists_eq_succ_of_ne_zero (Nat.ne_zero_of_lt hbudget)
  induction items generalizing item budget with
  | nil =>
      apply items?_last (hitem depth budget (by omega) _)
      rw [writeItems, String.toList_empty, List.nil_append, skipSpace_lineBreak,
        skipSpace_cons rfl]
  | cons next items ih =>
      have hwritten : (writeItems layout depth (next :: items)).toList =
          ',' :: ((layout.lineBreak depth).toList ++ ((next.writeAt layout depth).toList ++
            (writeItems layout depth items).toList)) := by
        simp [writeItems]
      rw [hwritten] at hbudget ⊢
      simp only [List.length_cons, List.length_append] at hbudget
      obtain ⟨budget, rfl⟩ := Nat.exists_eq_succ_of_ne_zero (by omega : budget ≠ 0)
      have hrest := ih (hitems next List.mem_cons_self)
        (fun that hthat => hitems that (List.mem_cons_of_mem next hthat)) budget (by omega)
      simp only [List.cons_append, List.append_assoc]
      apply items?_more (hitem depth (budget + 1) (by omega) _) (skipSpace_cons rfl _)
      rw [items?_congr (skipSpace_lineBreak layout depth _), hrest]

/-- Behind a colon there is at most white space before a value. -/
theorem exists_colon (layout : Layout) (budget : Nat) (cs : List Char) :
    ∃ behind, layout.colon.toList ++ cs = ':' :: behind ∧
      value? budget behind = value? budget cs := by
  cases layout with
  | compact => exact ⟨cs, rfl, rfl⟩
  | indented => exact ⟨' ' :: cs, rfl, value?_congr rfl⟩

/-- A field with a closing brace behind it is the last. -/
theorem fields?_last {value : Json} {behind : List Char} (name : String)
    (hread : value? budget cs = some (value, behind)) (hclose : skipSpace behind = '\x7d' :: rest) :
    fields? (budget + 1) ((quote name).toList ++ (layout.colon.toList ++ cs)) =
      some ([(some name, value)], rest) := by
  obtain ⟨quoted, hquote, hname⟩ := stringRest?_quote name (layout.colon.toList ++ cs)
  obtain ⟨gap, hgap, hskip⟩ := exists_colon layout budget cs
  have hcolon : skipSpace (':' :: gap) = ':' :: gap := skipSpace_cons rfl gap
  rw [hquote, fields?, skipSpace_cons rfl]
  simp only [hname, hgap, hcolon, hskip, hread, hclose, Option.bind_eq_bind, Option.bind_some]
  rfl

/-- A field with a comma behind it has others after it. -/
theorem fields?_more {value : Json} {behind others : List Char}
    {fields : List (Option String × Json)} (name : String)
    (hread : value? budget cs = some (value, behind)) (hcomma : skipSpace behind = ',' :: others)
    (hmore : fields? budget others = some (fields, rest)) :
    fields? (budget + 1) ((quote name).toList ++ (layout.colon.toList ++ cs)) =
      some ((some name, value) :: fields, rest) := by
  obtain ⟨quoted, hquote, hname⟩ := stringRest?_quote name (layout.colon.toList ++ cs)
  obtain ⟨gap, hgap, hskip⟩ := exists_colon layout budget cs
  have hcolon : skipSpace (':' :: gap) = ':' :: gap := skipSpace_cons rfl gap
  rw [hquote, fields?, skipSpace_cons rfl]
  simp only [hname, hgap, hcolon, hskip, hread, hcomma, hmore, Option.bind_eq_bind,
    Option.bind_some]
  rfl

/-- **The fields of an object are read back.** -/
theorem fields?_write (name : String) {value : Json} {fields : List (String × Json)}
    (hvalue : ReadBack layout value) (hfields : ∀ field ∈ fields, ReadBack layout field.2)
    (hbudget : (value.writeAt layout depth).toList.length +
      (writeFields layout depth fields).toList.length < budget) (outer : Nat)
    (rest : List Char) :
    fields? budget ((quote name).toList ++ (layout.colon.toList ++
      ((value.writeAt layout depth).toList ++ ((writeFields layout depth fields).toList ++
        ((layout.lineBreak outer).toList ++ '\x7d' :: rest))))) =
      some (((name, value) :: fields).map fun field => (some field.1, field.2), rest) := by
  obtain ⟨budget, rfl⟩ := Nat.exists_eq_succ_of_ne_zero (Nat.ne_zero_of_lt hbudget)
  induction fields generalizing name value budget with
  | nil =>
      apply fields?_last name (hvalue depth budget (by omega) _)
      rw [writeFields, String.toList_empty, List.nil_append, skipSpace_lineBreak,
        skipSpace_cons rfl]
  | cons next fields ih =>
      have hwritten : (writeFields layout depth (next :: fields)).toList =
          ',' :: ((layout.lineBreak depth).toList ++ ((quote next.1).toList ++
            (layout.colon.toList ++ ((next.2.writeAt layout depth).toList ++
              (writeFields layout depth fields).toList)))) := by
        simp [writeFields]
      rw [hwritten] at hbudget ⊢
      simp only [List.length_cons, List.length_append] at hbudget
      obtain ⟨budget, rfl⟩ := Nat.exists_eq_succ_of_ne_zero (by omega : budget ≠ 0)
      have hrest := ih next.1 (hfields next List.mem_cons_self)
        (fun that hthat => hfields that (List.mem_cons_of_mem next hthat)) budget (by omega)
      simp only [List.cons_append, List.append_assoc]
      apply fields?_more name (hvalue depth (budget + 1) (by omega) _) (skipSpace_cons rfl _)
      rw [fields?_congr (skipSpace_lineBreak layout depth _), hrest]

/-- What is written item by item is read item by item. -/
theorem mapM_map_of_forall {α β : Type} {read : β → Option α} {write : α → β}
    (hread : ∀ item, read (write item) = some item) (items : List α) :
    (items.map write).mapM read = some items := by
  induction items with
  | nil => rfl
  | cons item items ih => simp [hread, ih]

/-- Fields whose names are texts make an object. -/
theorem objectOf_map_some (fields : List (String × Json)) :
    objectOf (fields.map fun field => (some field.1, field.2)) = object fields := by
  rw [objectOf, mapM_map_of_forall]
  exact fun _ => rfl

/-- A value that is made of texts and truth values. -/
inductive Textual : Json → Prop
  | null : Textual null
  | bool (value : Bool) : Textual (bool value)
  | string (text : String) : Textual (string text)
  | array {items : List Json} (hitems : ∀ item ∈ items, Textual item) : Textual (array items)
  | object {fields : List (String × Json)} (hfields : ∀ field ∈ fields, Textual field.2) :
      Textual (object fields)

theorem readBack_string (layout : Layout) (text : String) : ReadBack layout (string text) := by
  intro depth budget hbudget rest
  obtain ⟨behind, hquote, htext⟩ := stringRest?_quote text rest
  cases budget with
  | zero => simp [writeAt, quote] at hbudget
  | succ budget =>
      rw [writeAt, hquote, value?, skipSpace_cons rfl]
      simp only [htext]
      rfl

theorem readBack_array {items : List Json} (hitems : ∀ item ∈ items, ReadBack layout item) :
    ReadBack layout (array items) := by
  intro depth budget hbudget rest
  cases items with
  | nil =>
      cases budget with
      | zero => simp [writeAt] at hbudget
      | succ budget => simp [writeAt, value?, skipSpace, isSpace]
  | cons item items =>
      have hwritten : ((array (item :: items)).writeAt layout depth).toList =
          '[' :: ((layout.lineBreak (depth + 1)).toList ++
            ((item.writeAt layout (depth + 1)).toList ++
              ((writeItems layout (depth + 1) items).toList ++
                ((layout.lineBreak depth).toList ++ [']'])))) := by
        simp [writeAt]
      have hitem := hitems item List.mem_cons_self
      rw [hwritten] at hbudget ⊢
      simp only [List.length_cons, List.length_append] at hbudget
      obtain ⟨budget, rfl⟩ := Nat.exists_eq_succ_of_ne_zero (by omega : budget ≠ 0)
      have hbound : (item.writeAt layout (depth + 1)).toList.length +
          (writeItems layout (depth + 1) items).toList.length < budget := by
        omega
      have hread := items?_write hitem
        (fun that hthat => hitems that (List.mem_cons_of_mem item hthat)) hbound depth rest
      simp only [List.cons_append, List.append_assoc, List.nil_append]
      rw [value?_array, items?_congr (skipSpace_lineBreak layout (depth + 1) _), hread]
      · rfl
      · intro behind
        rw [skipSpace_lineBreak]
        exact hitem.skipSpace_ne behind

theorem readBack_object {fields : List (String × Json)}
    (hfields : ∀ field ∈ fields, ReadBack layout field.2) :
    ReadBack layout (object fields) := by
  intro depth budget hbudget rest
  cases fields with
  | nil =>
      cases budget with
      | zero => simp [writeAt] at hbudget
      | succ budget => simp [writeAt, value?, skipSpace, isSpace]
  | cons field fields =>
      obtain ⟨name, value⟩ := field
      have hwritten : ((object ((name, value) :: fields)).writeAt layout depth).toList =
          '\x7b' :: ((layout.lineBreak (depth + 1)).toList ++ ((quote name).toList ++
            (layout.colon.toList ++ ((value.writeAt layout (depth + 1)).toList ++
              ((writeFields layout (depth + 1) fields).toList ++
                ((layout.lineBreak depth).toList ++ ['\x7d'])))))) := by
        simp [writeAt]
      rw [hwritten] at hbudget ⊢
      simp only [List.length_cons, List.length_append] at hbudget
      obtain ⟨budget, rfl⟩ := Nat.exists_eq_succ_of_ne_zero (by omega : budget ≠ 0)
      have hvalue : ReadBack layout value := hfields (name, value) List.mem_cons_self
      have hbound : (value.writeAt layout (depth + 1)).toList.length +
          (writeFields layout (depth + 1) fields).toList.length < budget := by
        omega
      have hread := fields?_write name hvalue
        (fun that hthat => hfields that (List.mem_cons_of_mem _ hthat)) hbound depth rest
      simp only [List.cons_append, List.append_assoc, List.nil_append]
      rw [value?_object, fields?_congr (skipSpace_lineBreak layout (depth + 1) _), hread]
      · simp only [Option.map_some, objectOf_map_some]
      · intro behind
        rw [skipSpace_lineBreak]
        obtain ⟨cs, hquote, -⟩ := stringRest?_quote name _
        rw [hquote, skipSpace_cons rfl]
        exact fun heq => nomatch heq

/-- **A textual value is read back.** -/
theorem Textual.readBack {value : Json} (h : value.Textual) (layout : Layout) :
    ReadBack layout value := by
  induction h with
  | null =>
      intro depth budget hbudget rest
      cases budget with
      | zero => simp [writeAt] at hbudget
      | succ budget => simp [writeAt, value?, skipSpace, isSpace]
  | bool value =>
      intro depth budget hbudget rest
      cases budget with
      | zero => cases value <;> simp [writeAt] at hbudget
      | succ budget => cases value <;> simp [writeAt, value?, skipSpace, isSpace]
  | string text => exact readBack_string layout text
  | array _ ih => exact readBack_array ih
  | object _ ih => exact readBack_object ih

/-- **A textual document is read back.** -/
theorem Textual.parse?_written {value : Json} (h : value.Textual) (layout : Layout) :
    parse? (value.write layout) = some value := by
  have hread := h.readBack layout 0 (2 * (value.write layout).toList.length + 1)
    (by unfold write; omega) []
  rw [List.append_nil, ← write] at hread
  rw [parse?, hread]
  rfl

end Json

end CallerGraph
