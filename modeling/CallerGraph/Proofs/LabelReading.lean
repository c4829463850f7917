import CallerGraph.Proofs.LabelGrammar

/-!
# What is read from a label

A label is trimmed and cut, and the pieces become the parts.  `trimChars`
takes the blanks from both ends, whatever they are, and leaves a text whose
ends are no blanks; so the class, which starts where the text does, is never
left empty.  A usage count has a value when it is written in ASCII digits and
below `2 ^ 32`.
-/

namespace CallerGraph

namespace Text

variable {cs : List Char}

theorem isBlank_head_skipBlanks (cs : List Char) :
    ∀ c ∈ (skipBlanks cs).head?, isBlank c = false := by
  intro c hc
  have hhead := List.head?_dropWhile_not isBlank cs
  rw [show (cs.dropWhile isBlank).head? = some c from hc] at hhead
  exact hhead

/-- What trimming takes from the end. -/
theorem exists_skipBlanks_eq_trimChars_append (cs : List Char) :
    ∃ after, Blanks after ∧ skipBlanks cs = trimChars cs ++ after := by
  obtain ⟨after, hafter, hreverse⟩ :=
    LabelParts.exists_blanks_append_skipBlanks (skipBlanks cs).reverse
  refine ⟨after.reverse, fun c hc => hafter c (List.mem_reverse.1 hc), ?_⟩
  rw [trimChars, ← List.reverse_append, ← hreverse, List.reverse_reverse]

/-- Trimming takes blanks from both ends. -/
theorem exists_blanks_trimChars (cs : List Char) :
    ∃ before after, Blanks before ∧ Blanks after ∧ cs = before ++ trimChars cs ++ after := by
  obtain ⟨before, hbefore, hcs⟩ := LabelParts.exists_blanks_append_skipBlanks cs
  obtain ⟨after, hafter, hskip⟩ := exists_skipBlanks_eq_trimChars_append cs
  refine ⟨before, after, hbefore, hafter, ?_⟩
  rw [List.append_assoc, ← hskip, ← hcs]

/-- The ends of a trimmed text are no blanks. -/
theorem bare_trimChars (cs : List Char) : Bare (trimChars cs) := by
  constructor
  · obtain ⟨after, -, hskip⟩ := exists_skipBlanks_eq_trimChars_append cs
    intro c hc
    apply isBlank_head_skipBlanks cs
    rw [hskip]
    exact List.mem_head?_append_of_mem_head? hc
  · intro c hc
    rw [trimChars, List.getLast?_reverse] at hc
    exact isBlank_head_skipBlanks _ c hc

/-- A text that starts with a character that is no blank is not trimmed
away. -/
theorem trimChars_ne_nil {c : Char} (hc : isBlank c = false) : trimChars (c :: cs) ≠ [] := by
  intro hnil
  obtain ⟨before, after, hbefore, hafter, hcs⟩ := exists_blanks_trimChars (c :: cs)
  have hmem : c ∈ before ++ trimChars (c :: cs) ++ after := hcs ▸ List.mem_cons_self
  rw [hnil, List.append_nil, List.mem_append] at hmem
  rcases hmem with hmem | hmem
  · exact absurd (hbefore c hmem) (by simp [hc])
  · exact absurd (hafter c hmem) (by simp [hc])

end Text

namespace LabelParts

open Text

variable {cut : Cut} {text digits : List Char} {count : Nat}

/-- The value of a usage count: ASCII digits, read in base ten, below the
bound. -/
theorem usageValue?_eq_some_iff (hsome : digits ≠ []) :
    usageValue? digits = some count ↔
      (∀ d ∈ digits, d.isDigit = true) ∧ Nat.ofDigitChars 10 digits 0 = count ∧ count < UInt32.size := by
  rw [usageValue?, Option.filter_eq_some_iff, decimal?, Option.ite_none_right_eq_some,
    Option.some.injEq, List.all_eq_true, decide_eq_true_iff]
  constructor
  · rintro ⟨⟨⟨-, hascii⟩, hvalue⟩, hbound⟩
    exact ⟨hascii, hvalue, hbound⟩
  · rintro ⟨hascii, hvalue, hbound⟩
    exact ⟨⟨⟨hsome, hascii⟩, hvalue⟩, hbound⟩

theorem Cut.Writes.digits_ne_nil (h : cut.Writes text)
    (hdigits : cut.annotations.usageDigits = some digits) : digits ≠ [] := by
  cases h with
  | mk _ _ hmember =>
    cases hmember with
    | mk _ _ _ hbehind =>
      cases hbehind with
      | mk hcounted _ =>
        cases hdigits
        cases hcounted with
        | count _ _ hsome _ _ _ _ => exact hsome

/-- The class starts where the text does. -/
theorem Cut.Writes.exists_cons (h : cut.Writes text) (hbare : Bare text) :
    ∃ c piece, cut.className = c :: piece ∧ isBlank c = false := by
  cases h with
  | @mk className methodName params member annotations hsome _ _ =>
    obtain ⟨c, piece, rfl⟩ := List.exists_cons_of_ne_nil hsome
    exact ⟨c, piece, rfl, hbare.1 c rfl⟩

/-- **A label is read by its grammar.**  After trimming, it is read exactly
when it has a cut.  The parts are those of one cut, and every other has a
longer class, or the same class and longer parameters.  The class is trimmed
and never empty; the parameters are trimmed, with angle brackets as entities,
and a single space when there are none; method and package are as written.
Usages are told when they are written in ASCII digits, with a value below
`2 ^ 32`. -/
theorem parse?_reads_grammar (label : String) :
    ∃ before text after, text = trimChars label.toList ∧
      Blanks before ∧ Blanks after ∧ label.toList = before ++ text ++ after ∧ Bare text ∧
      ((parse? label).isSome = true ↔ ∃ cut : Cut, cut.Writes text) ∧
      ∀ parts, parse? label = some parts → ∃ cut : Cut, cut.Writes text ∧
        (∀ other : Cut, other.Writes text → cut = other ∨ cut.Precedes other) ∧
        parts.className = String.ofList (trimChars cut.className) ∧
        parts.className ≠ "" ∧
        parts.methodName = String.ofList cut.methodName ∧
        parts.params = String.ofList (if trimChars cut.params = [] then [' ']
          else (trimChars cut.params).flatMap fun c =>
            if c = '<' then "&lt;".toList else if c = '>' then "&gt;".toList else [c]) ∧
        parts.packageName = String.ofList cut.annotations.package ∧
        (∀ count, parts.usages = some count ↔
          ∃ digits, cut.annotations.usageDigits = some digits ∧
            (∀ d ∈ digits, d.isDigit = true) ∧
            Nat.ofDigitChars 10 digits 0 = count ∧ count < UInt32.size) ∧
        parts.isOverride = cut.annotations.isOverride := by
  have hbare : Bare (trimChars label.toList) := bare_trimChars label.toList
  obtain ⟨before, after, hbefore, hafter, hlabel⟩ := exists_blanks_trimChars label.toList
  refine ⟨before, trimChars label.toList, after, rfl, hbefore, hafter, hlabel, hbare, ?_, ?_⟩
  · rw [parse?, Option.isSome_map, Option.isSome_iff_exists]
    constructor
    · rintro ⟨cut, hcut⟩
      exact ⟨cut, writes_of_cut? hcut⟩
    · rintro ⟨cut, hcut⟩
      obtain ⟨found, hfound, -⟩ := exists_cut? hcut
      exact ⟨found, hfound⟩
  · intro parts hparts
    obtain ⟨cut, hcut, rfl⟩ := Option.map_eq_some_iff.1 hparts
    have hwrites := writes_of_cut? hcut
    refine ⟨cut, hwrites, ?_, rfl, ?_, rfl, rfl, rfl, ?_, rfl⟩
    · intro other hother
      obtain ⟨found, hfound, hcompare⟩ := exists_cut? hother
      obtain rfl : cut = found := Option.some.inj (hcut.symm.trans hfound)
      exact hcompare
    · obtain ⟨c, piece, hclass, hc⟩ := hwrites.exists_cons hbare
      intro hempty
      have hnil : trimChars cut.className = [] := by
        have hlist := congrArg String.toList hempty
        rwa [ofCut, String.toList_ofList] at hlist
      rw [hclass] at hnil
      exact trimChars_ne_nil hc hnil
    · intro count
      rw [ofCut, Option.bind_eq_some_iff]
      constructor
      · rintro ⟨digits, hdigits, hvalue⟩
        exact ⟨digits, hdigits, (usageValue?_eq_some_iff (hwrites.digits_ne_nil hdigits)).1 hvalue⟩
      · rintro ⟨digits, hdigits, hvalue⟩
        exact ⟨digits, hdigits, (usageValue?_eq_some_iff (hwrites.digits_ne_nil hdigits)).2 hvalue⟩

/-- A label with two cuts: the class could also be `A.b()(c` and the method
`d`. -/
example : parse? "A.b()(c.d()  (p)" = some ⟨"A", "b", ")(c.d(", "p", none, false⟩ := by
  decide

end LabelParts

end CallerGraph
