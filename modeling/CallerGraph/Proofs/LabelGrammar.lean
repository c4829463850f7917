import CallerGraph.Label.Parts
import CallerGraph.Proofs.WrittenLine
import Mathlib.Data.List.TakeWhile

/-!
# The grammar of labels

How a label can be written is said here by rules, without any reading:
`Cut.Writes` holds of a cut and a text when the pieces of the cut, with the
brackets, blanks and marks that belong between them, make up the text.  A
text can have several cuts, since the class and the parameters are free.

The reader accepts exactly the texts that have a cut, and of several cuts it
finds the one with the shortest class and, among those with the same class,
with the shortest parameters.  There is only one such cut: where the class
and the parameters end decides everything else.
-/

namespace CallerGraph

namespace Text

/-- White space and nothing else. -/
def Blanks (cs : List Char) : Prop :=
  ∀ c ∈ cs, isBlank c = true

instance : DecidablePred Blanks :=
  fun cs => decidable_of_iff (cs.all isBlank = true) List.all_eq_true

section Runs

variable {p : Char → Bool} {run rest cs : List Char} {x : Char}

theorem takeWhile_run (hrun : ∀ c ∈ run, p c = true) (hstop : p x = false) :
    (run ++ x :: rest).takeWhile p = run := by
  rw [List.takeWhile_append_of_pos hrun, List.takeWhile_cons, if_neg (by simp [hstop]),
    List.append_nil]

theorem dropWhile_run (hrun : ∀ c ∈ run, p c = true) (hstop : p x = false) :
    (run ++ x :: rest).dropWhile p = x :: rest := by
  rw [List.dropWhile_append_of_pos hrun, List.dropWhile_cons, if_neg (by simp [hstop])]

/-- What is left behind a run starts with a character that does not belong
to it. -/
theorem run_of_dropWhile_eq_cons (h : cs.dropWhile p = x :: rest) :
    cs = cs.takeWhile p ++ x :: rest ∧ (∀ c ∈ cs.takeWhile p, p c = true) ∧ p x = false := by
  refine ⟨?_, fun c hc => List.mem_takeWhile_imp hc, ?_⟩
  · rw [← h, List.takeWhile_append_dropWhile]
  · have hhead := List.head?_dropWhile_not p cs
    rw [h] at hhead
    simpa using hhead

end Runs

end Text

namespace LabelParts

open Text

/-! ### The rules -/

/-- A usage count as it is written behind the parameters, or nothing. -/
inductive WritesUsages : Option (List Char) → List Char → Prop
  | absent : WritesUsages none []
  | count {before inner digits gap after : List Char}
      (hbefore : Blanks before) (hinner : Blanks inner)
      (hsome : digits ≠ []) (hdigits : ∀ d ∈ digits, isDecimalDigit d = true)
      (hwide : gap ≠ []) (hgap : Blanks gap) (hafter : Blanks after) :
      WritesUsages (some digits)
        (before ++ '(' :: (inner ++ digits ++ gap ++ "usages".toList ++ after ++ [')']))

/-- The override mark, or nothing. -/
def overrideMark (isOverride : Bool) : List Char :=
  if isOverride then "[Override]".toList else []

/-- The package in brackets behind white space, and the override mark. -/
inductive WritesPackage : List Char → Bool → List Char → Prop
  | mk {blanks package : List Char} (isOverride : Bool) (hwide : blanks ≠ [])
      (hblanks : Blanks blanks) (hpackage : ∀ c ∈ package, isPackageChar c = true) :
      WritesPackage package isOverride
        (blanks ++ '(' :: (package ++ ')' :: overrideMark isOverride))

/-- All that is written behind the parameters. -/
inductive WritesAnnotations : Annotations → List Char → Prop
  | mk {usages : Option (List Char)} {package counted closing : List Char} {isOverride : Bool}
      (hcounted : WritesUsages usages counted)
      (hclosing : WritesPackage package isOverride closing) :
      WritesAnnotations ⟨usages, package, isOverride⟩ (counted ++ closing)

/-- All that is written behind the class: method, parameters, annotations. -/
inductive WritesMember : List Char → List Char → Annotations → List Char → Prop
  | mk {methodName params behind : List Char} {annotations : Annotations}
      (hnamed : methodName ≠ []) (hname : ∀ c ∈ methodName, isNameChar c = true)
      (hline : '\n' ∉ params) (hbehind : WritesAnnotations annotations behind) :
      WritesMember methodName params annotations
        ('.' :: (methodName ++ '(' :: (params ++ ')' :: behind)))

/-- The whole label. -/
inductive Cut.Writes : Cut → List Char → Prop
  | mk {className methodName params member : List Char} {annotations : Annotations}
      (hsome : className ≠ []) (hline : '\n' ∉ className)
      (hmember : WritesMember methodName params annotations member) :
      Cut.Writes ⟨className, methodName, params, annotations⟩ (className ++ member)

/-! ### The end of a label -/

theorem skipBlanks_run {blanks rest : List Char} {x : Char} (hblanks : Blanks blanks)
    (hx : isBlank x = false) : skipBlanks (blanks ++ x :: rest) = x :: rest :=
  dropWhile_run hblanks hx

theorem exists_blanks_append_skipBlanks (cs : List Char) :
    ∃ blanks, Blanks blanks ∧ cs = blanks ++ skipBlanks cs :=
  ⟨cs.takeWhile isBlank, fun _ hc => List.mem_takeWhile_imp hc,
    List.takeWhile_append_dropWhile.symm⟩

theorem writesPackage_of_skipBlanks {c : Char} {cs inner : List Char} {isOverride : Bool}
    (hc : isBlank c = true) (hopen : skipBlanks cs = '(' :: inner)
    (hclose : inner.dropWhile isPackageChar = ')' :: overrideMark isOverride) :
    WritesPackage (inner.takeWhile isPackageChar) isOverride (c :: cs) := by
  obtain ⟨blanks, hblanks, hcs⟩ := exists_blanks_append_skipBlanks cs
  obtain ⟨hinner, hpackage, -⟩ := run_of_dropWhile_eq_cons hclose
  have hwide : Blanks (c :: blanks) := List.forall_mem_cons.2 ⟨hc, hblanks⟩
  have hwrites := WritesPackage.mk isOverride (List.cons_ne_nil c blanks) hwide hpackage
  rwa [← hinner, List.cons_append, ← hopen, ← hcs] at hwrites

/-- Reading the end of a label is finding how it is written. -/
theorem packageEnd?_eq_some_iff {cs package : List Char} {isOverride : Bool} :
    packageEnd? cs = some (package, isOverride) ↔ WritesPackage package isOverride cs := by
  constructor
  · intro h
    unfold packageEnd? at h
    split at h
    · cases h
    next c cs =>
      split at h
      · cases h
      next hblank =>
        have hc : isBlank c = true := by simpa using hblank
        split at h
        · next inner hopen =>
          dsimp only at h
          split at h
          · next hclose =>
            cases h
            exact writesPackage_of_skipBlanks hc hopen hclose
          · next mark _ hclose =>
            split at h
            · next hmark =>
              cases h
              subst hmark
              exact writesPackage_of_skipBlanks hc hopen hclose
            · cases h
          · cases h
        · cases h
  · intro h
    cases h with
    | @mk blanks package _ hwide hblanks hpackage =>
      obtain ⟨c, blanks, rfl⟩ := List.exists_cons_of_ne_nil hwide
      obtain ⟨hc, hblanks⟩ := List.forall_mem_cons.1 hblanks
      have hblank : ¬ (!isBlank c) = true := by simp [hc]
      have hopen : skipBlanks (blanks ++ '(' :: (package ++ ')' :: overrideMark isOverride)) =
          '(' :: (package ++ ')' :: overrideMark isOverride) := skipBlanks_run hblanks (by decide)
      have htake : (package ++ ')' :: overrideMark isOverride).takeWhile isPackageChar = package :=
        takeWhile_run hpackage (by decide)
      have hdrop : (package ++ ')' :: overrideMark isOverride).dropWhile isPackageChar =
          ')' :: overrideMark isOverride := dropWhile_run hpackage (by decide)
      simp only [List.cons_append, packageEnd?, if_neg hblank, hopen, htake, hdrop]
      cases isOverride <;> rfl

/-! ### Usage counts -/

/-- No digit is a blank. -/
theorem isBlank_of_isDecimalDigit {c : Char} (h : isDecimalDigit c = true) : isBlank c = false := by
  have hapart : ∀ range ∈ blankRanges, ∀ start ∈ digitZeros,
      range.2 < start ∨ start + 10 ≤ range.1 := by decide
  rw [← Bool.not_eq_true]
  intro hblank
  obtain ⟨range, hrange, hin⟩ := List.any_eq_true.1 hblank
  obtain ⟨start, hstart, hfrom⟩ := List.any_eq_true.1 h
  have hseparate := hapart range hrange start hstart
  simp only [Bool.and_eq_true, decide_eq_true_eq] at hin hfrom
  omega

theorem writesUsages_of_skipBlanks {cs inner behind after rest : List Char} {c : Char}
    (hopen : skipBlanks cs = '(' :: inner)
    (hdigits : (skipBlanks inner).dropWhile isDecimalDigit = c :: behind)
    (hsome : (skipBlanks inner).takeWhile isDecimalDigit ≠ []) (hc : isBlank c = true)
    (hword : skipBlanks behind = "usages".toList ++ after)
    (hclose : skipBlanks after = ')' :: rest) :
    ∃ counted, WritesUsages (some ((skipBlanks inner).takeWhile isDecimalDigit)) counted ∧
      cs = counted ++ rest := by
  obtain ⟨before, hbefore, hcs⟩ := exists_blanks_append_skipBlanks cs
  obtain ⟨lead, hlead, hinner⟩ := exists_blanks_append_skipBlanks inner
  obtain ⟨gap, hgap, hbehind⟩ := exists_blanks_append_skipBlanks behind
  obtain ⟨last, hlast, hafter⟩ := exists_blanks_append_skipBlanks after
  obtain ⟨hcount, hall, -⟩ := run_of_dropWhile_eq_cons hdigits
  have hwide : Blanks (c :: gap) := List.forall_mem_cons.2 ⟨hc, hgap⟩
  refine ⟨_, .count hbefore hlead hsome hall (List.cons_ne_nil c gap) hwide hlast, ?_⟩
  rw [hclose] at hafter
  rw [hword, hafter] at hbehind
  rw [hcount, hbehind] at hinner
  rw [hopen, hinner] at hcs
  simpa using hcs

theorem usageCount?_eq_some_iff {cs digits rest : List Char} :
    usageCount? cs = some (digits, rest) ↔
      ∃ counted, WritesUsages (some digits) counted ∧ cs = counted ++ rest := by
  constructor
  · intro h
    unfold usageCount? at h
    split at h
    · next inner hopen =>
      dsimp only at h
      split at h
      · cases h
      · next c behind hdigits =>
        split at h
        · cases h
        · next hcount =>
          obtain ⟨hsome, hc⟩ := not_or.1 hcount
          split at h
          · cases h
          · next after hword =>
            split at h
            · next rest hclose =>
              cases h
              exact writesUsages_of_skipBlanks hopen hdigits hsome (by simpa using hc)
                (dropLead?_eq_some_iff.1 hword).symm hclose
            · cases h
    · cases h
  · rintro ⟨_, hcounted, rfl⟩
    cases hcounted with
    | @count before inner digits gap after hbefore hinner hsome hdigits hwide hgap hafter =>
      obtain ⟨d, ds, rfl⟩ := List.exists_cons_of_ne_nil hsome
      obtain ⟨g, gs, rfl⟩ := List.exists_cons_of_ne_nil hwide
      obtain ⟨hg, hgs⟩ := List.forall_mem_cons.1 hgap
      have hd : isBlank d = false := isBlank_of_isDecimalDigit (hdigits d List.mem_cons_self)
      have hstop : isDecimalDigit g = false := by
        rw [← Bool.not_eq_true]
        intro hdigit
        rw [isBlank_of_isDecimalDigit hdigit] at hg
        cases hg
      let closing := after ++ ')' :: rest
      let behind := gs ++ 'u' :: ("sages".toList ++ closing)
      have htext : before ++ '(' :: (inner ++ d :: ds ++ g :: gs ++ "usages".toList ++ after ++
          [')']) ++ rest = before ++ '(' :: (inner ++ d :: (ds ++ g :: behind)) := by
        simp [behind, closing]
      have htake : (d :: (ds ++ g :: behind)).takeWhile isDecimalDigit = d :: ds :=
        takeWhile_run hdigits hstop
      have hdrop : (d :: (ds ++ g :: behind)).dropWhile isDecimalDigit = g :: behind :=
        dropWhile_run hdigits hstop
      have hword : dropLead? "usages" (skipBlanks behind) = some closing := by
        rw [dropLead?_eq_some_iff, skipBlanks_run hgs (by decide)]
        rfl
      have hclose : skipBlanks closing = ')' :: rest := skipBlanks_run hafter (by decide)
      have hopen : skipBlanks (before ++ '(' :: (inner ++ d :: (ds ++ g :: behind))) =
          '(' :: (inner ++ d :: (ds ++ g :: behind)) := skipBlanks_run hbefore (by decide)
      have hlead : skipBlanks (inner ++ d :: (ds ++ g :: behind)) = d :: (ds ++ g :: behind) :=
        skipBlanks_run hinner hd
      have hcount : ¬ (d :: ds = [] ∨ (!isBlank g) = true) := by simp [hg]
      simp only [htext, usageCount?, hopen, hlead, htake, hdrop, if_neg hcount, hword, hclose]

/-! ### Annotations -/

/-- No character of a package is a blank. -/
theorem isBlank_of_isPackageChar {c : Char} (h : isPackageChar c = true) : isBlank c = false := by
  have hapart : ∀ range ∈ blankRanges, range.2 ≤ 32 ∨ 133 ≤ range.1 := by decide
  have hc : 32 < c.toNat ∧ c.toNat < 133 := by
    have spelled : (decide (c.val ≥ 'A'.val ∧ c.val ≤ 'Z'.val) ||
        decide (c.val ≥ 'a'.val) && decide (c.val ≤ 'z'.val) || c.isDigit || c == '_' ||
        c == '.') = true := h
    simp only [Char.isDigit, ge_iff_le, Bool.or_eq_true, Bool.and_eq_true, decide_eq_true_eq,
      beq_iff_eq, UInt32.le_iff_toNat_le] at spelled
    rcases spelled with (((⟨hlow, hhigh⟩ | ⟨hlow, hhigh⟩) | ⟨hlow, hhigh⟩) | rfl) | rfl
    · exact ⟨Nat.lt_of_lt_of_le (by decide) hlow, Nat.lt_of_le_of_lt hhigh (by decide)⟩
    · exact ⟨Nat.lt_of_lt_of_le (by decide) hlow, Nat.lt_of_le_of_lt hhigh (by decide)⟩
    · exact ⟨Nat.lt_of_lt_of_le (by decide) hlow, Nat.lt_of_le_of_lt hhigh (by decide)⟩
    · decide
    · decide
  rw [← Bool.not_eq_true]
  intro hblank
  obtain ⟨range, hrange, hin⟩ := List.any_eq_true.1 hblank
  have hseparate := hapart range hrange
  simp only [Bool.and_eq_true, decide_eq_true_eq] at hin
  omega

/-- What stands before the first occurrence of a character in one reading of
a text is a start of what stands before it in any other. -/
theorem isPrefix_of_append_eq_append_cons {front behind piece rest : List Char} {x : Char}
    (h : front ++ behind = piece ++ x :: rest) (hx : x ∉ front) : front <+: piece := by
  rcases List.append_eq_append_iff.1 h with ⟨more, rfl, -⟩ | ⟨more, rfl, hbehind⟩
  · exact List.prefix_append front more
  · cases more with
    | nil => simp
    | cons y more =>
        obtain rfl : x = y := (List.cons.inj hbehind).1
        exact absurd (List.mem_append_right piece List.mem_cons_self) hx

/-- What starts with a usage count does not start with the package. -/
theorem WritesUsages.not_writesPackage {digits counted rest package : List Char}
    {isOverride : Bool} (h : WritesUsages (some digits) counted) :
    ¬ WritesPackage package isOverride (counted ++ rest) := by
  intro hpackage
  generalize htext : counted ++ rest = text at hpackage
  cases h with
  | @count before inner digits gap after hbefore hinner hsome hdigits hwide hgap hafter =>
    cases hpackage with
    | @mk blanks _ _ _ hblanks hpackage =>
      have hopen : isBlank '(' = false := by decide
      have hskip := congrArg skipBlanks htext
      rw [List.append_assoc, List.cons_append, skipBlanks_run hbefore hopen,
        skipBlanks_run hblanks hopen, List.cons.injEq] at hskip
      have hclose : ')' ∉ inner ++ digits ++ gap := by
        simp only [List.mem_append, not_or]
        refine ⟨⟨?_, ?_⟩, ?_⟩
        · exact fun hmem => absurd (hinner _ hmem) (by decide)
        · exact fun hmem => absurd (hdigits _ hmem) (by decide)
        · exact fun hmem => absurd (hgap _ hmem) (by decide)
      obtain ⟨g, hg⟩ := List.exists_mem_of_ne_nil gap hwide
      have hinside : inner ++ digits ++ gap ++ ("usages".toList ++ after ++ [')'] ++ rest) =
          package ++ ')' :: overrideMark isOverride := by
        simpa using hskip.2
      have hblank := hgap g hg
      have hfront := isPrefix_of_append_eq_append_cons hinside hclose
      have hchar := hpackage g (hfront.subset (List.mem_append_right _ hg))
      rw [isBlank_of_isPackageChar hchar] at hblank
      cases hblank

theorem usageCount?_of_writesPackage {cs package : List Char} {isOverride : Bool}
    (h : WritesPackage package isOverride cs) : usageCount? cs = none := by
  rw [Option.eq_none_iff_forall_ne_some]
  rintro ⟨digits, rest⟩ hcount
  obtain ⟨counted, hcounted, rfl⟩ := usageCount?_eq_some_iff.1 hcount
  exact hcounted.not_writesPackage h

/-- Reading what is behind the parameters is finding how it is written. -/
theorem annotations?_eq_some_iff {cs : List Char} {annotations : Annotations} :
    annotations? cs = some annotations ↔ WritesAnnotations annotations cs := by
  simp only [annotations?, Option.orElse_eq_orElse, Option.orElse_eq_or, Option.or_eq_some_iff,
    Option.bind_eq_bind, Option.bind_eq_some_iff, Option.pure_def, Option.some.injEq, Prod.exists]
  constructor
  · rintro (⟨digits, rest, hcount, package, isOverride, hpackage, rfl⟩ |
      ⟨-, package, isOverride, hpackage, rfl⟩)
    · obtain ⟨counted, hcounted, rfl⟩ := usageCount?_eq_some_iff.1 hcount
      exact ⟨hcounted, packageEnd?_eq_some_iff.1 hpackage⟩
    · exact ⟨.absent, packageEnd?_eq_some_iff.1 hpackage⟩
  · intro h
    cases h with
    | @mk usages package counted closing isOverride hcounted hclosing =>
      have hpackage := packageEnd?_eq_some_iff.2 hclosing
      cases usages with
      | none =>
        cases hcounted
        refine Or.inr ⟨?_, package, isOverride, hpackage, rfl⟩
        simp [usageCount?_of_writesPackage hclosing]
      | some digits =>
        have hcount : usageCount? (counted ++ closing) = some (digits, closing) :=
          usageCount?_eq_some_iff.2 ⟨counted, hcounted, rfl⟩
        exact Or.inl ⟨digits, closing, hcount, package, isOverride, hpackage, rfl⟩

/-! ### The shortest piece -/

section Shortest

variable {α : Type} {accept : List Char → Option α} {cs piece rest : List Char} {found : α}

theorem shortest?_of_accept (h : accept cs = some found) :
    shortest? accept cs = some ([], found) := by
  cases cs with
  | nil => simp [shortest?, h]
  | cons c cs => simp [shortest?, h]

/-- If the rest behind some piece is accepted, a piece is found: that one or
a shorter one. -/
theorem exists_shortest? (hline : '\n' ∉ piece) (haccept : accept rest = some found) :
    ∃ shorter other, shortest? accept (piece ++ rest) = some (shorter, other) ∧
      (shorter = piece ∧ other = found ∨ shorter.length < piece.length) := by
  induction piece with
  | nil => exact ⟨[], found, shortest?_of_accept haccept, Or.inl ⟨rfl, rfl⟩⟩
  | cons c piece ih =>
      obtain ⟨hc, hpiece⟩ := not_or.1 (mt List.mem_cons.2 hline)
      cases hearly : accept (c :: (piece ++ rest)) with
      | some other =>
          exact ⟨[], other, shortest?_of_accept hearly, Or.inr (Nat.zero_lt_succ _)⟩
      | none =>
          obtain ⟨shorter, other, hfound, hcompare⟩ := ih hpiece
          refine ⟨c :: shorter, other, ?_, ?_⟩
          · rw [List.cons_append, shortest?, hearly]
            simp [Ne.symm hc, hfound]
          · simpa using hcompare

/-- The piece is on one line. -/
theorem newline_not_mem_of_shortest? (h : shortest? accept cs = some (piece, found)) :
    '\n' ∉ piece := by
  induction cs generalizing piece with
  | nil =>
      obtain ⟨_, -, hpair⟩ := Option.map_eq_some_iff.1 h
      cases hpair
      exact List.not_mem_nil
  | cons c cs ih =>
      rw [shortest?] at h
      split at h
      · cases h
        exact List.not_mem_nil
      · split at h
        · cases h
        next hc =>
          obtain ⟨⟨piece', _⟩, hpiece, hpair⟩ := Option.map_eq_some_iff.1 h
          cases hpair
          rw [List.mem_cons, not_or]
          exact ⟨Ne.symm hc, ih hpiece⟩

end Shortest

/-! ### The member and the whole label -/

theorem paramsEnd?_eq_some_iff {cs : List Char} {annotations : Annotations} :
    paramsEnd? cs = some annotations ↔
      ∃ behind, cs = ')' :: behind ∧ WritesAnnotations annotations behind := by
  constructor
  · intro h
    unfold paramsEnd? at h
    split at h
    · exact ⟨_, rfl, annotations?_eq_some_iff.1 h⟩
    · cases h
  · rintro ⟨behind, rfl, hbehind⟩
    exact annotations?_eq_some_iff.2 hbehind

variable {cs methodName params : List Char} {annotations : Annotations} {cut : Cut}

theorem writesMember_of_member? (h : member? cs = some (methodName, params, annotations)) :
    WritesMember methodName params annotations cs := by
  unfold member? at h
  split at h
  · next rest =>
    dsimp only at h
    split at h
    · next inner hopen =>
      split at h
      · cases h
      · next hnamed =>
        obtain ⟨⟨found, ann⟩, hshortest, hpair⟩ := Option.map_eq_some_iff.1 h
        cases hpair
        obtain ⟨behind, hinner, hend⟩ := shortest?_accepts hshortest
        obtain ⟨behind, rfl, hbehind⟩ := paramsEnd?_eq_some_iff.1 hend
        obtain ⟨hrest, hname, -⟩ := run_of_dropWhile_eq_cons hopen
        have hline := newline_not_mem_of_shortest? hshortest
        have hwrites := WritesMember.mk hnamed hname hline hbehind
        rwa [← hinner, ← hrest] at hwrites
    · cases h
  · cases h

/-- Where a member is written one is read, with the parameters that are
written or shorter ones. -/
theorem exists_member? (h : WritesMember methodName params annotations cs) :
    ∃ shorter other, member? cs = some (methodName, shorter, other) ∧
      (shorter = params ∧ other = annotations ∨ shorter.length < params.length) := by
  cases h with
  | mk hnamed hname hline hbehind =>
    have hend := paramsEnd?_eq_some_iff.2 ⟨_, rfl, hbehind⟩
    obtain ⟨shorter, other, hfound, hcompare⟩ := exists_shortest? hline hend
    refine ⟨shorter, other, ?_, hcompare⟩
    have hopen : isNameChar '(' = false := by decide
    simp only [member?, takeWhile_run hname hopen, dropWhile_run hname hopen, if_neg hnamed, hfound,
      Option.map_some]

/-- The cut with the shorter class, or with the same class and shorter
parameters. -/
def Cut.Precedes (cut other : Cut) : Prop :=
  cut.className.length < other.className.length ∨
    cut.className = other.className ∧ cut.params.length < other.params.length

theorem writes_of_cut? (h : cut? cs = some cut) : cut.Writes cs := by
  unfold cut? at h
  split at h
  · cases h
  · next c cs =>
    split at h
    · cases h
    · next hc =>
      obtain ⟨⟨piece, methodName, params, annotations⟩, hshortest, rfl⟩ :=
        Option.map_eq_some_iff.1 h
      obtain ⟨rest, rfl, hmember⟩ := shortest?_accepts hshortest
      have hline : '\n' ∉ c :: piece := by
        rw [List.mem_cons, not_or]
        exact ⟨Ne.symm hc, newline_not_mem_of_shortest? hshortest⟩
      exact .mk (List.cons_ne_nil c piece) hline (writesMember_of_member? hmember)

/-- Where a label is written one is read, cut as it is written or at an
earlier place. -/
theorem exists_cut? (h : cut.Writes cs) :
    ∃ found, cut? cs = some found ∧ (found = cut ∨ found.Precedes cut) := by
  cases h with
  | @mk className methodName params member annotations hsome hline hmember =>
    obtain ⟨c, piece, rfl⟩ := List.exists_cons_of_ne_nil hsome
    obtain ⟨hc, hpiece⟩ := not_or.1 (mt List.mem_cons.2 hline)
    obtain ⟨shorter, other, hread, hparams⟩ := exists_member? hmember
    obtain ⟨early, ⟨method, left, ann⟩, hfound, hclass⟩ := exists_shortest? hpiece hread
    refine ⟨⟨c :: early, method, left, ann⟩, ?_, ?_⟩
    · simp only [List.cons_append, cut?, if_neg (Ne.symm hc), hfound, Option.map_some]
    · rcases hclass with ⟨rfl, hpair⟩ | hearly
      · cases hpair
        rcases hparams with ⟨rfl, rfl⟩ | hshorter
        · exact Or.inl rfl
        · exact Or.inr (Or.inr ⟨rfl, hshorter⟩)
      · exact Or.inr (Or.inl (Nat.succ_lt_succ hearly))

end LabelParts

end CallerGraph
