import CallerGraph.Label.Basic
import CallerGraph.Proofs.LabelReading

/-!
# Labels that are written and read back

A label is written from a class, a method, parameters and a package, in a
layout that chooses the white space, may tell a usage count and may set the
override mark.  The canonical layout is the one of `Label.format`.  Whatever
the layout, reading the label gives the parts back.

The class is free text, so it must not itself look like the start of a label:
no dot in it may be followed by name characters and an opening bracket.  That
is all it takes.  An earlier cut would end the class at such a dot, and an
earlier end of the parameters would need a closing bracket inside them.
-/

namespace CallerGraph

namespace Text

variable {before cs after : List Char}

theorem skipBlanks_append (hbefore : Blanks before) (hbare : ∀ c ∈ cs.head?, isBlank c = false) :
    skipBlanks (before ++ cs) = cs := by
  rw [skipBlanks, List.dropWhile_append_of_pos hbefore]
  exact skipBlanks_eq_self hbare

/-- Blanks around a bare text are trimmed. -/
theorem trimChars_append (hbefore : Blanks before) (hafter : Blanks after) (hsome : cs ≠ [])
    (hbare : Bare cs) : trimChars (before ++ cs ++ after) = cs := by
  have hhead : ∀ c ∈ (cs ++ after).head?, isBlank c = false := by
    rw [List.head?_append_of_ne_nil cs hsome]
    exact hbare.1
  have hreverse : Blanks after.reverse := fun c hc => hafter c (List.mem_reverse.1 hc)
  have hlast : ∀ c ∈ cs.reverse.head?, isBlank c = false := by
    rw [List.head?_reverse]
    exact hbare.2
  rw [trimChars, List.append_assoc, skipBlanks_append hbefore hhead, List.reverse_append,
    skipBlanks_append hreverse hlast, List.reverse_reverse]

/-- What stands neither in the separator nor in the pieces does not stand in
the joined text. -/
theorem not_mem_intercalate {separator : String} {pieces : List String} {c : Char}
    (hseparator : c ∉ separator.toList) (hpieces : ∀ piece ∈ pieces, c ∉ piece.toList) :
    c ∉ (separator.intercalate pieces).toList := by
  induction pieces with
  | nil => simp
  | cons first pieces ih =>
      have hfirst : c ∉ first.toList := hpieces first List.mem_cons_self
      have hrest := ih fun piece hpiece => hpieces piece (List.mem_cons_of_mem first hpiece)
      cases pieces with
      | nil => simpa using hfirst
      | cons second pieces =>
          rw [String.intercalate_cons_cons, String.toList_append, String.toList_append,
            List.mem_append, List.mem_append, not_or, not_or]
          exact ⟨⟨hfirst, hseparator⟩, hrest⟩

end Text

open Text LabelParts

/-! ### Only one cut -/

namespace LabelParts

/-- Somewhere a dot is followed by name characters and an opening bracket. -/
def HasMember (cs : List Char) : Prop :=
  ∃ before word after, cs = before ++ '.' :: (word ++ '(' :: after) ∧ word ≠ [] ∧
    ∀ c ∈ word, isNameChar c = true

variable {cut found : Cut} {text : List Char}

/-- The text of a cut, up to the bracket that closes the parameters. -/
theorem Cut.Writes.exists_behind (h : cut.Writes text) :
    ∃ behind,
      text = cut.className ++ '.' :: (cut.methodName ++ '(' :: (cut.params ++ ')' :: behind)) ∧
      cut.methodName ≠ [] ∧ ∀ c ∈ cut.methodName, isNameChar c = true := by
  cases h with
  | mk _ _ hmember =>
    cases hmember with
    | mk hnamed hname _ _ => exact ⟨_, rfl, hnamed, hname⟩

/-- A shorter class would end at a member inside the class. -/
theorem hasMember_of_shorter {short long word inside rest : List Char}
    (hshorter : short.length < long.length) (hword : word ≠ [])
    (hname : ∀ c ∈ word, isNameChar c = true)
    (h : long ++ '.' :: rest = short ++ '.' :: (word ++ '(' :: inside)) : HasMember long := by
  obtain ⟨more, rfl⟩ : short <+: long :=
    List.prefix_of_prefix_length_le (List.prefix_append _ _) (h ▸ List.prefix_append _ _)
      hshorter.le
  rw [List.append_assoc, List.append_cancel_left_eq] at h
  cases more with
  | nil => simp at hshorter
  | cons c more =>
      rw [List.cons_append, List.cons.injEq] at h
      obtain ⟨rfl, htail⟩ := h
      -- the next dot comes after the bracket, as there is none in the name
      have hdot : '.' ∉ word ++ ['('] := by
        rw [List.mem_append, not_or]
        exact ⟨fun hmem => absurd (hname _ hmem) (by decide), by decide⟩
      have hinside : (word ++ ['(']) ++ inside = more ++ '.' :: rest := by
        rw [htail, List.append_assoc, List.singleton_append]
      obtain ⟨after, rfl⟩ := isPrefix_of_append_eq_append_cons hinside hdot
      exact ⟨short, word, after, by simp, hword, hname⟩

/-- Nothing before the end of the class looks like a member, and nothing
before the end of the parameters closes them: no other cut comes earlier. -/
theorem Cut.Writes.not_precedes (hcut : cut.Writes text) (hfound : found.Writes text)
    (hclass : ¬ HasMember cut.className) (hparams : ')' ∉ cut.params) : ¬ found.Precedes cut := by
  obtain ⟨behind, htext, -, hname⟩ := hcut.exists_behind
  obtain ⟨rest, hother, hnamed, hname'⟩ := hfound.exists_behind
  rw [htext] at hother
  rintro (hshorter | ⟨hsame, hshorter⟩)
  · exact hclass (hasMember_of_shorter hshorter hnamed hname' hother)
  · rw [hsame, List.append_cancel_left_eq, List.cons.injEq] at hother
    have hopen : isNameChar '(' = false := by decide
    have hdrop := congrArg (List.dropWhile isNameChar) hother.2
    rw [dropWhile_run hname hopen, dropWhile_run hname' hopen, List.cons.injEq] at hdrop
    have hlonger := (isPrefix_of_append_eq_append_cons hdrop.2 hparams).length_le
    omega

/-- A member needs an opening bracket, so it does not end in a text without
one. -/
theorem HasMember.of_append {cs behind : List Char} (h : HasMember (cs ++ behind))
    (hopen : '(' ∉ behind) : HasMember cs := by
  obtain ⟨before, word, after, hsplit, hword, hname⟩ := h
  rw [← List.cons_append, ← List.append_assoc] at hsplit
  rcases List.append_eq_append_iff.1 hsplit with ⟨more, -, hbehind⟩ | ⟨more, hcs, hbehind⟩
  · exact absurd (hbehind ▸ List.mem_append_right more List.mem_cons_self) hopen
  · cases more with
    | nil =>
        rw [List.nil_append] at hbehind
        exact absurd (hbehind ▸ List.mem_cons_self) hopen
    | cons c more =>
        obtain ⟨rfl, -⟩ := List.cons.inj hbehind
        exact ⟨before, word, more, by simpa using hcs, hword, hname⟩

theorem cut?_eq_some (h : cut.Writes text) (hclass : ¬ HasMember cut.className)
    (hparams : ')' ∉ cut.params) : cut? text = some cut := by
  obtain ⟨found, hfound, rfl | hearlier⟩ := exists_cut? h
  · exact hfound
  · exact absurd hearlier (h.not_precedes (writes_of_cut? hfound) hclass hparams)

/-- Escaped parameters show no angle bracket. -/
theorem ne_angle_of_mem_escapeParams {params : List Char} {c : Char}
    (h : c ∈ escapeParams params) : c ≠ '<' ∧ c ≠ '>' := by
  have hless : ∀ d ∈ "&lt;".toList, d ≠ '<' ∧ d ≠ '>' := by simp
  have hgreater : ∀ d ∈ "&gt;".toList, d ≠ '<' ∧ d ≠ '>' := by simp
  unfold escapeParams at h
  split at h
  · obtain rfl := List.mem_singleton.1 h
    decide
  · obtain ⟨d, -, hc⟩ := List.mem_flatMap.1 h
    unfold escapeChar at hc
    split at hc
    · exact hless c hc
    · split at hc
      · exact hgreater c hc
      · obtain rfl := List.mem_singleton.1 hc
        constructor <;> assumption

/-- A number written in base ten is its own value as a usage count. -/
theorem usageValue?_toDigits {count : Nat} (h : count < UInt32.size) :
    usageValue? (Nat.toDigits 10 count) = some count :=
  (usageValue?_eq_some_iff Nat.toDigits_ne_nil).2
    ⟨fun _ hd => Nat.isDigit_of_mem_toDigits (by decide) (by decide) hd,
      Nat.ofDigitChars_toDigits (by decide) (by decide), h⟩

end LabelParts

/-! ### Layouts -/

namespace Label

/-- A usage count as a label tells it, behind blanks or none. -/
structure UsageNote where
  lead : String
  count : Nat
  blanks_lead : Blanks lead.toList
  count_lt : count < UInt32.size

def UsageNote.write (note : UsageNote) : String :=
  note.lead ++ "(" ++ note.count.repr ++ " usages)"

/-- What is free when a label is written. -/
structure Layout where
  before : String
  note : Option UsageNote
  gap : String
  isOverride : Bool
  after : String
  blanks_before : Blanks before.toList
  gap_ne_empty : gap ≠ ""
  blanks_gap : Blanks gap.toList
  blanks_after : Blanks after.toList

namespace Layout

/-- The label of a method in a layout. -/
def write (layout : Layout) (className methodName : String) (params : List String)
    (package : String) : Label :=
  ⟨layout.before ++ className ++ "." ++ methodName ++ "(" ++ ", ".intercalate params ++ ")" ++
    layout.note.elim "" UsageNote.write ++ layout.gap ++ "(" ++ package ++ ")" ++
    (if layout.isOverride then "[Override]" else "") ++ layout.after⟩

/-- Two spaces before the package and nothing else. -/
def canonical : Layout where
  before := ""
  note := none
  gap := "  "
  isOverride := false
  after := ""
  blanks_before := by decide
  gap_ne_empty := by decide
  blanks_gap := by decide
  blanks_after := by decide

variable (layout : Layout) (className methodName : String) (params : List String)
  (package : String)

theorem write_canonical :
    canonical.write className methodName params package =
      Label.format className methodName params package := by
  simp [write, canonical, Label.format, ← String.toList_inj]

/-- The cut at the places where the layout put the pieces together. -/
def cut : Cut where
  className := className.toList
  methodName := methodName.toList
  params := (", ".intercalate params).toList
  annotations :=
    { usageDigits := layout.note.map fun note => Nat.toDigits 10 note.count
      package := package.toList
      isOverride := layout.isOverride }

/-- The label without the blanks around it. -/
def body : List Char :=
  className.toList ++ '.' :: (methodName.toList ++ '(' :: ((", ".intercalate params).toList ++
    ')' :: ((layout.note.elim "" UsageNote.write).toList ++ (layout.gap.toList ++
      '(' :: (package.toList ++ ')' :: overrideMark layout.isOverride)))))

theorem toList_write :
    (layout.write className methodName params package).text.toList =
      layout.before.toList ++ layout.body className methodName params package ++
        layout.after.toList := by
  cases hmark : layout.isOverride <;> simp [write, body, overrideMark, hmark]

end Layout

/-- The parts of a label that can be read back.  The parameters may hold
opening brackets. -/
structure Legible (className methodName : String) (params : List String) (package : String) :
    Prop where
  class_ne_empty : className ≠ ""
  class_oneLine : '\n' ∉ className.toList
  class_bare : Bare className.toList
  class_plain : ¬ HasMember className.toList
  method_ne_empty : methodName ≠ ""
  method_word : ∀ c ∈ methodName.toList, isNameChar c = true
  params_oneLine : ∀ param ∈ params, '\n' ∉ param.toList
  params_open : ∀ param ∈ params, ')' ∉ param.toList
  package_word : ∀ c ∈ package.toList, isPackageChar c = true

section

variable {className methodName package : String} {params : List String}

theorem UsageNote.writesUsages (note : UsageNote) :
    WritesUsages (some (Nat.toDigits 10 note.count)) note.write.toList := by
  have hdigits : ∀ d ∈ Nat.toDigits 10 note.count, isDecimalDigit d = true := fun d hd =>
    isDecimalDigit_of_isDigit (Nat.isDigit_of_mem_toDigits (by decide) (by decide) hd)
  have hgap : Blanks [' '] := by decide
  have hnone : Blanks [] := by decide
  have hwrites := WritesUsages.count note.blanks_lead hnone Nat.toDigits_ne_nil hdigits
    (List.cons_ne_nil ' ' []) hgap hnone
  simpa [write] using hwrites

/-- A label is written with white space behind the class, or with none. -/
theorem Layout.writes_body (layout : Layout) (h : Legible className methodName params package)
    {trail : String} (hline : '\n' ∉ trail.toList) :
    (layout.cut (className ++ trail) methodName params package).Writes
      (layout.body (className ++ trail) methodName params package) := by
  have hclass : (className ++ trail).toList ≠ [] := by simp [h.class_ne_empty]
  have honeLine : '\n' ∉ (className ++ trail).toList := by
    simp [h.class_oneLine, hline]
  have hmethod : methodName.toList ≠ [] := by simpa using h.method_ne_empty
  have hgap : layout.gap.toList ≠ [] := by simpa using layout.gap_ne_empty
  have hparams : '\n' ∉ (", ".intercalate params).toList :=
    not_mem_intercalate (by decide) h.params_oneLine
  have hcounted : WritesUsages (layout.note.map fun note => Nat.toDigits 10 note.count)
      (layout.note.elim "" UsageNote.write).toList := by
    cases layout.note with
    | none => exact .absent
    | some note => exact note.writesUsages
  have hclosing := WritesPackage.mk layout.isOverride hgap layout.blanks_gap h.package_word
  exact .mk hclass honeLine (.mk hmethod h.method_word hparams (.mk hcounted hclosing))

/-- The body starts with the class and ends with a bracket. -/
theorem Layout.bare_body (layout : Layout) (h : Legible className methodName params package)
    (trail : String) : Bare (layout.body (className ++ trail) methodName params package) := by
  have hclass : className.toList ≠ [] := by simpa using h.class_ne_empty
  constructor
  · rw [body, String.toList_append, List.append_assoc, List.head?_append_of_ne_nil _ hclass]
    exact h.class_bare.1
  · intro c hc
    have hlast : c = if layout.isOverride then ']' else ')' := by
      cases hmark : layout.isOverride <;>
        simpa [body, overrideMark, hmark, List.getLast?_append, List.getLast?_cons, eq_comm]
          using hc
    rw [hlast]
    split <;> decide

/-- **Reading a label that was written.**  White space behind the class is
dropped. -/
theorem Layout.read_write (layout : Layout) (h : Legible className methodName params package)
    (trail : String) (hblanks : Blanks trail.toList) (hline : '\n' ∉ trail.toList) :
    parse? (layout.write (className ++ trail) methodName params package).text =
      some ⟨className, methodName,
        String.ofList (escapeParams (trimChars (", ".intercalate params).toList)), package,
        layout.note.map UsageNote.count, layout.isOverride⟩ := by
  have hsome : layout.body (className ++ trail) methodName params package ≠ [] := by
    simp [Layout.body]
  have hplain : ¬ HasMember (className ++ trail).toList := by
    rw [String.toList_append]
    have hopen : '(' ∉ trail.toList := fun hmem => absurd (hblanks _ hmem) (by decide)
    exact fun hmember => h.class_plain (hmember.of_append hopen)
  have hcut : cut? (layout.body (className ++ trail) methodName params package) =
      some (layout.cut (className ++ trail) methodName params package) :=
    cut?_eq_some (layout.writes_body h hline) hplain
      (not_mem_intercalate (by decide) h.params_open)
  have hclass : trimChars (className ++ trail).toList = className.toList := by
    have hsome : className.toList ≠ [] := by simpa using h.class_ne_empty
    have hnone : Blanks [] := fun c hc => nomatch hc
    rw [String.toList_append]
    exact trimChars_append hnone hblanks hsome h.class_bare
  have husages : (layout.note.map fun note => Nat.toDigits 10 note.count).bind usageValue? =
      layout.note.map UsageNote.count := by
    cases layout.note with
    | none => rfl
    | some note => exact usageValue?_toDigits note.count_lt
  rw [parse?, layout.toList_write, trimChars_append layout.blanks_before layout.blanks_after
    hsome (layout.bare_body h trail), hcut, Option.map_some, ofCut]
  simp only [Layout.cut, husages, hclass, String.ofList_toList]

/-- **A written label is read back.**  In the canonical layout the class, the
method and the package come back as they were given, and the parameters
trimmed and escaped, without any angle bracket.  In any other layout the same
parts come back, with the usage count and the override mark of the layout. -/
theorem parse?_write (h : Legible className methodName params package) :
    let joined := trimChars (", ".intercalate params).toList
    let shown := String.ofList (if joined = [] then [' ']
      else joined.flatMap fun c =>
        if c = '<' then "&lt;".toList else if c = '>' then "&gt;".toList else [c])
    parse? (Label.format className methodName params package).text =
        some ⟨className, methodName, shown, package, none, false⟩ ∧
      '<' ∉ shown.toList ∧ '>' ∉ shown.toList ∧
      ∀ layout : Layout, parse? (layout.write className methodName params package).text =
        some ⟨className, methodName, shown, package, layout.note.map UsageNote.count,
          layout.isOverride⟩ := by
  intro joined shown
  have hshown : shown.toList = escapeParams joined := String.toList_ofList
  have hread : ∀ layout : Layout,
      parse? (layout.write className methodName params package).text =
        some ⟨className, methodName, shown, package, layout.note.map UsageNote.count,
          layout.isOverride⟩ := by
    intro layout
    have hwritten := layout.read_write h "" (by decide) (by decide)
    rwa [String.append_empty] at hwritten
  refine ⟨?_, ?_, ?_, hread⟩
  · rw [← Layout.write_canonical]
    exact hread .canonical
  · intro hmem
    exact (ne_angle_of_mem_escapeParams (hshown ▸ hmem)).1 rfl
  · intro hmem
    exact (ne_angle_of_mem_escapeParams (hshown ▸ hmem)).2 rfl

/-- A class that is itself described with brackets. -/
theorem parse?_write_anonymous :
    Legible "Anonymous in run() in Worker" "<init>" ["List<A>", "int"] "com.shop" ∧
      parse? "Anonymous in run() in Worker.<init>(List<A>, int)  (com.shop)" =
        some ⟨"Anonymous in run() in Worker", "<init>", "List&lt;A&gt;, int", "com.shop", none,
          false⟩ := by
  have hlegible : Legible "Anonymous in run() in Worker" "<init>" ["List<A>", "int"] "com.shop" := {
    class_ne_empty := by decide
    class_oneLine := by decide
    class_bare := by constructor <;> simp <;> decide
    class_plain := by
      rintro ⟨before, word, after, hclass, -⟩
      have hdot : '.' ∈ "Anonymous in run() in Worker".toList := by simp [hclass]
      exact absurd hdot (by decide)
    method_ne_empty := by decide
    method_word := List.all_eq_true.1 (by decide)
    params_oneLine := by decide
    params_open := by decide
    package_word := List.all_eq_true.1 (by decide) }
  exact ⟨hlegible, (parse?_write hlegible).1⟩

end

end Label

end CallerGraph
