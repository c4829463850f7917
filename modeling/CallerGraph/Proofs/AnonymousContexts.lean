import CallerGraph.Proofs.LabelLayout

/-!
# The contexts of anonymous classes

A method of an anonymous class has a description of its context where other
methods have a class.  The context names a method, a class, both or neither, and
the class may itself be a context, to any depth.

All that a context puts in front of its class is words, blanks and the brackets
of a method, and no dot.  A dot can only stand in the class name at the end,
which has no brackets, so a context never looks like the start of a label and is
read back from one.  That is but for a method without a class: its description
ends with a blank, which is lost.
-/

namespace CallerGraph

open Text LabelParts

/-- A member starts with a dot, so it does not start in a text without one. -/
theorem LabelParts.HasMember.of_append_left {lead cs : List Char} (h : HasMember (lead ++ cs))
    (hdot : '.' ∉ lead) : HasMember cs := by
  obtain ⟨before, word, after, hsplit, hword, hname⟩ := h
  obtain ⟨inside, rfl⟩ := isPrefix_of_append_eq_append_cons hsplit hdot
  rw [List.append_assoc, List.append_cancel_left_eq] at hsplit
  exact ⟨inside, word, after, hsplit, hword, hname⟩

namespace Label

/-- The name of a class that is not anonymous. -/
structure ClassName where
  text : String
  ne_empty : text ≠ ""
  bare : Bare text.toList
  plain : ∀ c ∈ text.toList, c ≠ '(' ∧ c ≠ ')' ∧ c ≠ '\n'

/-- The name of a method, or no characters at all. -/
structure Word where
  text : String
  nameChars : ∀ c ∈ text.toList, isNameChar c = true

/-- Where a class stands: it has a name, or it is anonymous, in a method or in
none, and within a class or not. -/
inductive Context where
  | named (name : ClassName)
  | anonymous (method : Option Word)
  | within (method : Option Word) (outer : Context)

namespace Context

/-- The description of a context. -/
def text : Context → String
  | named name => name.text
  | anonymous method => anonymousClass (method.map Word.text) none
  | within method outer => anonymousClass (method.map Word.text) (some outer.text)

/-- Is there a method without a class at the end? -/
def dangles : Context → Bool
  | named _ => false
  | anonymous method => method.isSome
  | within _ outer => outer.dangles

/-- The blank at the end. -/
def trail (context : Context) : String :=
  if context.dangles then " " else ""

end Context

/-- What can stand in front of a method and be read back. -/
structure ReadsAsClass (className : String) : Prop where
  ne_empty : className ≠ ""
  oneLine : '\n' ∉ className.toList
  bare : Bare className.toList
  plain : ¬ HasMember className.toList

theorem ClassName.readsAsClass (name : ClassName) : ReadsAsClass name.text where
  ne_empty := name.ne_empty
  oneLine h := (name.plain '\n' h).2.2 rfl
  bare := name.bare
  plain := by
    rintro ⟨before, word, after, hsplit, -⟩
    have hopen : '(' ∈ name.text.toList := by simp [hsplit]
    exact (name.plain '(' hopen).1 rfl

/-- Words and blanks stay in front of a class. -/
theorem ReadsAsClass.behind {className lead : String} (h : ReadsAsClass className)
    (hhead : ∃ c ∈ lead.toList.head?, isBlank c = false)
    (hplain : ∀ c ∈ lead.toList, c ≠ '.' ∧ c ≠ '\n') : ReadsAsClass (lead ++ className) := by
  obtain ⟨c, hc, hblank⟩ := hhead
  have hlead : lead.toList ≠ [] := by
    intro hnil
    simp [hnil] at hc
  have hclass : className.toList ≠ [] := by simpa using h.ne_empty
  refine ⟨?_, ?_, ⟨?_, ?_⟩, ?_⟩
  · simp [h.ne_empty]
  · rw [String.toList_append, List.mem_append, not_or]
    exact ⟨fun hmem => (hplain _ hmem).2 rfl, h.oneLine⟩
  · rw [String.toList_append, List.head?_append_of_ne_nil _ hlead]
    intro other hother
    obtain rfl : c = other := Option.some.inj (hc.symm.trans hother)
    exact hblank
  · rw [String.toList_append, List.getLast?_append_of_ne_nil _ hclass]
    exact h.bare.2
  · rw [String.toList_append]
    exact fun hmember => h.plain (hmember.of_append_left fun hmem => (hplain _ hmem).1 rfl)

/-- What a context starts with, up to the word that leads to the class. -/
def lead (method : Option Word) : String :=
  "Anonymous " ++ method.elim "" fun word => "in " ++ word.text ++ "() "

/-- A context in front of a class. -/
theorem ReadsAsClass.behind_lead {className : String} (h : ReadsAsClass className)
    (method : Option Word) : ReadsAsClass (lead method ++ className) := by
  refine h.behind ⟨'A', ?_, by decide⟩ ?_
  · simp [lead]
  · have hfirst : ∀ c ∈ "Anonymous ".toList, c ≠ '.' ∧ c ≠ '\n' := by simp
    have hin : ∀ c ∈ "in ".toList, c ≠ '.' ∧ c ≠ '\n' := by simp
    have hbrackets : ∀ c ∈ "() ".toList, c ≠ '.' ∧ c ≠ '\n' := by simp
    intro c hc
    rw [lead, String.toList_append, List.mem_append] at hc
    rcases hc with hc | hc
    · exact hfirst c hc
    · cases method with
      | none => cases hc
      | some word =>
          rw [Option.elim_some, String.toList_append, String.toList_append, List.mem_append,
            List.mem_append] at hc
          rcases hc with (hc | hc) | hc
          · exact hin c hc
          · have hname := word.nameChars c hc
            constructor <;> rintro rfl <;> exact absurd hname (by decide)
          · exact hbrackets c hc

/-- The word that is left of a context without a class. -/
def leadingWord : ClassName where
  text := "in"
  ne_empty := by decide
  bare := by constructor <;> simp <;> decide
  plain := by simp

/-- The context of a class that is in no method and in no class. -/
def nowhere : ClassName where
  text := "Anonymous"
  ne_empty := by decide
  bare := by constructor <;> simp <;> decide
  plain := by simp

namespace Context

theorem text_within (method : Option Word) (outer : Context) :
    (within method outer).text = lead method ++ ("in " ++ outer.text) := by
  cases method with
  | none =>
      change "Anonymous in " ++ outer.text = _
      simp [lead, ← String.toList_inj]
  | some word =>
      change "Anonymous in " ++ word.text ++ "() in " ++ outer.text = _
      simp [lead, ← String.toList_inj]

/-- **A context reads as a class**, but for the blank at its end. -/
theorem exists_readsAsClass (context : Context) :
    ∃ className, context.text = className ++ context.trail ∧ ReadsAsClass className := by
  induction context with
  | named name => exact ⟨name.text, by simp [text, trail, dangles], name.readsAsClass⟩
  | anonymous method =>
      cases method with
      | none => exact ⟨"Anonymous", by decide, nowhere.readsAsClass⟩
      | some word =>
          refine ⟨lead (some word) ++ "in", ?_, leadingWord.readsAsClass.behind_lead (some word)⟩
          change "Anonymous in " ++ word.text ++ "() in " ++ "" = _
          simp [trail, dangles, lead, ← String.toList_inj]
  | within method outer ih =>
      obtain ⟨className, htext, hreads⟩ := ih
      have hin : ReadsAsClass ("in " ++ className) :=
        hreads.behind ⟨'i', rfl, by decide⟩ (by simp)
      refine ⟨lead method ++ ("in " ++ className), ?_, hin.behind_lead method⟩
      rw [text_within, htext, String.append_assoc, String.append_assoc]
      rfl

theorem blanks_trail (context : Context) : Blanks context.trail.toList := by
  unfold trail
  split <;> decide

theorem oneLine_trail (context : Context) : '\n' ∉ context.trail.toList := by
  unfold trail
  split <;> decide

end Context

/-- The rest of a label that can be read back. -/
structure Spelled (methodName : String) (params : List String) (package : String) : Prop where
  method_ne_empty : methodName ≠ ""
  method_word : ∀ c ∈ methodName.toList, isNameChar c = true
  params_plain : ∀ param ∈ params, ∀ c ∈ param.toList, c ≠ '(' ∧ c ≠ ')' ∧ c ≠ '\n'
  package_word : ∀ c ∈ package.toList, isPackageChar c = true

theorem ReadsAsClass.legible {className methodName package : String} {params : List String}
    (hclass : ReadsAsClass className) (h : Spelled methodName params package) :
    Legible className methodName params package where
  class_ne_empty := hclass.ne_empty
  class_oneLine := hclass.oneLine
  class_bare := hclass.bare
  class_plain := hclass.plain
  method_ne_empty := h.method_ne_empty
  method_word := h.method_word
  params_oneLine param hparam hmem := (h.params_plain param hparam _ hmem).2.2 rfl
  params_open param hparam hmem := (h.params_plain param hparam _ hmem).2.1 rfl
  package_word := h.package_word

/-- **Contexts are read back from labels**, whatever they are nested in.  The
method and the package come back as well, and the parameters trimmed and
escaped.  Only when the innermost class has a method around it and no class, the
blank at the end of the context is lost. -/
theorem parse?_format_context (context : Context) {methodName package : String}
    {params : List String} (h : Spelled methodName params package) :
    ∃ className,
      parse? (Label.format context.text methodName params package).text =
        some ⟨className, methodName,
          String.ofList (escapeParams (trimChars (", ".intercalate params).toList)), package, none,
          false⟩ ∧
      (context.dangles = false → className = context.text) ∧
      (context.dangles = true → className ++ " " = context.text) := by
  obtain ⟨className, htext, hreads⟩ := context.exists_readsAsClass
  refine ⟨className, ?_, fun hdangles => ?_, fun hdangles => ?_⟩
  · rw [htext, ← Layout.write_canonical]
    exact Layout.canonical.read_write (hreads.legible h) context.trail context.blanks_trail
      context.oneLine_trail
  · rw [htext, Context.trail, hdangles]
    simp
  · rw [htext, Context.trail, hdangles]
    simp

/-- A class in a method of an anonymous class, with a dot in its name. -/
def nestedContext : Context :=
  .within (some ⟨"run", List.all_eq_true.1 (by decide)⟩)
    (.within none (.named ⟨"jobs.Worker", by decide, by constructor <;> simp <;> decide, by simp⟩))

/-- A class in a method that is in no class. -/
def danglingContext : Context :=
  .anonymous (some ⟨"start", List.all_eq_true.1 (by decide)⟩)

theorem spelled_run : Spelled "run" [] "com.jobs" where
  method_ne_empty := by decide
  method_word := List.all_eq_true.1 (by decide)
  params_plain := by simp
  package_word := List.all_eq_true.1 (by decide)

theorem parse?_format_context_nested :
    nestedContext.text = "Anonymous in run() in Anonymous in jobs.Worker" ∧
      ∃ parts, parse? (Label.format nestedContext.text "run" [] "com.jobs").text = some parts ∧
        parts.className = nestedContext.text ∧ parts.methodName = "run" := by
  obtain ⟨className, hparts, hkept, -⟩ := parse?_format_context nestedContext spelled_run
  exact ⟨by decide, _, hparts, hkept rfl, rfl⟩

/-- The blank at the end of a context is lost. -/
theorem parse?_format_dangling :
    Spelled "run" [] "com.jobs" ∧ danglingContext.text = "Anonymous in start() in " ∧
      parse? (Label.format danglingContext.text "run" [] "com.jobs").text =
        some ⟨"Anonymous in start() in", "run", " ", "com.jobs", none, false⟩ :=
  ⟨spelled_run, by decide, by decide⟩

end Label

end CallerGraph
