import CallerGraph.Text.Blank
import CallerGraph.Text.Digit

/-!
# The parts of a label

The grammar of a label, after trimming, is

    Class '.' method '(' parameters ')' usages? blanks '(' package ')' override?

where `usages` is `(n usages)` with free white space around and inside,
and `override` is `[Override]`. Class and parameters are free text on one
line and may themselves hold dots, brackets and whole annotations, so a
text can often be cut in several ways. The cut is fixed by two rules, in
this order: the class is as short as possible, and then the parameters
are as short as possible. Nothing else is ambiguous: the method is a
maximal run of name characters, and behind the parameters every part is
determined by its first character that is not white space.

Both rules are the one function `shortest?`, which grows a piece of text
one character at a time and stops at the first place where the rest is
accepted.
-/

namespace CallerGraph

/-- What a label says about its method. -/
structure LabelParts where
  className : String
  methodName : String
  /-- The parameters, ready for a viewer that reads markup. -/
  params : String
  packageName : String
  /-- How often the method is used, where the label says so in ASCII
  digits and below 2 ^ 32. -/
  usages : Option Nat
  isOverride : Bool
deriving DecidableEq, Repr

namespace LabelParts

open Text

/-- The characters of a method name. -/
def isNameChar (c : Char) : Bool :=
  c.isAlphanum || c == '_' || c == '<' || c == '>' || c == '$'

/-- The characters of a package name. -/
def isPackageChar (c : Char) : Bool :=
  c.isAlphanum || c == '_' || c == '.'

/-- The shortest piece at the start of a text that holds no line feed and
behind which `accept` takes the rest, with what `accept` makes of it. -/
def shortest? {α : Type} (accept : List Char → Option α) :
    List Char → Option (List Char × α)
  | [] => (accept []).map fun found => ([], found)
  | c :: cs =>
      match accept (c :: cs) with
      | some found => some ([], found)
      | none =>
          if c = '\n' then none
          else (shortest? accept cs).map fun (piece, found) => (c :: piece, found)

/-- A usage count in brackets at the start of a text: its digits and what
follows. -/
def usageCount? (cs : List Char) : Option (List Char × List Char) :=
  match skipBlanks cs with
  | '(' :: inner =>
      let inner := skipBlanks inner
      let digits := inner.takeWhile isDecimalDigit
      match inner.dropWhile isDecimalDigit with
      | [] => none
      | c :: rest =>
          if digits = [] ∨ !isBlank c then none
          else
            match dropLead? "usages" (skipBlanks rest) with
            | none => none
            | some rest =>
                match skipBlanks rest with
                | ')' :: rest => some (digits, rest)
                | _ => none
  | _ => none

/-- The package in brackets behind white space, and whether the override
mark follows it, when they are all that is left. -/
def packageEnd? : List Char → Option (List Char × Bool)
  | [] => none
  | c :: cs =>
      if !isBlank c then none
      else
        match skipBlanks cs with
        | '(' :: inner =>
            let package := inner.takeWhile isPackageChar
            match inner.dropWhile isPackageChar with
            | [')'] => some (package, false)
            | ')' :: mark => if mark = "[Override]".toList then some (package, true) else none
            | _ => none
        | _ => none

/-- The annotations behind the parameters. -/
structure Annotations where
  usageDigits : Option (List Char)
  package : List Char
  isOverride : Bool
deriving DecidableEq, Repr

/-- Reads everything behind the bracket that closes the parameters. -/
def annotations? (cs : List Char) : Option Annotations :=
  let counted := do
    let (digits, rest) ← usageCount? cs
    let (package, isOverride) ← packageEnd? rest
    pure ⟨some digits, package, isOverride⟩
  let plain := do
    let (package, isOverride) ← packageEnd? cs
    pure ⟨none, package, isOverride⟩
  counted <|> plain

/-- The bracket that closes the parameters, and the annotations. -/
def paramsEnd? : List Char → Option Annotations
  | ')' :: rest => annotations? rest
  | _ => none

/-- A label cut into pieces, before trimming and escaping. -/
structure Cut where
  className : List Char
  methodName : List Char
  params : List Char
  annotations : Annotations
deriving DecidableEq, Repr

/-- Everything behind the class: the dot, the method name, the parameters
as short as possible, and the annotations. -/
def member? : List Char → Option (List Char × List Char × Annotations)
  | '.' :: rest =>
      let methodName := rest.takeWhile isNameChar
      match rest.dropWhile isNameChar with
      | '(' :: inner =>
          if methodName = [] then none
          else (shortest? paramsEnd? inner).map fun (params, ann) => (methodName, params, ann)
      | _ => none
  | _ => none

/-- Cuts a trimmed label. The class has at least one character. -/
def cut? : List Char → Option Cut
  | [] => none
  | c :: cs =>
      if c = '\n' then none
      else (shortest? member? cs).map fun (piece, methodName, params, ann) =>
        ⟨c :: piece, methodName, params, ann⟩

/-- A character as it stands in the parameters of a node: angle brackets
are written as entities. -/
def escapeChar (c : Char) : List Char :=
  if c = '<' then "&lt;".toList else if c = '>' then "&gt;".toList else [c]

/-- The parameters of a node: escaped, and a single space when there are
none. -/
def escapeParams (params : List Char) : List Char :=
  if params = [] then [' '] else params.flatMap escapeChar

/-- The value of a usage count. -/
def usageValue? (digits : List Char) : Option Nat :=
  (decimal? digits).filter (· < UInt32.size)

/-- The parts that a cut stands for. -/
def ofCut (cut : Cut) : LabelParts where
  className := String.ofList (trimChars cut.className)
  methodName := String.ofList cut.methodName
  params := String.ofList (escapeParams (trimChars cut.params))
  packageName := String.ofList cut.annotations.package
  usages := cut.annotations.usageDigits.bind usageValue?
  isOverride := cut.annotations.isOverride

/-- Reads the parts of a label; `none` for a text outside the grammar. -/
def parse? (label : String) : Option LabelParts :=
  (cut? (trimChars label.toList)).map ofCut

/-- The class of methods whose label cannot be read. -/
def unknownClass : String := "UnknownClass"

/-- The parts that stand in for a label outside the grammar: the whole
text, as it is, becomes the method name. -/
def placeholder (label : String) : LabelParts where
  className := unknownClass
  methodName := label
  params := ""
  packageName := ""
  usages := none
  isOverride := false

/-- The parts of any label at all. -/
def ofLabel (label : String) : LabelParts :=
  (parse? label).getD (placeholder label)

/-- The piece that `shortest?` finds and the rest it accepts make up the
text. -/
theorem shortest?_accepts {α : Type} {accept : List Char → Option α}
    {cs piece : List Char} {found : α} (h : shortest? accept cs = some (piece, found)) :
    ∃ rest, cs = piece ++ rest ∧ accept rest = some found := by
  induction cs generalizing piece with
  | nil =>
      obtain ⟨a, ha, hpair⟩ := Option.map_eq_some_iff.1 h
      cases hpair
      exact ⟨[], rfl, ha⟩
  | cons c cs ih =>
      simp only [shortest?] at h
      split at h
      case h_1 a ha =>
        cases h
        exact ⟨c :: cs, rfl, ha⟩
      case h_2 =>
        split at h
        · cases h
        · obtain ⟨⟨piece', a⟩, hp, hpair⟩ := Option.map_eq_some_iff.1 h
          cases hpair
          obtain ⟨rest, hcs, hrest⟩ := ih hp
          exact ⟨rest, by rw [hcs]; rfl, hrest⟩

end LabelParts

end CallerGraph
