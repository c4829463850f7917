import CallerGraph.Toml.Document
import CallerGraph.Toml.Plain
import CallerGraph.Toml.Quoted

/-!
# Reading TOML

`Toml.parse?` reads a document by the rules of an edition: assignments with
bare, quoted and dotted keys, tables and arrays of tables, comments, and
values of all kinds.

Values nest, so the readers of values call each other with a budget of
steps. Each step of a well-formed value takes a character, so the length
of the text is enough. How deep they nest is counted by itself, from the
limit of the edition down.
-/

namespace CallerGraph

namespace Toml

/-- What may stand between the parts of an inline table: white space, and
in the newer edition line ends and comments. -/
def skipGap (edition : Edition) (cs : List Char) : List Char :=
  match edition with
  | .older => skipLineSpace cs
  | .newer => skipFiller cs.length cs

mutual

/-- A value. -/
def value? (edition : Edition) : Nat → Nat → List Char → Option (Json × List Char)
  | 0, _, _ => none
  | budget + 1, levels, cs =>
      match cs with
      | '"' :: _ | '\'' :: _ => (string? edition cs).map fun (text, rest) => (.string text, rest)
      | '[' :: rest =>
          match levels with
          | 0 => none
          | levels + 1 =>
              (items? edition budget levels rest).map fun (items, rest) => (.array items, rest)
      | '\x7b' :: rest =>
          match levels with
          | 0 => none
          | levels + 1 => do
              let (assignments, rest) ← firstField? edition budget levels rest
              let fields ← Fields.ofAssignments? assignments
              pure (fields.toJson, rest)
      | _ => plainValue? edition cs

/-- The items of an array up to its closing bracket. -/
def items? (edition : Edition) : Nat → Nat → List Char → Option (List Json × List Char)
  | 0, _, _ => none
  | budget + 1, levels, cs =>
      match skipFiller cs.length cs with
      | ']' :: rest => some ([], rest)
      | cs => do
          let (item, rest) ← value? edition budget levels cs
          match skipFiller rest.length rest with
          | ',' :: rest =>
              let (items, rest) ← items? edition budget levels rest
              pure (item :: items, rest)
          | ']' :: rest => pure ([item], rest)
          | _ => none

/-- The fields of an inline table, if there are any, up to its closing
brace. -/
def firstField? (edition : Edition) :
    Nat → Nat → List Char → Option (List (List String × Json) × List Char)
  | 0, _, _ => none
  | budget + 1, levels, cs =>
      match skipGap edition cs with
      | '\x7d' :: rest => some ([], rest)
      | cs => field? edition budget levels cs

/-- The fields of an inline table from one field on, up to its closing
brace. In the newer edition a comma may stand behind the last. -/
def field? (edition : Edition) :
    Nat → Nat → List Char → Option (List (List String × Json) × List Char)
  | 0, _, _ => none
  | budget + 1, levels, cs => do
      let (key, rest) ← key? edition cs
      match skipGap edition rest with
      | '=' :: rest =>
          let (value, rest) ← value? edition budget levels (skipGap edition rest)
          match skipGap edition rest with
          | ',' :: rest =>
              let (assignments, rest) ← match edition with
                | .older => field? edition budget levels rest
                | .newer => firstField? edition budget levels rest
              pure ((key, value) :: assignments, rest)
          | '\x7d' :: rest => pure ([(key, value)], rest)
          | _ => none
      | _ => none

end

/-- A line with something in it: what it says, and the rest of the text. -/
def statement? (edition : Edition) (cs : List Char) : Option (Statement × List Char) :=
  match cs with
  | '[' :: '[' :: rest => do
      let (key, rest) ← key? edition rest
      match rest with
      | ']' :: ']' :: rest =>
          let rest ← restOfLine? rest
          pure (.openNext key, rest)
      | _ => none
  | '[' :: rest => do
      let (key, rest) ← key? edition rest
      match rest with
      | ']' :: rest =>
          let rest ← restOfLine? rest
          pure (.openTable key, rest)
      | _ => none
  | cs => do
      let (key, rest) ← key? edition cs
      match rest with
      | '=' :: rest =>
          let (value, rest) ←
            value? edition (2 * rest.length + 1) edition.depthLimit (skipLineSpace rest)
          let rest ← restOfLine? rest
          pure (.assign key value, rest)
      | _ => none

/-- The statements of a document. -/
def statements? (edition : Edition) : Nat → List Char → Option (List Statement)
  | 0, _ => none
  | budget + 1, cs =>
      match skipFiller cs.length cs with
      | [] => some []
      | cs => do
          let (statement, rest) ← statement? edition cs
          let statements ← statements? edition budget rest
          pure (statement :: statements)

/-- Reads a document as an object. A byte order mark in front of it is
passed over. -/
def parse? (edition : Edition) (source : String) : Option Json := do
  let cs := match source.toList with
    | '\ufeff' :: cs => cs
    | cs => cs
  let statements ← statements? edition (cs.length + 1) cs
  let fields ← Fields.ofStatements? statements
  pure fields.toJson

end Toml

end CallerGraph
