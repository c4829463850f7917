import CallerGraph.Json.Merge
import CallerGraph.Json.Number
import CallerGraph.Text.Blank
import CallerGraph.Text.Bytes
import CallerGraph.Text.Pieces
import CallerGraph.Toml.Quoted

/-!
# Settings in variables

A variable whose name starts in a certain way gives a value to a setting.
Its value is text, but it is read like a value in a program: words for
truth values and numbers are what they look like, a text with commas is a
list, and brackets, braces and quotes make lists, objects and texts. A text
that starts with one of these four but is not well-formed to its end is
taken as it stands. The blanks at the ends of a value do not count.

Upper and lower case are the same in the name of a variable, and two
underscores lead to a field of a value that is an object.
-/

namespace CallerGraph

namespace Variable

/-- White space between the parts of a value. -/
def isSpace (c : Char) : Bool :=
  c.isWhitespace || c == '\x0c'

/-- The characters from the first that is no white space. -/
def skipSpace (cs : List Char) : List Char :=
  cs.dropWhile isSpace

/-- A character that ends a value without quotes. -/
def isSeparator (c : Char) : Bool :=
  [',', '[', ']', '\x7b', '\x7d'].contains c

/-- A character of a name without quotes. -/
def isNameChar (c : Char) : Bool :=
  c.isAlphanum || c == '_' || c == '-'

/-- A whole number as wide as a machine word, with or without a sign. -/
def word? (cs : List Char) : Option Int :=
  (Decimal.integer? cs).filter fun n => decide (Int64.minValue.toInt ≤ n ∧ n < UInt64.size)

/-- The value of a text without quotes. -/
def bare (cs : List Char) : Json :=
  let text := Text.trimChars cs
  let lower := (String.ofList text).map Char.toLower
  if lower = "true" then .bool true
  else if lower = "false" then .bool false
  else
    match (Decimal.parse? text).filter (fun _ => text.contains '.') with
    | some decimal => .ofDecimal decimal
    | none =>
        match word? text with
        | some n => .ofInt n
        | none => .string (String.ofList text)

/-- A text behind its opening quote. Of the characters before the first
escape as many bytes are kept as there are characters. -/
def quotedRest? (cs : List Char) : Option (String × List Char) :=
  let isPlain (c : Char) : Bool := c != '"' && c != '\\'
  let lead := cs.takeWhile isPlain
  if !lead.all Toml.isPrintable then none
  else
    match cs.dropWhile isPlain with
    | '"' :: rest => some (String.ofList lead, rest)
    | escapes => do
        let (chars, rest) ← Toml.basicRest? .older false (escapes.length + 1) escapes
        let kept ← Text.takeBytes? lead.length lead
        pure (String.ofList (kept ++ chars), rest)

/-- The name of a field of an object. -/
def name? : List Char → Option (String × List Char)
  | '"' :: rest => quotedRest? rest
  | cs =>
      let name := cs.takeWhile isNameChar
      if name = [] then none else some (String.ofList name, cs.dropWhile isNameChar)

/-- An object of the given fields, of two with one name the later one. -/
def objectOf (fields : List (String × Json)) : Json :=
  .object (fields.foldl (fun known (name, value) => Json.putField known name value) [])

mutual

/-- A value, with the white space around it. -/
def value? : Nat → List Char → Option (Json × List Char)
  | 0, _ => none
  | budget + 1, cs => do
      let (value, rest) ← match skipSpace cs with
        | '[' :: rest => (items? budget rest).map fun (items, rest) => (.array items, rest)
        | '\x7b' :: rest =>
            (fields? budget rest).map fun (fields, rest) => (objectOf fields, rest)
        | '"' :: rest => (quotedRest? rest).map fun (text, rest) => (.string text, rest)
        | '\'' :: c :: '\'' :: rest => some (.string (String.ofList [c]), rest)
        | '\'' :: _ => none
        | cs =>
            let isInside (c : Char) : Bool := !isSeparator c
            some (bare (cs.takeWhile isInside), cs.dropWhile isInside)
      pure (value, skipSpace rest)

/-- The items of a list up to its closing bracket. -/
def items? : Nat → List Char → Option (List Json × List Char)
  | 0, _ => none
  | _ + 1, ']' :: rest => some ([], rest)
  | budget + 1, cs => do
      let (item, rest) ← value? budget cs
      match rest with
      | ',' :: rest =>
          let (items, rest) ← items? budget rest
          pure (item :: items, rest)
      | ']' :: rest => pure ([item], rest)
      | _ => none

/-- The fields of an object up to its closing brace. -/
def fields? : Nat → List Char → Option (List (String × Json) × List Char)
  | 0, _ => none
  | _ + 1, '\x7d' :: rest => some ([], rest)
  | budget + 1, cs => do
      let (name, rest) ← name? (skipSpace cs)
      match skipSpace rest with
      | '=' :: rest =>
          let (value, rest) ← value? budget rest
          match rest with
          | ',' :: rest =>
              let (fields, rest) ← fields? budget rest
              pure ((name, value) :: fields, rest)
          | '\x7d' :: rest => pure ([(name, value)], rest)
          | _ => none
      | _ => none

end

/-- Does a text start like a list, an object or a text in quotes? -/
def isMarked : List Char → Bool
  | c :: _ => ['[', '\x7b', '"', '\''].contains c
  | [] => false

/-- The value of a variable. -/
def toJson (written : String) : Json :=
  let text := Text.trimChars written.toList
  if isMarked text then
    match value? (2 * text.length + 1) text with
    | some (value, []) => value
    | _ => .string (String.ofList text)
  else if text.contains ',' then
    .array ((Text.pieces ',' text).map fun piece => .string (String.ofList (Text.trimChars piece)))
  else bare text

/-- How the names of variables for settings start, in uppercase. -/
def lead : String := "CALLCHAIN_"

/-- The names of the fields between underscores in pairs and dots. -/
def pathOf : List Char → List (List Char)
  | [] => [[]]
  | '_' :: '_' :: cs => [] :: pathOf cs
  | '.' :: cs => [] :: pathOf cs
  | c :: cs =>
      match pathOf cs with
      | [] => [[c]]
      | name :: names => (c :: name) :: names

/-- The field that a variable is for, as the path of names that leads to
it. `none` for a variable that is for no field. -/
def path? (name : String) : Option (List String) := do
  let written := Text.trimChars name.toList
  let start := written.take lead.length
  let path := pathOf (Text.trimChars (written.drop lead.length))
  if start.map Char.toUpper ≠ lead.toList ∨ path.contains [] then none
  else pure (path.map fun name => String.ofList (name.map Char.toLower))

/-- A value at the end of a path of fields. -/
def nest (value : Json) : List String → Json
  | [] => value
  | name :: names => .object [(name, nest value names)]

/-- The object that the values of some variables make, later ones before
earlier ones. -/
def collect (environment : List (String × String)) : Json :=
  environment.foldl (fun known (name, written) =>
    match path? name with
    | some path => known.merge (nest (toJson written) path)
    | none => known) (.object [])

end Variable

end CallerGraph
