import CallerGraph.Json.Basic

/-!
# Reading JSON

`Json.parse?` reads a text that is one JSON value with nothing but white
space around it. The grammar is the strict one: four kinds of white space,
no comments, no trailing commas, no byte order mark, no control characters
in strings.

A reader takes the characters from a place on and answers a value with the
characters behind it. Values nest, so the readers call each other with a
budget of steps. Of two steps one takes at least one character, so twice
the length of the text is enough.
-/

namespace CallerGraph

namespace Json

/-- White space between the parts of a document. -/
def isSpace (c : Char) : Bool :=
  c == ' ' || c == '\n' || c == '\t' || c == '\r'

/-- The characters from the first that is no white space. -/
def skipSpace (cs : List Char) : List Char :=
  cs.dropWhile isSpace

/-- The character of a one-letter escape. -/
def shortEscape? : Char → Option Char
  | '"' => some '"'
  | '\\' => some '\\'
  | '/' => some '/'
  | 'b' => some '\x08'
  | 'f' => some '\x0c'
  | 'n' => some '\n'
  | 'r' => some '\r'
  | 't' => some '\t'
  | _ => none

/-- The rest of a string literal, behind its opening quote: the code units
or code points it is made of, and what follows the closing quote. -/
def codeUnits? : List Char → Option (List Nat × List Char)
  | [] => none
  | '"' :: rest => some ([], rest)
  | '\\' :: 'u' :: a :: b :: c :: d :: rest => do
      let unit ← Text.hexQuad? a b c d
      let (units, rest) ← codeUnits? rest
      pure (unit :: units, rest)
  | '\\' :: e :: rest => do
      let c ← shortEscape? e
      let (units, rest) ← codeUnits? rest
      pure (c.toNat :: units, rest)
  | c :: rest =>
      if c.toNat < 0x20 ∨ c = '\\' then none
      else do
        let (units, rest) ← codeUnits? rest
        pure (c.toNat :: units, rest)

/-- Is the code unit the first half of a surrogate pair? -/
def isHighHalf (unit : Nat) : Bool :=
  0xD800 ≤ unit && unit < 0xDC00

/-- Is the code unit the second half of a surrogate pair? -/
def isLowHalf (unit : Nat) : Bool :=
  0xDC00 ≤ unit && unit < 0xE000

/-- The text of code units; `none` when half of a pair stands alone. -/
def textOfUnits? : List Nat → Option (List Char)
  | [] => some []
  | [unit] => if isHighHalf unit || isLowHalf unit then none else some [Char.ofNat unit]
  | first :: second :: units =>
      if isHighHalf first && isLowHalf second then do
        let text ← textOfUnits? units
        pure (Char.ofNat (0x10000 + (first - 0xD800) * 0x400 + (second - 0xDC00)) :: text)
      else if isHighHalf first || isLowHalf first then none
      else do
        let text ← textOfUnits? (second :: units)
        pure (Char.ofNat first :: text)

/-- A string literal behind its opening quote. The text is missing when
the literal stands for none. -/
def stringRest? (cs : List Char) : Option (Option String × List Char) := do
  let (units, rest) ← codeUnits? cs
  pure ((textOfUnits? units).map String.ofList, rest)

/-- A non-empty run of digits. -/
def digitRun? (cs : List Char) : Option (List Char × List Char) :=
  let digits := cs.takeWhile Char.isDigit
  if digits = [] then none else some (digits, cs.dropWhile Char.isDigit)

/-- The digits before the point: a single zero, or a run that does not
start with one. -/
def wholePart? : List Char → Option (List Char × List Char)
  | '0' :: rest => some (['0'], rest)
  | cs => digitRun? cs

/-- The point and the digits behind it, if there is a point. -/
def fraction? : List Char → Option (List Char × List Char)
  | '.' :: rest => (digitRun? rest).map fun (digits, rest) => ('.' :: digits, rest)
  | cs => some ([], cs)

/-- The exponent, if there is one. -/
def exponent? : List Char → Option (List Char × List Char)
  | [] => some ([], [])
  | e :: rest =>
      if e = 'e' ∨ e = 'E' then
        match rest with
        | '+' :: rest => (digitRun? rest).map fun (digits, rest) => (e :: '+' :: digits, rest)
        | '-' :: rest => (digitRun? rest).map fun (digits, rest) => (e :: '-' :: digits, rest)
        | rest => (digitRun? rest).map fun (digits, rest) => (e :: digits, rest)
      else some ([], e :: rest)

/-- A number without its sign. -/
def magnitude? (cs : List Char) : Option (List Char × List Char) := do
  let (whole, rest) ← wholePart? cs
  let (fraction, rest) ← fraction? rest
  let (exponent, rest) ← exponent? rest
  pure (whole ++ fraction ++ exponent, rest)

/-- A number. -/
def number? : List Char → Option (Json × List Char)
  | '-' :: rest =>
      (magnitude? rest).map fun (digits, rest) => (number (String.ofList ('-' :: digits)), rest)
  | cs => (magnitude? cs).map fun (digits, rest) => (number (String.ofList digits), rest)

/-- An object of the given fields. A single name that stands for no text
makes it unreadable. -/
def objectOf (fields : List (Option String × Json)) : Json :=
  match fields.mapM fun (name, value) => name.map (·, value) with
  | some fields => object fields
  | none => unreadable

mutual

/-- A value at the first character that is no white space. -/
def value? : Nat → List Char → Option (Json × List Char)
  | 0, _ => none
  | budget + 1, cs =>
      match skipSpace cs with
      | 'n' :: 'u' :: 'l' :: 'l' :: rest => some (null, rest)
      | 't' :: 'r' :: 'u' :: 'e' :: rest => some (bool true, rest)
      | 'f' :: 'a' :: 'l' :: 's' :: 'e' :: rest => some (bool false, rest)
      | '"' :: rest =>
          (stringRest? rest).map fun (text, rest) => ((text.map string).getD unreadable, rest)
      | '[' :: rest =>
          match skipSpace rest with
          | ']' :: rest => some (array [], rest)
          | rest => (items? budget rest).map fun (items, rest) => (array items, rest)
      | '\x7b' :: rest =>
          match skipSpace rest with
          | '\x7d' :: rest => some (object [], rest)
          | rest => (fields? budget rest).map fun (fields, rest) => (objectOf fields, rest)
      | rest => number? rest

/-- The items of an array up to its closing bracket. -/
def items? : Nat → List Char → Option (List Json × List Char)
  | 0, _ => none
  | budget + 1, cs => do
      let (item, rest) ← value? budget cs
      match skipSpace rest with
      | ',' :: rest =>
          let (items, rest) ← items? budget rest
          pure (item :: items, rest)
      | ']' :: rest => pure ([item], rest)
      | _ => none

/-- The fields of an object up to its closing brace. -/
def fields? : Nat → List Char → Option (List (Option String × Json) × List Char)
  | 0, _ => none
  | budget + 1, cs =>
      match skipSpace cs with
      | '"' :: rest => do
          let (name, rest) ← stringRest? rest
          match skipSpace rest with
          | ':' :: rest =>
              let (value, rest) ← value? budget rest
              match skipSpace rest with
              | ',' :: rest =>
                  let (fields, rest) ← fields? budget rest
                  pure ((name, value) :: fields, rest)
              | '\x7d' :: rest => pure ([(name, value)], rest)
              | _ => none
          | _ => none
      | _ => none

end

/-- Reads a document. -/
def parse? (text : String) : Option Json := do
  let cs := text.toList
  let (value, rest) ← value? (2 * cs.length + 1) cs
  if skipSpace rest = [] then pure value else none

end Json

end CallerGraph
