import CallerGraph.Text.Hex
import CallerGraph.Toml.Basic

/-!
# Lines, quoted texts and keys of TOML

The parts of a document that lines are made of: white space, line ends and
comments, texts in quotes of four kinds, and keys with dots.

A reader takes the characters from a place on and answers what it read
with the characters behind it. Some readers have a budget of steps; each
step takes a character, so the length of the text is enough.
-/

namespace CallerGraph

namespace Toml

/-- White space inside a line. -/
def isLineSpace (c : Char) : Bool :=
  c == ' ' || c == '\t'

/-- The characters from the first that is no white space inside a line. -/
def skipLineSpace (cs : List Char) : List Char :=
  cs.dropWhile isLineSpace

/-- A character that may stand in a comment or in a quoted text: no
control character but the tabulator. -/
def isPrintable (c : Char) : Bool :=
  c == '\t' || (0x20 ≤ c.toNat && c.toNat != 0x7f)

/-- The end of a line at the start of a text. -/
def lineEnd? : List Char → Option (List Char)
  | '\n' :: rest => some rest
  | '\r' :: '\n' :: rest => some rest
  | _ => none

/-- A comment, if there is one. -/
def skipComment : List Char → List Char
  | '#' :: rest => rest.dropWhile isPrintable
  | cs => cs

/-- White space, a comment, and the end of the line or of the text. -/
def restOfLine? (cs : List Char) : Option (List Char) :=
  match skipComment (skipLineSpace cs) with
  | [] => some []
  | cs => lineEnd? cs

/-- White space, line ends and comments, as they may stand inside an
array. -/
def skipFiller : Nat → List Char → List Char
  | 0, cs => cs
  | budget + 1, cs =>
      let cs := skipComment (skipLineSpace cs)
      match lineEnd? cs with
      | some rest => skipFiller budget rest
      | none => cs

/-- The character of a code point that is no surrogate. -/
def scalar? (code : Nat) : Option Char :=
  if code.isValidChar then some (Char.ofNat code) else none

/-- The character of a one-letter escape. -/
def shortEscape? (edition : Edition) : Char → Option Char
  | 'b' => some '\x08'
  | 't' => some '\t'
  | 'n' => some '\n'
  | 'f' => some '\x0c'
  | 'r' => some '\r'
  | '"' => some '"'
  | '\\' => some '\\'
  | 'e' => if edition = .newer then some '\x1b' else none
  | _ => none

/-- The characters behind the white space and the line ends that a
backslash at the end of a line takes away. -/
def skipFolded : List Char → List Char
  | '\r' :: '\n' :: rest => skipFolded rest
  | c :: rest => if isLineSpace c || c == '\n' then skipFolded rest else c :: rest
  | [] => []

/-- The rest of a quoted text with escapes. With `long` it ends at three
quotes and may hold line ends. -/
def basicRest? (edition : Edition) (long : Bool) : Nat → List Char → Option (List Char × List Char)
  | 0, _ => none
  | budget + 1, cs => do
      let push (c : Char) (rest : List Char) : Option (List Char × List Char) :=
        (basicRest? edition long budget rest).map fun (chars, rest) => (c :: chars, rest)
      match cs with
      | '"' :: '"' :: '"' :: '"' :: '"' :: rest =>
          if long then some (['"', '"'], rest) else some ([], '"' :: '"' :: '"' :: '"' :: rest)
      | '"' :: '"' :: '"' :: '"' :: rest =>
          if long then some (['"'], rest) else some ([], '"' :: '"' :: '"' :: rest)
      | '"' :: '"' :: '"' :: rest => some ([], if long then rest else '"' :: '"' :: rest)
      | '"' :: rest => if long then push '"' rest else some ([], rest)
      | '\\' :: 'u' :: a :: b :: c :: d :: rest =>
          let unit ← Text.hexQuad? a b c d
          let scalar ← scalar? unit
          push scalar rest
      | '\\' :: 'U' :: a :: b :: c :: d :: e :: f :: g :: h :: rest =>
          let high ← Text.hexQuad? a b c d
          let low ← Text.hexQuad? e f g h
          let scalar ← scalar? (high * 0x10000 + low)
          push scalar rest
      | '\\' :: 'x' :: a :: b :: rest =>
          let code ← Text.hexQuad? '0' '0' a b
          if edition = .newer then push (Char.ofNat code) rest else none
      | '\\' :: e :: rest =>
          match shortEscape? edition e with
          | some c => push c rest
          | none =>
              if long ∧ (lineEnd? (skipLineSpace (e :: rest))).isSome then
                basicRest? edition long budget (skipFolded (e :: rest))
              else none
      | c :: rest =>
          if isPrintable c ∧ c ≠ '\\' then push c rest
          else if long then
            match lineEnd? cs with
            | some rest => push '\n' rest
            | none => none
          else none
      | [] => none

/-- The rest of a quoted text without escapes. -/
def literalRest? (long : Bool) : Nat → List Char → Option (List Char × List Char)
  | 0, _ => none
  | budget + 1, cs =>
      let push (c : Char) (rest : List Char) : Option (List Char × List Char) :=
        (literalRest? long budget rest).map fun (chars, rest) => (c :: chars, rest)
      match cs with
      | '\'' :: '\'' :: '\'' :: '\'' :: '\'' :: rest =>
          if long then some (['\'', '\''], rest)
          else some ([], '\'' :: '\'' :: '\'' :: '\'' :: rest)
      | '\'' :: '\'' :: '\'' :: '\'' :: rest =>
          if long then some (['\''], rest) else some ([], '\'' :: '\'' :: '\'' :: rest)
      | '\'' :: '\'' :: '\'' :: rest => some ([], if long then rest else '\'' :: '\'' :: rest)
      | '\'' :: rest => if long then push '\'' rest else some ([], rest)
      | c :: rest =>
          if isPrintable c then push c rest
          else if long then
            match lineEnd? cs with
            | some rest => push '\n' rest
            | none => none
          else none
      | [] => none

/-- A quoted text on one line. -/
def quoted? (edition : Edition) : List Char → Option (String × List Char)
  | '"' :: rest =>
      (basicRest? edition false (rest.length + 1) rest).map fun (chars, rest) => (String.ofList chars, rest)
  | '\'' :: rest =>
      (literalRest? false (rest.length + 1) rest).map fun (chars, rest) => (String.ofList chars, rest)
  | _ => none

/-- The text behind a line end directly after three quotes. -/
def skipFirstLineEnd (cs : List Char) : List Char :=
  (lineEnd? cs).getD cs

/-- A quoted text of either length. -/
def string? (edition : Edition) : List Char → Option (String × List Char)
  | '"' :: '"' :: '"' :: rest =>
      (basicRest? edition true (rest.length + 1) (skipFirstLineEnd rest)).map fun (chars, rest) =>
        (String.ofList chars, rest)
  | '\'' :: '\'' :: '\'' :: rest =>
      (literalRest? true (rest.length + 1) (skipFirstLineEnd rest)).map fun (chars, rest) =>
        (String.ofList chars, rest)
  | cs => quoted? edition cs

/-- The characters of a bare name. -/
def isBareChar (c : Char) : Bool :=
  c.isAlphanum || c == '_' || c == '-'

/-- One name of a key. -/
def name? (edition : Edition) (cs : List Char) : Option (String × List Char) :=
  let bare := cs.takeWhile isBareChar
  if bare = [] then quoted? edition cs else some (String.ofList bare, cs.dropWhile isBareChar)

/-- Names with dots between them. -/
def names? (edition : Edition) : Nat → List Char → Option (List String × List Char)
  | 0, _ => none
  | budget + 1, cs => do
      let (name, rest) ← name? edition (skipLineSpace cs)
      match skipLineSpace rest with
      | '.' :: rest =>
          let (names, rest) ← names? edition budget rest
          pure (name :: names, rest)
      | rest => pure ([name], rest)

/-- A key: names with dots between them, not too many. -/
def key? (edition : Edition) (cs : List Char) : Option (List String × List Char) := do
  let (names, rest) ← names? edition (cs.length + 1) cs
  if names.length ≤ edition.depthLimit then pure (names, rest) else none

end Toml

end CallerGraph
