import CallerGraph.Text.Blank
import CallerGraph.Text.Decimal
import CallerGraph.Text.Hex
import CallerGraph.Text.Letter

/-!
# Patterns for the values of fields

A directive of a log filter can ask for a field with a value: a truth
value, a number, or a regular expression that the text of the field has to
match. Here it is only decided whether a text is such a value, by the
grammar of regular expressions.

A pattern is read from left to right. Groups can set the mode for what
follows in them: with `x` white space and comments do not count, and
without `u` the classes are those of ASCII. A pattern is matched without
looking at neighbouring characters beyond ASCII, so that the limits of
words can be asked for in ASCII alone; and it matches whole characters
only, so that in ASCII no class may be defined by what it leaves out.
-/

namespace CallerGraph

namespace FieldPattern

/-- How a part of a pattern is read. -/
structure Mode where
  /-- White space and comments do not count. -/
  isSpaced : Bool
  /-- Classes are those of Unicode. -/
  isUnicode : Bool
deriving DecidableEq, Repr

/-- The mode at the start of a pattern. -/
def Mode.start : Mode := ⟨false, true⟩

/-- The characters from the first that is neither white space nor in a
comment. -/
def skipComments (inComment : Bool) : List Char → List Char
  | [] => []
  | c :: cs =>
      if inComment then skipComments (c != '\n') cs
      else if Text.isBlank c then skipComments false cs
      else if c = '#' then skipComments true cs
      else c :: cs

/-- What the mode lets pass between the parts of a pattern. -/
def skipGap (mode : Mode) (cs : List Char) : List Char :=
  if mode.isSpaced then skipComments false cs else cs

/-- What stands behind a backslash. -/
inductive Escape where
  | literal (c : Char)
  | charClass
  /-- A place between two characters. -/
  | place
deriving DecidableEq, Repr

/-- The value of some hexadecimal digits. -/
def hexDigits? (mode : Mode) : Nat → Nat → List Char → Option (Nat × List Char)
  | 0, value, cs => some (value, cs)
  | count + 1, value, cs =>
      match skipGap mode cs with
      | [] => none
      | c :: rest => do
          let digit ← Text.hexValue? c
          hexDigits? mode count (value * 16 + digit) rest

/-- The character with a code point of so many digits. -/
def codePoint? (mode : Mode) (count : Nat) (cs : List Char) : Option (Escape × List Char) := do
  let (code, rest) ← hexDigits? mode count 0 cs
  let isByte := count = 2 ∧ 0x80 ≤ code
  if code.isValidChar ∧ (mode.isUnicode ∨ ¬isByte) then pure (.literal (Char.ofNat code), rest)
  else none

/-- The escapes that stand for control characters. -/
def controlEscapes : List (Char × Char) :=
  [('a', '\x07'), ('f', '\x0c'), ('t', '\t'), ('n', '\n'), ('r', '\r'), ('v', '\x0b')]

/-- The one-letter names of the general categories. -/
def categories : List Char := ['c', 'l', 'm', 'n', 'p', 's', 'z']

/-- What stands behind a backslash. Any ASCII character that is neither a
letter nor a digit stands for itself, but for the angle brackets. -/
def escape? (mode : Mode) : List Char → Option (Escape × List Char)
  | [] => none
  | 'x' :: rest => codePoint? mode 2 rest
  | 'u' :: rest => codePoint? mode 4 rest
  | 'U' :: rest => codePoint? mode 8 rest
  | c :: rest =>
      if ['d', 's', 'w'].contains c then some (.charClass, rest)
      else if ['D', 'S', 'W'].contains c then
        if mode.isUnicode then some (.charClass, rest) else none
      else if ['p', 'P'].contains c then
        match skipGap mode rest with
        | [] => none
        | name :: rest =>
            if mode.isUnicode && categories.contains name.toLower then some (.charClass, rest)
            else none
      else if ['A', 'z'].contains c then some (.place, rest)
      else if ['b', 'B', '<', '>'].contains c then
        if mode.isUnicode then none else some (.place, rest)
      else
        match controlEscapes.lookup c with
        | some control => some (.literal control, rest)
        | none =>
            if c.toNat < 0x80 && !c.isAlphanum then some (.literal c, rest) else none

/-- The names of the classes of ASCII. -/
def asciiClasses : List String :=
  ["alnum", "alpha", "ascii", "blank", "cntrl", "digit", "graph", "lower", "print", "punct",
    "space", "upper", "word", "xdigit"]

/-- A class of ASCII inside a class, behind its first bracket. -/
def asciiClass? : List Char → Option (List Char)
  | ':' :: rest =>
      let named := match rest with
        | '^' :: rest => rest
        | rest => rest
      match named.dropWhile (· != ':') with
      | ':' :: ']' :: behind =>
          if asciiClasses.contains (String.ofList (named.takeWhile (· != ':'))) then some behind
          else none
      | _ => none
  | _ => none

/-- The start of a class behind its bracket: a caret, dashes, or a bracket
that stands for itself. There has to be something behind it. -/
def classStart? (mode : Mode) (cs : List Char) : Option (List Char) :=
  let isNegated := (skipGap mode cs).head? = some '^'
  let body := if isNegated then skipGap mode ((skipGap mode cs).drop 1) else skipGap mode cs
  let rest := body.dropWhile fun c => c == '-' || (mode.isSpaced && Text.isBlank c)
  let rest := if rest.length = body.length ∧ body.head? = some ']' then body.drop 1 else rest
  let rest := skipGap mode rest
  if rest = [] ∨ (isNegated ∧ ¬mode.isUnicode) then none else some rest

/-- A member of a class. -/
def member? (mode : Mode) : List Char → Option (Escape × List Char)
  | [] => none
  | '\\' :: rest => escape? mode rest
  | c :: rest => some (.literal c, rest)

/-- A member of a class, or two of them with a dash between them, of which
the second must not come before the first. -/
def range? (mode : Mode) (cs : List Char) : Option (List Char) := do
  let (first, rest) ← member? mode cs
  match skipGap mode rest with
  | [] => none
  | '-' :: behind =>
      let next := (skipGap mode behind).head?
      if next = some ']' ∨ next = some '-' then
        if first = .place then none else pure ('-' :: behind)
      else
        let (last, rest) ← member? mode (skipGap mode behind)
        match first, last with
        | .literal a, .literal b => if a ≤ b then pure rest else none
        | _, _ => none
  | rest => if first = .place then none else pure rest

/-- What follows a class that is so many classes deep. -/
def classRest? (mode : Mode) : Nat → Nat → List Char → Option (List Char)
  | 0, _, _ => none
  | budget + 1, depth, cs =>
      match skipGap mode cs with
      | [] => none
      | ']' :: rest => if depth = 0 then some rest else classRest? mode budget (depth - 1) rest
      | '[' :: rest =>
          match asciiClass? rest with
          | some rest => classRest? mode budget depth rest
          | none => do
              let rest ← classStart? mode rest
              classRest? mode budget (depth + 1) rest
      | '&' :: '&' :: rest => classRest? mode budget depth rest
      | '-' :: '-' :: rest => classRest? mode budget depth rest
      | '~' :: '~' :: rest => classRest? mode budget depth rest
      | cs => do
          let rest ← range? mode cs
          classRest? mode budget depth rest

/-- The letters for modes. -/
def modeLetters : List Char := ['i', 'm', 's', 'U', 'u', 'R', 'x']

/-- The letters for modes at the start of a text. A letter does not come
twice; a dash turns off what follows, comes once, and is not the last. -/
def modeChange? (isOff : Bool) (seen : List Char) (mode : Mode) :
    List Char → Option (Mode × List Char)
  | [] => none
  | '-' :: c :: rest =>
      if isOff ∨ c = ':' ∨ c = ')' then none else modeChange? true seen mode (c :: rest)
  | c :: rest =>
      if c = ':' ∨ c = ')' then some (mode, c :: rest)
      else if !modeLetters.contains c || seen.contains c then none
      else
        let mode := match c with
          | 'x' => { mode with isSpaced := !isOff }
          | 'u' => { mode with isUnicode := !isOff }
          | _ => mode
        modeChange? isOff (c :: seen) mode rest

/-- A character of the name of a group. -/
def isNameChar (isFirst : Bool) (c : Char) : Bool :=
  c == '_' ||
    if isFirst then Text.isLetter c
    else Text.isAlphanumeric c || c == '.' || c == '[' || c == ']'

/-- What stands behind an opening parenthesis. -/
inductive Opening where
  /-- A group with a mode and maybe a name. -/
  | group (mode : Mode) (name : Option String)
  /-- A mode for what follows. -/
  | change (mode : Mode)

/-- The name of a group up to the angle bracket that closes it. -/
def groupName? (mode : Mode) (cs : List Char) : Option (Opening × List Char) :=
  let name := cs.takeWhile (· != '>')
  match name, cs.dropWhile (· != '>') with
  | first :: others, '>' :: rest =>
      if isNameChar true first && others.all (isNameChar false) then
        some (.group mode (some (String.ofList name)), rest)
      else none
  | _, _ => none

/-- What stands behind an opening parenthesis. There is no looking ahead
and no looking back. -/
def opening? (mode : Mode) (cs : List Char) : Option (Opening × List Char) :=
  match cs with
  | '?' :: '=' :: _ | '?' :: '!' :: _ => none
  | '?' :: '<' :: '=' :: _ | '?' :: '<' :: '!' :: _ => none
  | '?' :: 'P' :: '<' :: rest | '?' :: '<' :: rest => groupName? mode rest
  | '?' :: ')' :: _ => none
  | '?' :: rest =>
      match modeChange? false [] mode rest with
      | some (changed, ':' :: rest) => some (.group changed none, rest)
      | some (changed, ')' :: rest) => some (.change changed, rest)
      | _ => none
  | cs => some (.group mode none, cs)

/-- The characters that repeat what is before them. -/
def isRepetition (c : Char) : Bool :=
  c == '*' || c == '+' || c == '?'

/-- Is the rest of a pattern well-formed? Known are the modes around the
open groups, whether there is something to repeat, and the names of groups
so far. -/
def isRest : Nat → List Mode → Mode → Bool → List String → List Char → Bool
  | 0, _, _, _, _, _ => false
  | budget + 1, around, mode, canRepeat, names, cs =>
      match skipGap mode cs with
      | [] => around.isEmpty
      | '(' :: rest =>
          match opening? mode (skipGap mode rest) with
          | none => false
          | some (.change mode, rest) => isRest budget around mode false names rest
          | some (.group inner none, rest) => isRest budget (mode :: around) inner false names rest
          | some (.group inner (some name), rest) =>
              !names.contains name &&
                isRest budget (mode :: around) inner false (name :: names) rest
      | ')' :: rest =>
          match around with
          | [] => false
          | outer :: around => isRest budget around outer true names rest
      | '|' :: rest => isRest budget around mode false names rest
      | '[' :: rest =>
          match (classStart? mode rest).bind (classRest? mode (rest.length + 1) 0) with
          | some rest => isRest budget around mode true names rest
          | none => false
      | '\\' :: rest =>
          match escape? mode rest with
          | some (_, rest) => isRest budget around mode true names rest
          | none => false
      | '\x7b' :: _ => false
      | '.' :: rest => mode.isUnicode && isRest budget around mode true names rest
      | c :: rest =>
          if isRepetition c then
            canRepeat && isRest budget around mode true names
              (if rest.head? = some '?' then rest.drop 1 else rest)
          else isRest budget around mode true names rest

/-- Is a text a regular expression? Repetitions with a number in braces are
none here, since a brace ends the field that they would be in. -/
def isPattern (cs : List Char) : Bool :=
  isRest (cs.length + 1) [] .start false [] cs

/-- The words for numbers that are not finite. -/
def unboundedWords : List String :=
  ["inf", "infinity", "nan"]

/-- Is a text a number? -/
def isNumber (cs : List Char) : Bool :=
  (Decimal.parse? cs).isSome ||
    unboundedWords.contains ((String.ofList (Decimal.splitSign cs).2).map Char.toLower)

/-- Can a directive ask for a field with the value? Truth values are
patterns as well. -/
def isValue (cs : List Char) : Bool :=
  isNumber cs || isPattern cs

end FieldPattern

end CallerGraph
