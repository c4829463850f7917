import CallerGraph.Text.Hex

/-!
# JSON documents

A document is a value of `Json`. Objects keep the order of their fields
and may repeat a name, so that whoever reads a record can refuse
repetitions. A number is kept as it is spelled.

A string literal can escape half of a surrogate pair. It is then a
well-formed literal that stands for no text. A value in which that shows,
the string itself or an object with such a name, is `unreadable`: it can
be passed over, but nothing can be made of it.

`Json.write` writes a value on one line or indented by two spaces. Inside
strings it escapes the quote, the backslash and the control characters
below U+0020, and nothing else.
-/

namespace CallerGraph

/-- A JSON value. -/
inductive Json where
  | null
  | bool (value : Bool)
  | number (literal : String)
  | string (text : String)
  | array (items : List Json)
  | object (fields : List (String × Json))
  | unreadable
deriving Repr, Inhabited

namespace Json

/-- A value without line breaks, or one line for each item. -/
inductive Layout where
  | compact
  | indented
deriving DecidableEq, Repr

namespace Layout

/-- What separates items at a depth. -/
def lineBreak : Layout → Nat → String
  | compact, _ => ""
  | indented, depth => "\n" ++ String.ofList (List.replicate (2 * depth) ' ')

/-- What separates a name from its value. -/
def colon : Layout → String
  | compact => ":"
  | indented => ": "

end Layout

/-- A character as it is written inside a string. -/
def escapeChar (c : Char) : List Char :=
  match c with
  | '"' => ['\\', '"']
  | '\\' => ['\\', '\\']
  | '\x08' => ['\\', 'b']
  | '\t' => ['\\', 't']
  | '\n' => ['\\', 'n']
  | '\x0c' => ['\\', 'f']
  | '\r' => ['\\', 'r']
  | c =>
      if c.toNat < 0x20 then
        ['\\', 'u', '0', '0', Text.hexDigit (c.toNat / 16), Text.hexDigit (c.toNat % 16)]
      else [c]

/-- A text as a string literal. -/
def quote (text : String) : String :=
  String.ofList ('"' :: text.toList.flatMap escapeChar ++ ['"'])

mutual

/-- Writes a value whose own line is indented to `depth`. -/
def writeAt (layout : Layout) (depth : Nat) : Json → String
  | null => "null"
  | bool true => "true"
  | bool false => "false"
  | number literal => literal
  | string text => quote text
  | array [] => "[]"
  | array (item :: items) =>
      "[" ++ layout.lineBreak (depth + 1) ++ writeAt layout (depth + 1) item ++
        writeItems layout (depth + 1) items ++ layout.lineBreak depth ++ "]"
  | object [] => "\x7b\x7d"
  | object ((name, value) :: fields) =>
      "\x7b" ++ layout.lineBreak (depth + 1) ++ quote name ++ layout.colon ++
        writeAt layout (depth + 1) value ++ writeFields layout (depth + 1) fields ++
        layout.lineBreak depth ++ "\x7d"
  | unreadable => "null"

/-- Writes the items of an array behind the first. -/
def writeItems (layout : Layout) (depth : Nat) : List Json → String
  | [] => ""
  | item :: items =>
      "," ++ layout.lineBreak depth ++ writeAt layout depth item ++ writeItems layout depth items

/-- Writes the fields of an object behind the first. -/
def writeFields (layout : Layout) (depth : Nat) : List (String × Json) → String
  | [] => ""
  | (name, value) :: fields =>
      "," ++ layout.lineBreak depth ++ quote name ++ layout.colon ++
        writeAt layout depth value ++ writeFields layout depth fields

end

/-- Writes a document. -/
def write (layout : Layout) (value : Json) : String :=
  writeAt layout 0 value

/-- The number of a natural number. -/
def ofNat (n : Nat) : Json :=
  number n.repr

end Json

end CallerGraph
