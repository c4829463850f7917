/-!
# White space, trimming and lines

Labels and indented hierarchies are cut at white space and at line ends.
White space is the Unicode property White_Space, all of it: a no-break
space or an ideographic space around a label is trimmed like any other.

Everything is stated on lists of characters:

* `trimChars` drops white space from both ends and nothing else;
* `splitLines` cuts at line feeds, taking a carriage return directly
  before a line feed with it, and yields no empty line after a final
  line feed;
* `indentation` counts leading spaces, and only spaces: a tab is white
  space for trimming but does not indent.
-/

namespace CallerGraph.Text

/-- The code points of the property White_Space, as ranges with both ends
included. -/
def blankRanges : List (Nat × Nat) :=
  [(0x9, 0xD), (0x20, 0x20), (0x85, 0x85), (0xA0, 0xA0), (0x1680, 0x1680),
    (0x2000, 0x200A), (0x2028, 0x2029), (0x202F, 0x202F), (0x205F, 0x205F),
    (0x3000, 0x3000)]

/-- A blank is a character of the property White_Space. -/
def isBlank (c : Char) : Bool :=
  blankRanges.any fun range => range.1 ≤ c.toNat && c.toNat ≤ range.2

/-- The characters from the first that is no blank. -/
def skipBlanks (cs : List Char) : List Char :=
  cs.dropWhile isBlank

/-- The characters between the first and the last that are no blanks. -/
def trimChars (cs : List Char) : List Char :=
  (skipBlanks (skipBlanks cs).reverse).reverse

/-- Cuts at line feeds. A carriage return before a line feed belongs to
the line end, any other is a character of its line. -/
def splitLines : List Char → List (List Char)
  | [] => []
  | '\n' :: cs => [] :: splitLines cs
  | '\r' :: '\n' :: cs => [] :: splitLines cs
  | c :: cs =>
      match splitLines cs with
      | [] => [[c]]
      | line :: lines => (c :: line) :: lines

/-- The number of spaces before the first other character. -/
def indentation (line : List Char) : Nat :=
  (line.takeWhile (· == ' ')).length

/-- What follows `lead` at the start of a text, if it starts so. -/
def dropLead? (lead : String) (cs : List Char) : Option (List Char) :=
  lead.toList.isPrefixOf? cs

/-- What comes before `tail` at the end of a text, if it ends so. -/
def dropTail? (tail : String) (cs : List Char) : Option (List Char) :=
  tail.toList.isSuffixOf? cs

/-- The blanks of the ASCII range that the core library knows are blanks
here. -/
theorem isBlank_of_isWhitespace {c : Char} (h : c.isWhitespace = true) :
    isBlank c = true := by
  simp only [Char.isWhitespace, Bool.or_eq_true, decide_eq_true_eq] at h
  rcases h with ((rfl | rfl) | rfl) | rfl <;> decide

/-- Trimming blanks alone leaves nothing. -/
@[simp] theorem trimChars_nil : trimChars [] = [] := rfl

end CallerGraph.Text
