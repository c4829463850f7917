import CallerGraph.Event
import CallerGraph.Settings.FieldPattern
import CallerGraph.Text.Blank
import CallerGraph.Text.Bytes
import CallerGraph.Text.Digit
import CallerGraph.Text.Pieces

/-!
# Log filters

A log filter is a list of directives with commas between them. A directive
is a level, or a topic with an optional span in square brackets and an
optional level behind an equals sign; without a level everything below the
topic is let through. The topic may be missing in front of a span. A
filter with a directive of any other form is refused as a whole. Empty
directives say nothing.

The form of a directive is that of its text without the blanks around it.
Its parts, though, are cut out of the text with these blanks, at the same
distances from the start. So a blank before a level spoils it, and so does
one behind it; a topic keeps its blanks.

An event is let through by the directive with the longest topic that
starts the topic of the event. No event is inside of a span.
-/

namespace CallerGraph

/-- How much a directive lets through: nothing, or levels down to one. -/
inductive Verbosity where
  | off
  | error
  | warn
  | info
  | debug
  | trace
deriving DecidableEq, Repr

namespace Verbosity

/-- The verbosities from the quietest on. -/
def all : List Verbosity := [off, error, warn, info, debug, trace]

/-- The verbosities by their words. -/
def names : List (String × Verbosity) :=
  ["off", "error", "warn", "info", "debug", "trace"].zip all

/-- Reads a verbosity: its word in either case, or its number. -/
def parse? (text : String) : Option Verbosity :=
  match Text.unsigned? all.length text with
  | some number => all[number]?
  | none => names.lookup (text.map Char.toLower)

/-- Does it let events of a level through? -/
def allows : Verbosity → Level → Bool
  | off, _ => false
  | error, _ => false
  | warn, level => level == .warn
  | info, level => level != .debug
  | debug, _ => true
  | trace, _ => true

end Verbosity

/-- A span that a directive asks for, maybe with a field. -/
structure SpanSelector where
  name : String
  field : Option String
deriving DecidableEq, Repr

/-- A directive; one without a topic is for all events. -/
structure Directive where
  topic : String
  span : Option SpanSelector
  verbosity : Verbosity
deriving DecidableEq, Repr

namespace Directive

/-- The characters with which a topic can start. -/
def isTopicStart (c : Char) : Bool :=
  c == '_' || c == ':' || c == '-' || Text.isAlphanumeric c

/-- Where the parts of a directive stand, in bytes from its start. -/
structure Outline where
  /-- The end of the topic, if there is a mark behind it. -/
  topicEnd : Option Nat
  /-- The start and the end of the name of the span. -/
  span : Option (Nat × Nat)
  /-- The start and the end of the field. -/
  field : Option (Nat × Nat)
  /-- The start of the level. -/
  levelStart : Option Nat
deriving DecidableEq, Repr

namespace Outline

/-- Puts the level into an outline, from the text at its mark on. -/
def withLevel? (outline : Outline) (start : Nat) : List Char → Option Outline
  | [] => some outline
  | '=' :: _ => some { outline with levelStart := some (start + 1) }
  | _ => none

/-- The outline of a directive with a span, from the text behind the
bracket that opens it on. A field in braces can follow the name. -/
def ofSpan? (topicEnd : Option Nat) (start : Nat) (cs : List Char) : Option Outline :=
  let isName (c : Char) : Bool := c != ']' && c != '\x7b'
  let nameEnd := start + Text.byteLength (cs.takeWhile isName)
  match cs.dropWhile isName with
  | ']' :: rest => withLevel? ⟨topicEnd, some (start, nameEnd), none, none⟩ (nameEnd + 1) rest
  | '\x7b' :: rest =>
      let field := rest.takeWhile (· != '\x7d')
      let fieldEnd := nameEnd + 1 + Text.byteLength field
      match field, rest.dropWhile (· != '\x7d') with
      | _ :: _, '\x7d' :: ']' :: rest =>
          withLevel? ⟨topicEnd, some (start, nameEnd), some (nameEnd + 1, fieldEnd), none⟩
            (fieldEnd + 2) rest
      | _, _ => none
  | _ => none

/-- The outline of a directive without blanks around it. -/
def parse? : List Char → Option Outline
  | [] => none
  | '[' :: rest => ofSpan? none 1 rest
  | c :: cs =>
      if !isTopicStart c then none
      else
        let isTopic (c : Char) : Bool := c != '=' && c != '['
        let topicEnd := Text.byteLength ((c :: cs).takeWhile isTopic)
        match (c :: cs).dropWhile isTopic with
        | [] => some ⟨none, none, none, none⟩
        | '[' :: rest => ofSpan? (some topicEnd) (topicEnd + 1) rest
        | rest => withLevel? ⟨some topicEnd, none, none, none⟩ topicEnd rest

end Outline

/-- A level or a topic alone. -/
def plain (text : String) : Directive :=
  match Verbosity.parse? text with
  | some verbosity => ⟨"", none, verbosity⟩
  | none => ⟨text, none, .trace⟩

/-- The text between two distances. -/
def part? (cs : List Char) (range : Nat × Nat) : Option String :=
  (Text.cutBytes? range.1 range.2 cs).map String.ofList

/-- A field, of which only what stands between the first and the second
equals sign is a value. -/
def field? (cs : List Char) (range : Nat × Nat) : Option String := do
  let field ← part? cs range
  match Text.pieces '=' field.toList with
  | _ :: value :: _ => if FieldPattern.isValue value then pure field else none
  | _ => pure field

/-- The level from a distance on, and everything when nothing is there. -/
def level? (cs : List Char) (start : Nat) : Option Verbosity := do
  match ← Text.dropBytes? start cs with
  | [] => pure .trace
  | level => Verbosity.parse? (String.ofList level)

/-- Reads a directive. -/
def parse? (text : String) : Option Directive := do
  let cs := text.toList
  let outline ← Outline.parse? (Text.trimChars cs)
  if outline = ⟨none, none, none, none⟩ then pure (plain text)
  else
    let topic ← part? cs (0, outline.topicEnd.getD 0)
    let span ← match outline.span with
      | none => pure none
      | some range => do
          let name ← part? cs range
          let field ← outline.field.mapM (field? cs)
          pure (some ⟨name, field⟩)
    let verbosity ← match outline.levelStart with
      | none => pure .trace
      | some start => level? cs start
    pure ⟨topic, span, verbosity⟩

end Directive

/-- A list of directives. -/
structure LogFilter where
  directives : List Directive
deriving DecidableEq, Repr

namespace LogFilter

/-- Reads a filter. -/
def parse? (text : String) : Option LogFilter := do
  let pieces := (Text.pieces ',' text.toList).filter (· ≠ [])
  let directives ← pieces.mapM fun piece => Directive.parse? (String.ofList piece)
  pure ⟨directives⟩

/-- Does the filter let an event through? -/
def allows (filter : LogFilter) (event : Event) : Bool :=
  let matching := filter.directives.filter fun directive =>
    directive.span.isNone && directive.topic.toList.isPrefixOf event.topic.toList
  let longest := matching.foldl (fun best directive =>
    match best with
    | none => some directive
    | some known =>
        if known.topic.length ≤ directive.topic.length then some directive else best) none
  match longest with
  | some directive => directive.verbosity.allows event.level
  | none => false

end LogFilter

end CallerGraph
