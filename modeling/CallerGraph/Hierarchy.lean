import CallerGraph.Graph.Finalise
import CallerGraph.Text.Blank

/-!
# Hierarchies as indented text

A hierarchy of callers can be given as text, one method label on a line.
A line is a caller of the nearest line above it that is one level less
indented; a line without indentation is an entry. A line

    [... Recursive call to LABEL ...]

says that the method it stands under is called by a method further up.
Blank lines are skipped.

The level of a line is its number of leading spaces by the width of a
level, rounded down, but never more than one below the line before it.
Reading keeps the stack of the lines that the next one can stand under,
`Reading.ancestors`: each line cuts it down to its own level, and a line
with a label is then put on it. A marker is not, so nothing stands under
a marker.
-/

namespace CallerGraph

/-- How a hierarchy is to be read. -/
structure HierarchyOptions where
  /-- The number of spaces of a level; none counts as one. -/
  indentWidth : Nat
  cycles : CyclePolicy
  /-- Where the colours of classes come from. -/
  colors : ColorSource

namespace Hierarchy

/-- The number of spaces of a level where nothing else is said. -/
def defaultIndentWidth : Nat := 4

/-- The label in a line that marks a recursive call. -/
def markedLabel? (content : List Char) : Option (List Char) := do
  let behind ← Text.dropLead? "[... Recursive call to " content
  let label ← Text.dropTail? " ...]" behind
  pure (Text.trimChars label)

/-- A hierarchy read up to some line. -/
structure Reading where
  draft : Draft
  /-- The methods of the lines that the next line can stand under, from
  the entry on. -/
  ancestors : List NodeId
  events : Array Event

namespace Reading

/-- Nothing read. -/
def start (colors : ColorSource) : Reading :=
  ⟨.fresh colors, [], #[]⟩

/-- Tells events. -/
def tell (reading : Reading) (events : List Event) : Reading :=
  { reading with events := reading.events ++ events }

/-- Registers a method. -/
def register (reading : Reading) (label : Label) (entry : Bool) : NodeId × Reading :=
  let (id, draft) := reading.draft.register label entry
  (id, { reading.tell (reading.draft.notices label) with draft })

/-- Links a caller to a method. -/
def link (reading : Reading) (call : Call) : Reading :=
  { reading with draft := reading.draft.link call }

/-- The level of a line below the lines read so far. -/
def level (reading : Reading) (width : Nat) (line : List Char) : Nat :=
  min (Text.indentation line / max width 1) reading.ancestors.length

/-- Reads a line that marks a recursive call from `label`. Without a line
to stand under it says nothing. -/
def readMarker (reading : Reading) (cycles : CyclePolicy) (label : Label) : Reading :=
  match reading.ancestors.getLast?, cycles with
  | some parent, .mark =>
      let (source, reading) := reading.register label false
      reading.link ⟨source, parent, true⟩
  | _, _ => reading

/-- Reads a line with the label of a method. -/
def readLabel (reading : Reading) (label : Label) : Reading :=
  let (id, registered) := reading.register label reading.ancestors.isEmpty
  let linked := match reading.ancestors.getLast? with
    | some parent => registered.link ⟨id, parent, false⟩
    | none => registered
  { linked with ancestors := reading.ancestors ++ [id] }

/-- Reads a line. Lines are numbered from 1. -/
def readLine (options : HierarchyOptions) (reading : Reading) (line : List Char)
    (number : Nat) : Reading :=
  let content := Text.trimChars line
  if content = [] then reading
  else
    let level := reading.level options.indentWidth line
    let reading := { reading with ancestors := reading.ancestors.take level }
    match markedLabel? content with
    | some label =>
        let label := String.ofList label
        (reading.tell [.recursiveMarker number label]).readMarker options.cycles ⟨label⟩
    | none => reading.readLabel ⟨String.ofList content⟩

/-- Reads lines of which the first has the given number. -/
def readLines (options : HierarchyOptions) : Reading → List (List Char) → Nat → Reading
  | reading, [], _ => reading
  | reading, line :: lines, number =>
      readLines options (reading.readLine options line number) lines (number + 1)

end Reading

/-- Reads a hierarchy. -/
def read (options : HierarchyOptions) (text : String) : Reading :=
  (Reading.start options.colors).readLines options (Text.splitLines text.toList) 1

/-- The graph of a hierarchy. -/
def graph (options : HierarchyOptions) (text : String) (pruned : Bool) : Graph :=
  (read options text).draft.toGraph pruned

/-- What there is to tell about reading a hierarchy and finishing its
graph. -/
def events (options : HierarchyOptions) (text : String) (pruned : Bool) : List Event :=
  let reading := read options text
  reading.events.toList ++ reading.draft.toGraphEvents pruned

end Hierarchy

end CallerGraph
