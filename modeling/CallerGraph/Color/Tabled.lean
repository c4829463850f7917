import CallerGraph.Color.Palette
import Std.Data.HashMap
import Std.Data.HashSet

/-!
# Palettes with tables

A palette that is asked again and again keeps two tables, one of the colours of
classes and one of the colours in use.  They are filled together, and nothing
but that keeps them in step.

A set has no order of its own.  When a colour is chosen, the colours in use are
listed in one order or another, and `listing` stands for whatever order that
is.
-/

namespace CallerGraph

/-- The colours of classes, and the set of colours in use. -/
structure TabledPalette where
  source : ColorSource
  /-- The position of the next word. -/
  position : Nat
  assigned : Std.HashMap String String
  used : Std.HashSet String
  /-- A class had to share a colour, for want of another. -/
  stalled : Bool

namespace TabledPalette

/-- Empty tables, and words from the start of a source. -/
def fresh (source : ColorSource) : TabledPalette :=
  ⟨source, 0, ∅, ∅, false⟩

/-- The colour of a class that already has one. -/
def lookup? (palette : TabledPalette) (className : String) : Option String :=
  palette.assigned[className]?

variable (listing : Std.HashSet String → List String)

/-- Draws until a colour is free, at most `tries + 1` times. -/
def search (words : Words) (used : Std.HashSet String) : Nat → Nat → Palette.Search
  | tries, position =>
      let (color, next) := chooseColor words position (listing used)
      if used.contains color then
        match tries with
        | 0 => ⟨color, next, false⟩
        | tries + 1 => search words used tries next
      else ⟨color, next, true⟩

/-- The colour of a class, given now if it has none yet. -/
def colorFor (palette : TabledPalette) (className : String) : String × TabledPalette :=
  match palette.lookup? className with
  | some color => (color, palette)
  | none =>
      let found :=
        search listing palette.source.words palette.used palette.source.patience palette.position
      (found.color,
        { palette with
          position := found.position
          assigned := palette.assigned.insert className found.color
          used := palette.used.insert found.color
          stalled := palette.stalled || !found.isFree })

/-- The colours of classes, asked for one after the other. -/
def colorsFor (palette : TabledPalette) : List String → List String × TabledPalette
  | [] => ([], palette)
  | className :: classNames =>
      let (color, next) := palette.colorFor listing className
      let (colors, last) := next.colorsFor classNames
      (color :: colors, last)

end TabledPalette

end CallerGraph
