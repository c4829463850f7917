import CallerGraph.Color.Choice

/-!
# One colour for each class

A palette gives every class a colour of its own and keeps to it. A colour
that is already taken is drawn again.

A sequence of words could repeat itself for ever, so drawing again has a
limit, the patience of the source. A palette that reaches it is marked as
stalled; one that is not has a different colour for every class.
-/

namespace CallerGraph

/-- Where colours come from. -/
structure ColorSource where
  words : Words
  /-- How often a colour that is taken is drawn again. -/
  patience : Nat

/-- The colours of a sequence of words, with more patience than is used up
as long as most colours are free. -/
def ColorSource.ofWords (words : Words) : ColorSource :=
  ⟨words, 1000000⟩

/-- The colours given to classes so far. -/
structure Palette where
  source : ColorSource
  /-- The position of the next word. -/
  position : Nat
  /-- The classes with their colours, in the order in which they came. -/
  assigned : List (String × String)
  /-- A class had to share a colour, for want of another. -/
  stalled : Bool

namespace Palette

/-- A palette that draws from the start of a source. -/
def fresh (source : ColorSource) : Palette :=
  ⟨source, 0, [], false⟩

/-- The colours in use. -/
def inUse (palette : Palette) : List String :=
  palette.assigned.map (·.2)

/-- The colour of a class that already has one. -/
def lookup? (palette : Palette) (className : String) : Option String :=
  (palette.assigned.find? (·.1 == className)).map (·.2)

/-- A colour chosen in a search for one that is free. -/
structure Search where
  color : String
  position : Nat
  isFree : Bool

/-- Draws until a colour is free, at most `tries + 1` times. -/
def search (words : Words) (inUse : List String) : Nat → Nat → Search
  | tries, position =>
      let (color, next) := chooseColor words position inUse
      if inUse.contains color then
        match tries with
        | 0 => ⟨color, next, false⟩
        | tries + 1 => search words inUse tries next
      else ⟨color, next, true⟩

/-- The colour of a class, given now if it has none yet. -/
def colorFor (palette : Palette) (className : String) : String × Palette :=
  match palette.lookup? className with
  | some color => (color, palette)
  | none =>
      let found :=
        search palette.source.words palette.inUse palette.source.patience palette.position
      (found.color,
        { palette with
          position := found.position
          assigned := palette.assigned ++ [(className, found.color)]
          stalled := palette.stalled || !found.isFree })

end Palette

end CallerGraph
