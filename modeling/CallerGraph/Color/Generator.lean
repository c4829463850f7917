import CallerGraph.Color.Choice

/-!
# Drawing from a generator

A generator has a state; it answers one word at a time and goes on to its next
state.  A colour can be chosen while the words are drawn: the best colour so
far is kept with its clearance, and gives way to one that is farther away.

`Words.drawn` are the words that a generator will answer, and `advance` is its
state when some of them have been drawn.
-/

namespace CallerGraph

/-- The number between 0 and 1 that stands in the upper 24 bits of a word. -/
def unitOfWord (word : UInt32) : Float32 :=
  (word >>> 8).toFloat32 * 5.9604644775390625e-8

namespace Generator

variable {γ : Type} (next : StateM γ UInt32)

/-- Draws a number between 0 and 1. -/
def drawUnit : StateM γ Float32 := do
  let word ← next
  pure (unitOfWord word)

/-- Draws a colour that is neither pale nor dark. -/
def draw : StateM γ Hsb := do
  let hue ← drawUnit next
  let saturation ← drawUnit next
  let brightness ← drawUnit next
  pure ⟨hue, withinBox saturationBox saturation, withinBox brightnessBox brightness⟩

/-- The better of the best colour so far and another one. -/
def keepBest (score : Hsb → Float32) (best : Option (Float32 × Hsb)) (color : Hsb) :
    Option (Float32 × Hsb) :=
  let reached := score color
  if best.all (·.1 < reached) then some (reached, color) else best

/-- Draws some colours and keeps the best. -/
def search (score : Hsb → Float32) :
    Nat → Option (Float32 × Hsb) → StateM γ (Option (Float32 × Hsb))
  | 0, best => pure best
  | tries + 1, best => do
      let color ← draw next
      search score tries (keepBest score best color)

/-- A colour that differs from those in use. -/
def generate (inUse : List String) : StateM γ String := do
  let known := inUse.filterMap Hsb.ofHex?
  if known.isEmpty then
    let color ← draw next
    pure color.toHex
  else
    match ← search next (clearance known) candidateCount none with
    | some best => pure best.2.toHex
    | none =>
        let color ← draw next
        pure color.toHex

/-- The state when some words have been drawn. -/
def advance : Nat → γ → γ
  | 0, state => state
  | count + 1, state => (next.run (advance count state)).2

end Generator

/-- The words that a generator will answer. -/
def Words.drawn {γ : Type} (next : StateM γ UInt32) (state : γ) : Words where
  word position := (next.run (Generator.advance next position state)).1

end CallerGraph
