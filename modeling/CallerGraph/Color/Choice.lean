import CallerGraph.Color.Hsb
import CallerGraph.Random.Words

/-!
# Choosing a colour that stands out

`chooseColor` takes the colours in use and answers one that differs from
them. Drawn colours are neither pale nor dark: their saturation and
brightness stay in a box. With no colour in use the first one drawn is
taken. Otherwise fifty are drawn, and of those the one whose nearest
colour in use is farthest away is taken, the earliest if several are.

Texts in use that are no hexadecimal colours are passed over. A choice
draws three words or one hundred and fifty, and nothing in between.
-/

namespace CallerGraph

/-- The number of colours among which one is chosen. -/
def candidateCount : Nat := 50

/-- The number of words that one colour takes. -/
def wordsPerColor : Nat := 3

/-- The lowest and highest saturation of a drawn colour. -/
def saturationBox : Float32 × Float32 := (0.70, 1.0)

/-- The lowest and highest brightness of a drawn colour. -/
def brightnessBox : Float32 × Float32 := (0.55, 0.80)

/-- A number of the box at a share of its width. -/
def withinBox (box : Float32 × Float32) (share : Float32) : Float32 :=
  share * (box.2 - box.1) + box.1

/-- The colour of the three words at a position. -/
def drawColor (words : Words) (position : Nat) : Hsb where
  hue := words.unit position
  saturation := withinBox saturationBox (words.unit (position + 1))
  brightness := withinBox brightnessBox (words.unit (position + 2))

/-- Larger than every distance. -/
def infinitelyFar : Float32 := 1.0 / 0.0

/-- The distance to the nearest of the colours in use. -/
def clearance (inUse : List Hsb) (color : Hsb) : Float32 :=
  inUse.foldl (fun nearest other => lesser nearest (color.distance other)) infinitelyFar

/-- The colour with the largest score, the earliest of several; `best` is
the largest so far. -/
def farthest (score : Hsb → Float32) (best : Hsb × Float32) : List Hsb → Hsb
  | [] => best.1
  | color :: colors =>
      let reached := score color
      farthest score (if best.2 < reached then (color, reached) else best) colors

/-- A colour that differs from those in use, and the position behind the
words it took. -/
def chooseColor (words : Words) (position : Nat) (inUse : List String) : String × Nat :=
  match inUse.filterMap Hsb.ofHex? with
  | [] => ((drawColor words position).toHex, position + wordsPerColor)
  | known :: others =>
      let score := clearance (known :: others)
      let first := drawColor words position
      let rest := (List.range (candidateCount - 1)).map fun i =>
        drawColor words (position + wordsPerColor * (i + 1))
      ((farthest score (first, score first) rest).toHex,
        position + wordsPerColor * candidateCount)

end CallerGraph
