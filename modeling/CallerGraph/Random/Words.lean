/-!
# Random words

Colours are drawn from an endless sequence of 32-bit words. The sequence
is data, a function of the position: whoever draws from it keeps the
position, and everything that is said about drawing holds of every
sequence.
-/

namespace CallerGraph

/-- An endless sequence of random words. -/
structure Words where
  word : Nat → UInt32

namespace Words

/-- The number between 0 and 1 that stands in the upper 24 bits of the
word at a position; all of them are exact. -/
def unit (words : Words) (position : Nat) : Float32 :=
  (words.word position >>> 8).toFloat32 * 5.9604644775390625e-8

/-- The words of a linear congruential sequence, the first at 0. -/
def congruential : Nat → UInt32
  | 0 => 0x12345678 * 1664525 + 1013904223
  | n + 1 => congruential n * 1664525 + 1013904223

/-- The given words, and a linear congruential sequence behind them. -/
def scripted (given : Array UInt32) : Words where
  word position :=
    if h : position < given.size then given[position]
    else congruential (position - given.size)

end Words

end CallerGraph
