import CallerGraph.Random.Words

/-!
# Seeded random words

The words of a seed are the keystream of the ChaCha cipher with twelve
rounds, a 64-bit block counter that starts at 0 and the stream number 0.
The key is spread from the seed by eight steps of a permuted congruential
generator.
-/

namespace CallerGraph

namespace Keystream

/-- The sixteen words that a block is made from and made of. -/
abbrev Block := Vector UInt32 16

/-- Turns a word to the left by 1 to 31 bits. -/
def turn (word : UInt32) (bits : UInt32) : UInt32 :=
  (word <<< bits) ||| (word >>> (32 - bits))

/-- Mixes four words of a block. -/
def quarterRound (a b c d : Fin 16) (s : Block) : Block :=
  let s := s.set a (s[a] + s[b])
  let s := s.set d (turn (s[d] ^^^ s[a]) 16)
  let s := s.set c (s[c] + s[d])
  let s := s.set b (turn (s[b] ^^^ s[c]) 12)
  let s := s.set a (s[a] + s[b])
  let s := s.set d (turn (s[d] ^^^ s[a]) 8)
  let s := s.set c (s[c] + s[d])
  s.set b (turn (s[b] ^^^ s[c]) 7)

/-- A round down the columns of the block, then one along its diagonals. -/
def doubleRound (s : Block) : Block :=
  let s := quarterRound 0 4 8 12 s
  let s := quarterRound 1 5 9 13 s
  let s := quarterRound 2 6 10 14 s
  let s := quarterRound 3 7 11 15 s
  let s := quarterRound 0 5 10 15 s
  let s := quarterRound 1 6 11 12 s
  let s := quarterRound 2 7 8 13 s
  quarterRound 3 4 9 14 s

/-- Two rounds, `n` times over. -/
def doubleRounds : Nat → Block → Block
  | 0, s => s
  | n + 1, s => doubleRounds n (doubleRound s)

/-- The block before mixing: four constants, the key, the block counter
and the stream number. -/
def start (key : Vector UInt32 8) (counter : UInt64) : Block :=
  #v[0x61707865, 0x3320646e, 0x79622d32, 0x6b206574,
    key[0], key[1], key[2], key[3], key[4], key[5], key[6], key[7],
    counter.toUInt32, (counter >>> 32).toUInt32, 0, 0]

/-- The block at a counter: twelve rounds, added to where they started. -/
def block (key : Vector UInt32 8) (counter : UInt64) : Block :=
  let first := start key counter
  Vector.zipWith (· + ·) (doubleRounds 6 first) first

/-- The states of the generator that spreads a seed; the seed itself is
not among them. -/
def spreadState (seed : UInt64) : Nat → UInt64
  | 0 => seed * 6364136223846793005 + 11634580027462260723
  | n + 1 => spreadState seed n * 6364136223846793005 + 11634580027462260723

/-- The word of a state: its upper bits folded over, and turned to the
right by the topmost five. -/
def spreadWord (state : UInt64) : UInt32 :=
  let folded := (((state >>> 18) ^^^ state) >>> 27).toUInt32
  let bits := (state >>> 59).toUInt32
  (folded >>> bits) ||| (folded <<< ((32 - bits) % 32))

/-- The key of a seed. -/
def key (seed : UInt64) : Vector UInt32 8 :=
  Vector.ofFn fun i : Fin 8 => spreadWord (spreadState seed i)

end Keystream

namespace Words

/-- The words of a seed. -/
def seeded (seed : UInt64) : Words :=
  let key := Keystream.key seed
  { word := fun position =>
      (Keystream.block key (UInt64.ofNat (position / 16))).get
        ⟨position % 16, Nat.mod_lt _ (by decide)⟩ }

end Words

end CallerGraph
