import CallerGraph.Text.Digit

/-!
# Decimal numbers

A decimal number is an optional sign, digits of which some may stand
behind a point, and an optional power of ten. There is at least one digit.

Such a number stands for the nearest number of double precision. The
largest of these is `2 ^ 1024 - 2 ^ 971`; from half a step above it on
there is no nearest one, and the number is not finite.
-/

namespace CallerGraph

/-- A decimal number by its parts. -/
structure Decimal where
  isNegative : Bool
  /-- The digits before the point. -/
  whole : List Char
  /-- The digits behind the point. -/
  fraction : List Char
  exponent : Int
deriving DecidableEq, Repr

namespace Decimal

/-- Takes off a sign; tells whether it is a minus sign. -/
def splitSign : List Char → Bool × List Char
  | '-' :: rest => (true, rest)
  | '+' :: rest => (false, rest)
  | cs => (false, cs)

/-- A whole number with an optional sign. -/
def integer? (cs : List Char) : Option Int :=
  let (isNegative, digits) := splitSign cs
  (Text.decimal? digits).map fun (n : Nat) => if isNegative then -(n : Int) else (n : Int)

/-- The power of ten behind the digits, zero if there is none. -/
def exponent? : List Char → Option Int
  | [] => some 0
  | e :: rest => if e = 'e' ∨ e = 'E' then integer? rest else none

/-- Reads a number. -/
def parse? (cs : List Char) : Option Decimal := do
  let (isNegative, body) := splitSign cs
  let whole := body.takeWhile Char.isDigit
  let (fraction, rest) := match body.dropWhile Char.isDigit with
    | '.' :: rest => (rest.takeWhile Char.isDigit, rest.dropWhile Char.isDigit)
    | rest => ([], rest)
  if whole = [] ∧ fraction = [] then none
  else
    let exponent ← exponent? rest
    pure ⟨isNegative, whole, fraction, exponent⟩

/-- From here on there is no nearest number of double precision. -/
def infinityBound : Nat :=
  Nat.pow 2 1024 - Nat.pow 2 970

/-- Is there a nearest number of double precision? The number of digits
and the power of ten decide it but for numbers of the greatest power. -/
def isFinite (number : Decimal) : Bool :=
  let digits := (number.whole ++ number.fraction).dropWhile (· == '0')
  let scale := number.exponent - number.fraction.length
  let magnitude := scale + digits.length
  if digits = [] ∨ magnitude ≤ 308 then true
  else if 310 ≤ magnitude then false
  else
    let value := Text.decimalValue digits
    decide (value * Nat.pow 10 scale.toNat < infinityBound * Nat.pow 10 (-scale).toNat)

/-- Digits without needless zeros in front. -/
def plainDigits (digits : List Char) : List Char :=
  match digits.dropWhile (· == '0') with
  | [] => ['0']
  | digits => digits

/-- The number with a point, at least one digit on either side of it, and
its power of ten. -/
def literal (number : Decimal) : String :=
  String.ofList ((if number.isNegative then ['-'] else []) ++ plainDigits number.whole ++ ['.'] ++
    (if number.fraction = [] then ['0'] else number.fraction) ++ ['e']) ++ number.exponent.repr

end Decimal

end CallerGraph
