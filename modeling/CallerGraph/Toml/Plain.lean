import CallerGraph.Json.Number
import CallerGraph.Text.Hex
import CallerGraph.Toml.Basic

/-!
# Values of TOML without quotes

Numbers, dates and times, and the two truth values are runs of plain
characters. A number with a fraction is refused when it is too large to be
finite, and a date when the calendar has no such day.
-/

namespace CallerGraph

namespace Toml

/-- Digits with single underscores between them. -/
def digits? (isDigit : Char → Bool) : List Char → Option (List Char)
  | [] => none
  | [c] => if isDigit c then some [c] else none
  | c :: '_' :: rest => if isDigit c then (digits? isDigit rest).map (c :: ·) else none
  | c :: rest => if isDigit c then (digits? isDigit rest).map (c :: ·) else none

/-- The value of digits to a base. -/
def valueToBase (base : Nat) (digits : List Char) : Nat :=
  digits.foldl (fun value c => base * value + (Text.hexValue? c).getD 0) 0

/-- A number without a sign in base ten, without needless zeros. -/
def decimal? (cs : List Char) : Option Nat := do
  let digits ← digits? Char.isDigit cs
  match digits with
  | '0' :: _ :: _ => none
  | _ => pure (valueToBase 10 digits)

/-- A whole number. -/
def whole? : List Char → Option Int
  | '0' :: 'x' :: rest =>
      (digits? (fun c => (Text.hexValue? c).isSome) rest).map fun ds => valueToBase 16 ds
  | '0' :: 'o' :: rest =>
      (digits? (fun c => '0' ≤ c && c ≤ '7') rest).map fun ds => valueToBase 8 ds
  | '0' :: 'b' :: rest =>
      (digits? (fun c => c == '0' || c == '1') rest).map fun ds => valueToBase 2 ds
  | '+' :: rest => (decimal? rest).map fun n => (n : Int)
  | '-' :: rest => (decimal? rest).map fun n => -(n : Int)
  | cs => (decimal? cs).map fun n => (n : Int)

/-- Is it a number with a fraction or an exponent? -/
def isReal (cs : List Char) : Bool :=
  let body := (Decimal.splitSign cs).2
  let mantissa := body.takeWhile fun c => c != 'e' && c != 'E'
  let exponentOk := match body.dropWhile fun c => c != 'e' && c != 'E' with
    | [] => true
    | _ :: rest => (digits? Char.isDigit (Decimal.splitSign rest).2).isSome
  let fractionOk := match mantissa.dropWhile (· != '.') with
    | [] => true
    | _ :: rest => (digits? Char.isDigit rest).isSome
  (decimal? (mantissa.takeWhile (· != '.'))).isSome && fractionOk && exponentOk &&
    (mantissa.contains '.' || mantissa.length != body.length)

/-- The words for numbers that are not finite. -/
def isUnbounded (cs : List Char) : Bool :=
  ["inf".toList, "nan".toList].contains (Decimal.splitSign cs).2

/-- The value of a number with a fraction, of an exponent, or of a word for
a number that is not finite. -/
def real? (cs : List Char) : Option Json :=
  if isUnbounded cs then some .null
  else if isReal cs then
    ((Decimal.parse? (cs.filter (· != '_'))).filter Decimal.isFinite).map Json.ofDecimal
  else none

/-- The value of two digits below a bound. -/
def twoDigits? (bound : Nat) (a b : Char) : Option Nat :=
  (Text.decimal? [a, b]).filter (· < bound)

/-- The characters behind the fraction of a second, if there is one. -/
def skipFraction (cs : List Char) : List Char :=
  match cs with
  | '.' :: rest => if (rest.head?.any Char.isDigit) then rest.dropWhile Char.isDigit else cs
  | _ => cs

/-- The characters behind the minutes of a time and its seconds. In the
newer edition there can be no seconds. -/
def skipSeconds? (edition : Edition) : List Char → Option (List Char)
  | ':' :: a :: b :: rest => if (twoDigits? 61 a b).isSome then some (skipFraction rest) else none
  | rest => if edition = .newer then some rest else none

/-- Is it a time of day, with nothing or, if it is `zoned`, a distance from
universal time behind it? -/
def isTime (edition : Edition) (zoned : Bool) : List Char → Bool
  | a :: b :: ':' :: c :: d :: rest =>
      let zoneOk := match skipSeconds? edition rest with
        | some [] => true
        | some ['Z'] | some ['z'] => zoned
        | some [sign, g, h, ':', i, j] =>
            zoned && (sign == '+' || sign == '-') && (twoDigits? 24 g h).isSome &&
              (twoDigits? 60 i j).isSome
        | _ => false
      (twoDigits? 24 a b).isSome && (twoDigits? 60 c d).isSome && zoneOk
  | _ => false

/-- The number of days of a month. -/
def daysOf (year month : Nat) : Nat :=
  if month = 2 then if (year % 4 = 0 ∧ year % 100 ≠ 0) ∨ year % 400 = 0 then 29 else 28
  else if [4, 6, 9, 11].contains month then 30
  else 31

/-- Is there such a day in the calendar? -/
def isDate (year month day : Nat) : Bool :=
  1 ≤ month && month ≤ 12 && 1 ≤ day && day ≤ daysOf year month

/-- Is it a date, a time, or both? -/
def isMoment (edition : Edition) : List Char → Bool
  | a :: b :: c :: d :: '-' :: e :: f :: '-' :: g :: h :: rest =>
      let dateOk := match Text.decimal? [a, b, c, d], Text.decimal? [e, f], Text.decimal? [g, h] with
        | some year, some month, some day => isDate year month day
        | _, _, _ => false
      let restOk := match rest with
        | [] => true
        | mark :: time => (mark == 'T' || mark == 't' || mark == ' ') && isTime edition true time
      dateOk && restOk
  | cs => isTime edition false cs

/-- The characters of numbers, dates and words. -/
def isPlainChar (c : Char) : Bool :=
  c.isAlphanum || c == '+' || c == '-' || c == '_' || c == '.' || c == ':'

/-- Whole numbers are below this bound, and not below its opposite. -/
def wholeBound : Int := 9223372036854775808

/-- What a run of plain characters stands for. -/
def plain? (edition : Edition) (cs : List Char) : Option Json :=
  if cs = "true".toList then some (.bool true)
  else if cs = "false".toList then some (.bool false)
  else if isMoment edition cs then some (ofMoment (String.ofList cs))
  else
    match whole? cs with
    | some n => if -wholeBound ≤ n ∧ n < wholeBound then some (.ofInt n) else none
    | none => real? cs

/-- A run of plain characters. A date and a time may have a space between
them. -/
def plainValue? (edition : Edition) (cs : List Char) : Option (Json × List Char) :=
  let first := cs.takeWhile isPlainChar
  let rest := cs.dropWhile isPlainChar
  let joined := match rest with
    | ' ' :: behind =>
        let both := first ++ ' ' :: behind.takeWhile isPlainChar
        if isMoment edition first ∧ isMoment edition both then
          some (ofMoment (String.ofList both), behind.dropWhile isPlainChar)
        else none
    | _ => none
  joined <|> (plain? edition first).map fun value => (value, rest)

end Toml

end CallerGraph
