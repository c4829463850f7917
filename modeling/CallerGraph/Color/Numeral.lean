import CallerGraph.Color.Hsb
import CallerGraph.Text.Bytes

/-!
# Colours as one number

The digits of a colour can be read as one number, which has the three channels
as its lowest bytes.  How many digits there are is then told by counting bytes,
before anything is read.  A numeral may have a plus sign in front of it, and
the sign counts as one of the six bytes.
-/

namespace CallerGraph

namespace Text

/-- The value of a run of hexadecimal digits behind others with a value. -/
def hexRun? : Nat → List Char → Option Nat
  | value, [] => some value
  | value, c :: cs => (hexValue? c).bind fun digit => hexRun? (16 * value + digit) cs

/-- A number below `bound` in hexadecimal digits, with or without a plus
sign. -/
def hexNumeral? (bound : Nat) (cs : List Char) : Option Nat :=
  let digits := match cs with
    | '+' :: cs => cs
    | cs => cs
  if digits = [] then none else (hexRun? 0 digits).filter (· < bound)

end Text

namespace Rgb

/-- The channels in the three lowest bytes of a number. -/
def ofNumber (n : Nat) : Rgb :=
  ⟨UInt8.ofNat (n / 256 / 256), UInt8.ofNat (n / 256), UInt8.ofNat n⟩

/-- Reads six bytes of ASCII behind a number sign as one number. -/
def ofNumeral? (text : String) : Option Rgb :=
  match text.toList with
  | '#' :: cs =>
      if Text.byteLength cs = 6 ∧ cs.all (·.toNat < 128) then
        (Text.hexNumeral? UInt32.size cs).map ofNumber
      else none
  | _ => none

end Rgb

end CallerGraph
