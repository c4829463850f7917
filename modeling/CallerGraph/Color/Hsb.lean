import CallerGraph.Text.Hex

/-!
# Colours

A colour is a hue on a circle, a saturation and a brightness, each a
single-precision number that is meant to lie between 0 and 1. Nothing
here depends on that: every number, infinities and NaN included, has a
colour in eight-bit channels.

* `Hsb.distance` tells how different two colours look. Hues are compared
  the short way round the circle and count three times.
* `Hsb.toRgb` and `Hsb.ofRgb` change to channels and back, `Hsb.toHex` and
  `Hsb.ofHex?` to the form `#rrggbb` and back.

The operations are written in the order in which they are rounded.
-/

namespace CallerGraph

/-- A colour as hue, saturation and brightness. -/
structure Hsb where
  hue : Float32
  saturation : Float32
  brightness : Float32

/-- A colour as three eight-bit channels. -/
structure Rgb where
  red : UInt8
  green : UInt8
  blue : UInt8
deriving DecidableEq, Repr

/-- The smaller of two numbers; a NaN yields to a number. -/
def lesser (a b : Float32) : Float32 :=
  if a.isNaN then b else if b.isNaN then a else if b < a then b else a

/-- A channel from its share of full brightness, rounded to nearest. What
lies outside the range goes to its ends, and NaN is black. -/
def channelOfShare (share : Float32) : UInt8 :=
  (share * 255.0 + 0.5).toUInt8

namespace Rgb

/-- A channel as two hexadecimal digits. -/
def hexPair (channel : UInt8) : List Char :=
  [Text.hexDigit (channel.toNat / 16), Text.hexDigit (channel.toNat % 16)]

/-- The form `#rrggbb` in lowercase. -/
def toHex (rgb : Rgb) : String :=
  String.ofList ('#' :: hexPair rgb.red ++ hexPair rgb.green ++ hexPair rgb.blue)

/-- The channel of two hexadecimal digits. -/
def channel? (high low : Char) : Option UInt8 := do
  let high ← Text.hexValue? high
  let low ← Text.hexValue? low
  pure (UInt8.ofNat (16 * high + low))

/-- Reads six digits in either case behind a number sign. They are read as
one number, so the first of them may also be a plus sign, which counts as
a zero. -/
def ofHex? (text : String) : Option Rgb :=
  match text.toList with
  | ['#', a, b, c, d, e, f] => do
      let red ← channel? (if a = '+' then '0' else a) b
      let green ← channel? c d
      let blue ← channel? e f
      pure ⟨red, green, blue⟩
  | _ => none

end Rgb

namespace Hsb

/-- The weight of a hue difference against the other two. -/
def hueWeight : Float32 := 3.0

/-- How different two colours look. -/
def distance (a b : Hsb) : Float32 :=
  let around := (a.hue - b.hue).abs
  let hue := lesser around (1.0 - around)
  let saturation := (a.saturation - b.saturation).abs
  let brightness := (a.brightness - b.brightness).abs
  hueWeight * hue + saturation + brightness

/-- The channels of a colour. The circle of hues has six sectors; in each,
one channel is full, one empty, and one on its way. -/
def toRgb (color : Hsb) : Rgb :=
  if color.saturation ≤ 0.0 then
    let level := channelOfShare color.brightness
    ⟨level, level, level⟩
  else
    let sector := (color.hue - color.hue.floor) * 6.0
    let fraction := sector - sector.floor
    let full := color.brightness
    let empty := full * (1.0 - color.saturation)
    let falling := full * (1.0 - color.saturation * fraction)
    let rising := full * (1.0 - color.saturation * (1.0 - fraction))
    let channels (red green blue : Float32) : Rgb :=
      ⟨channelOfShare red, channelOfShare green, channelOfShare blue⟩
    match sector.floor.toUInt8.toNat with
    | 0 => channels full rising empty
    | 1 => channels falling full empty
    | 2 => channels empty full rising
    | 3 => channels empty falling full
    | 4 => channels rising empty full
    | _ => channels full empty falling

/-- The colour of three channels; a grey has hue 0. -/
def ofRgb (rgb : Rgb) : Hsb :=
  let high := max (max rgb.red rgb.green) rgb.blue
  let low := min (min rgb.red rgb.green) rgb.blue
  let brightness := high.toFloat32 / 255.0
  if high = low then ⟨0.0, 0.0, brightness⟩
  else
    let spread := (high - low).toFloat32
    let saturation := spread / high.toFloat32
    let lack (channel : UInt8) : Float32 := (high - channel).toFloat32 / spread
    let sixths :=
      if rgb.red = high then lack rgb.blue - lack rgb.green
      else if rgb.green = high then 2.0 + lack rgb.red - lack rgb.blue
      else 4.0 + lack rgb.green - lack rgb.red
    let hue := sixths / 6.0
    ⟨if hue < 0.0 then hue + 1.0 else hue, saturation, brightness⟩

/-- The form `#rrggbb` of a colour. -/
def toHex (color : Hsb) : String :=
  color.toRgb.toHex

/-- The colour of a hexadecimal form. -/
def ofHex? (text : String) : Option Hsb :=
  (Rgb.ofHex? text).map ofRgb

end Hsb

end CallerGraph
