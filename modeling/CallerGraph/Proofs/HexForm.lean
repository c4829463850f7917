import CallerGraph.Color.Hsb
import Mathlib.Data.List.Perm.Subperm

/-!
# Colours as text

The form `#rrggbb` is read back as the channels that it was written for, so
different channels have different forms.

A colour that is not grey has its brightness in one channel and, in another, its
brightness less its saturation; the hue only says which they are and what the
third channel has.  Colours of which one has none of the other's two therefore
differ in their forms, whatever their hues.
-/

namespace CallerGraph

namespace Text

/-- No digit is a plus sign. -/
theorem hexDigit_ne_plus : ∀ {n : Nat}, n < 16 → hexDigit n ≠ '+' := by
  decide

end Text

namespace Rgb

theorem channel?_hexPair (channel : UInt8) :
    channel? (Text.hexDigit (channel.toNat / 16)) (Text.hexDigit (channel.toNat % 16)) =
      some channel := by
  have hhigh : channel.toNat / 16 < 16 := by
    have := channel.toNat_lt
    omega
  have hlow : channel.toNat % 16 < 16 := Nat.mod_lt _ (by decide)
  rw [channel?, Text.hexValue?_hexDigit hhigh, Text.hexValue?_hexDigit hlow]
  change some (UInt8.ofNat (16 * (channel.toNat / 16) + channel.toNat % 16)) = some channel
  rw [Nat.div_add_mod, UInt8.ofNat_toNat]

/-- **A written colour is read back.** -/
theorem ofHex?_toHex (rgb : Rgb) : ofHex? rgb.toHex = some rgb := by
  have hplus : Text.hexDigit (rgb.red.toNat / 16) ≠ '+' := by
    apply Text.hexDigit_ne_plus
    have := rgb.red.toNat_lt
    omega
  rw [ofHex?, toHex, String.toList_ofList]
  simp only [hexPair, List.cons_append, List.nil_append, if_neg hplus, channel?_hexPair]
  rfl

theorem toHex_injective : Function.Injective toHex := by
  intro rgb other heq
  have hread := ofHex?_toHex rgb
  rw [heq, ofHex?_toHex] at hread
  exact (Option.some.inj hread).symm

/-- The three channels. -/
def channels (rgb : Rgb) : List UInt8 :=
  [rgb.red, rgb.green, rgb.blue]

end Rgb

namespace Hsb

/-- The highest and the lowest channel of a colour that is not grey. -/
def extremes (color : Hsb) : List UInt8 :=
  [channelOfShare color.brightness,
    channelOfShare (color.brightness * (1.0 - color.saturation))]

/-- The hue only says where the extremes are. -/
theorem extremes_subset {color : Hsb} (hcolored : ¬ color.saturation ≤ 0.0) :
    color.extremes ⊆ color.toRgb.channels := by
  rw [toRgb, if_neg hcolored]
  simp only
  split <;> simp [extremes, Rgb.channels]

/-- **Four different extremes make two different colours,** as three channels
have no room for them. -/
theorem toHex_ne_of_nodup {color other : Hsb} (hcolor : ¬ color.saturation ≤ 0.0)
    (hother : ¬ other.saturation ≤ 0.0) (hnodup : (color.extremes ++ other.extremes).Nodup) :
    color.toHex ≠ other.toHex := by
  intro heq
  have hrgb : color.toRgb = other.toRgb := Rgb.toHex_injective heq
  have hsub : color.extremes ++ other.extremes ⊆ color.toRgb.channels := by
    apply List.append_subset.2
    exact ⟨extremes_subset hcolor, hrgb ▸ extremes_subset hother⟩
  have hlength := (hnodup.subperm hsub).length_le
  simp [extremes, Rgb.channels] at hlength

end Hsb

end CallerGraph
