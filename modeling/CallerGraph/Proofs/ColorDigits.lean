import CallerGraph.Color.Numeral
import Mathlib.Data.List.Basic

/-!
# How a colour is spelled

`Spells` says without any reading which two digits stand for a channel.  A
colour is read from a number sign and six digits, two for each channel, in
either case, and from nothing else, but for one thing: in place of the first
digit there may be a plus sign, and it counts as a zero.

The plus sign comes with reading the digits as one number, which may have a
sign in front.  Both ways of reading agree on every text.
-/

namespace CallerGraph

namespace Text

variable {c : Char} {value : Nat}

/-- The character is the digit for the value, in lowercase or in uppercase. -/
def IsDigitFor (value : Nat) (c : Char) : Prop :=
  "0123456789abcdef".toList[value]? = some c ∨ "0123456789ABCDEF".toList[value]? = some c

/-- Digits are ASCII characters. -/
theorem toNat_lt_of_hexValue? (h : hexValue? c = some value) : c.toNat < 128 := by
  unfold hexValue? at h
  split at h
  next hdigit => exact Nat.lt_of_le_of_lt hdigit.2 (by decide)
  next =>
    split at h
    next hlower => exact Nat.lt_of_le_of_lt hlower.2 (by decide)
    next =>
      split at h
      next hupper => exact Nat.lt_of_le_of_lt hupper.2 (by decide)
      next => cases h

/-- A digit has one value, and the value has the digit in its two cases. -/
theorem hexValue?_eq_some_iff : hexValue? c = some value ↔ IsDigitFor value c := by
  have hread : ∀ n < 128, ∀ value ∈ hexValue? (Char.ofNat n),
      "0123456789abcdef".toList[value]? = some (Char.ofNat n) ∨
        "0123456789ABCDEF".toList[value]? = some (Char.ofNat n) := by decide
  have hwritten : ∀ value < 16,
      "0123456789abcdef".toList[value]?.all (hexValue? · == some value) ∧
        "0123456789ABCDEF".toList[value]?.all (hexValue? · == some value) := by decide
  constructor
  · intro h
    have hdigit := hread c.toNat (toNat_lt_of_hexValue? h)
    rw [Char.ofNat_toNat] at hdigit
    exact hdigit value h
  · rintro (h | h)
    · obtain ⟨hvalue, -⟩ := List.getElem?_eq_some_iff.1 h
      exact eq_of_beq ((Option.all_eq_true _ _).1 (hwritten value hvalue).1 c h)
    · obtain ⟨hvalue, -⟩ := List.getElem?_eq_some_iff.1 h
      exact eq_of_beq ((Option.all_eq_true _ _).1 (hwritten value hvalue).2 c h)

theorem IsDigitFor.lt (h : IsDigitFor value c) : value < 16 := by
  rcases h with h | h
  · exact (List.getElem?_eq_some_iff.1 h).1
  · exact (List.getElem?_eq_some_iff.1 h).1

end Text

namespace Rgb

open Text

variable {text : String} {rgb : Rgb} {high low : Char} {channel : UInt8}

/-- Two digits stand for a channel, the higher first. -/
def Spells (high low : Char) (channel : UInt8) : Prop :=
  ∃ h l, IsDigitFor h high ∧ IsDigitFor l low ∧ channel.toNat = 16 * h + l

theorem channel?_eq_some_iff : channel? high low = some channel ↔ Spells high low channel := by
  unfold channel? Spells
  simp only [Option.bind_eq_bind, Option.bind_eq_some_iff, Option.pure_def, Option.some.injEq,
    hexValue?_eq_some_iff]
  constructor
  · rintro ⟨h, hhigh, l, hlow, rfl⟩
    have := hhigh.lt
    have := hlow.lt
    refine ⟨h, l, hhigh, hlow, ?_⟩
    rw [UInt8.toNat_ofNat']
    omega
  · rintro ⟨h, l, hhigh, hlow, hchannel⟩
    refine ⟨h, hhigh, l, hlow, ?_⟩
    rw [← hchannel, UInt8.ofNat_toNat]

/-- **A colour is six digits behind a number sign,** or a plus sign and five. -/
theorem ofHex?_eq_some_iff :
    ofHex? text = some rgb ↔ ∃ a b c d e f, text.toList = ['#', a, b, c, d, e, f] ∧
      (Spells a b rgb.red ∨ a = '+' ∧ Spells '0' b rgb.red) ∧ Spells c d rgb.green ∧
        Spells e f rgb.blue := by
  have hplus : ∀ {b : Char} {channel : UInt8}, ¬ Spells '+' b channel := by
    rintro b channel ⟨h, l, hdigit, -⟩
    have hread := hexValue?_eq_some_iff.2 hdigit
    cases hread
  have hfirst : ∀ {a b : Char} {channel : UInt8},
      channel? (if a = '+' then '0' else a) b = some channel ↔
        Spells a b channel ∨ a = '+' ∧ Spells '0' b channel := by
    intro a b channel
    rw [channel?_eq_some_iff]
    by_cases ha : a = '+'
    · subst ha
      simp [hplus]
    · simp [ha]
  unfold ofHex?
  split
  next a b c d e f htext =>
    simp only [htext, Option.bind_eq_bind, Option.bind_eq_some_iff, Option.pure_def,
      Option.some.injEq]
    constructor
    · rintro ⟨red, hred, green, hgreen, blue, hblue, rfl⟩
      exact ⟨a, b, c, d, e, f, rfl, hfirst.1 hred, channel?_eq_some_iff.1 hgreen,
        channel?_eq_some_iff.1 hblue⟩
    · rintro ⟨a', b', c', d', e', f', hsame, hred, hgreen, hblue⟩
      cases hsame
      exact ⟨_, hfirst.2 hred, _, channel?_eq_some_iff.2 hgreen, _,
        channel?_eq_some_iff.2 hblue, rfl⟩
  next hother =>
    constructor
    · rintro ⟨⟩
    · rintro ⟨a, b, c, d, e, f, htext, -⟩
      exact absurd htext (hother a b c d e f)

/-- What is read is ASCII. -/
theorem Spells.ascii (h : Spells high low channel) : high.toNat < 128 ∧ low.toNat < 128 := by
  obtain ⟨_, _, hhigh, hlow, -⟩ := h
  exact ⟨toNat_lt_of_hexValue? (hexValue?_eq_some_iff.2 hhigh),
    toNat_lt_of_hexValue? (hexValue?_eq_some_iff.2 hlow)⟩

/-! ### As one number -/

/-- ASCII takes as many bytes as characters. -/
theorem byteLength_of_ascii {cs : List Char} (h : ∀ c ∈ cs, c.toNat < 128) :
    byteLength cs = cs.length := by
  induction cs with
  | nil => rfl
  | cons c cs ih =>
      obtain ⟨hc, hrest⟩ := List.forall_mem_cons.1 h
      have hsize : c.utf8Size = 1 := Char.utf8Size_eq_one_iff.2 (Nat.le_of_lt_succ hc)
      rw [byteLength, hsize, ih hrest, List.length_cons, Nat.add_comm]

/-- Two digits more put a channel behind the value. -/
theorem hexRun?_pair (value : Nat) (high low : Char) (cs : List Char) :
    hexRun? value (high :: low :: cs) =
      (channel? high low).bind fun channel => hexRun? (256 * value + channel.toNat) cs := by
  cases hhigh : hexValue? high with
  | none => simp [hexRun?, channel?, hhigh]
  | some h =>
      cases hlow : hexValue? low with
      | none => simp [hexRun?, channel?, hhigh, hlow]
      | some l =>
          have hh := (hexValue?_eq_some_iff.1 hhigh).lt
          have hl := (hexValue?_eq_some_iff.1 hlow).lt
          have hchannel : (16 * h + l) % 256 = 16 * h + l := Nat.mod_eq_of_lt (by omega)
          have hvalue : 16 * (16 * value + h) + l = 256 * value + (16 * h + l) := by omega
          simp [hexRun?, channel?, hhigh, hlow, hchannel, hvalue]

/-- A sign in front of a numeral is as good as a zero. -/
theorem hexNumeral?_cons (bound : Nat) (a b : Char) (cs : List Char) :
    hexNumeral? bound (a :: b :: cs) =
      (hexRun? 0 ((if a = '+' then '0' else a) :: b :: cs)).filter (· < bound) := by
  unfold hexNumeral?
  by_cases ha : a = '+'
  · subst ha
    simp [hexRun?, show hexValue? '0' = some 0 from rfl]
  · simp [ha]

theorem ofNumber_toNat (rgb : Rgb) :
    ofNumber (256 * (256 * rgb.red.toNat + rgb.green.toNat) + rgb.blue.toNat) = rgb := by
  have := rgb.red.toNat_lt
  have := rgb.green.toNat_lt
  have := rgb.blue.toNat_lt
  rw [ofNumber, Rgb.mk.injEq, ← UInt8.toNat_inj, ← UInt8.toNat_inj, ← UInt8.toNat_inj]
  simp only [UInt8.toNat_ofNat']
  omega

/-- Six digits are three channels. -/
theorem map_hexNumeral?_eq_ofHex? {a b c d e f : Char}
    (htext : text.toList = ['#', a, b, c, d, e, f]) :
    (hexNumeral? UInt32.size [a, b, c, d, e, f]).map ofNumber = ofHex? text := by
  have hread : ofHex? text = (channel? (if a = '+' then '0' else a) b).bind fun red =>
      (channel? c d).bind fun green => (channel? e f).bind fun blue =>
        some ⟨red, green, blue⟩ := by
    rw [ofHex?, htext]
    rfl
  rw [hread, hexNumeral?_cons, hexRun?_pair]
  cases channel? (if a = '+' then '0' else a) b with
  | none => rfl
  | some red =>
      simp only [Option.bind_some, hexRun?_pair]
      cases channel? c d with
      | none => rfl
      | some green =>
          cases channel? e f with
          | none => rfl
          | some blue =>
              have hsmall : 256 * (256 * red.toNat + green.toNat) + blue.toNat < UInt32.size := by
                have := red.toNat_lt
                have := green.toNat_lt
                have := blue.toNat_lt
                unfold UInt32.size
                omega
              have hnumber := ofNumber_toNat ⟨red, green, blue⟩
              simp [hexRun?, Option.filter, hsmall, hnumber]

/-- **Both ways of reading agree.** -/
theorem ofNumeral?_eq_ofHex? (text : String) : ofNumeral? text = ofHex? text := by
  cases hread : ofHex? text with
  | some rgb =>
      obtain ⟨a, b, c, d, e, f, htext, hred, hgreen, hblue⟩ := ofHex?_eq_some_iff.1 hread
      have hfirst : a.toNat < 128 ∧ b.toNat < 128 := by
        rcases hred with hred | ⟨rfl, hred⟩
        · exact hred.ascii
        · exact ⟨by decide, hred.ascii.2⟩
      have hascii : ∀ x ∈ [a, b, c, d, e, f], x.toNat < 128 := by
        simp [hfirst, hgreen.ascii, hblue.ascii]
      have hguard : byteLength [a, b, c, d, e, f] = 6 ∧
          ([a, b, c, d, e, f].all (·.toNat < 128)) = true :=
        ⟨byteLength_of_ascii hascii, List.all_eq_true.2 fun x hx => decide_eq_true (hascii x hx)⟩
      simp only [ofNumeral?, htext, if_pos hguard, map_hexNumeral?_eq_ofHex? htext, hread]
  | none =>
      unfold ofNumeral?
      split
      next cs htext =>
        split
        next hguard =>
          -- six bytes of ASCII are six characters
          have hascii : ∀ c ∈ cs, c.toNat < 128 := by simpa using hguard.2
          have hlength : cs.length = 6 := (byteLength_of_ascii hascii).symm.trans hguard.1
          obtain ⟨a, b, c, d, e, f, rfl⟩ : ∃ a b c d e f, cs = [a, b, c, d, e, f] := by
            match cs, hlength with
            | [a, b, c, d, e, f], _ => exact ⟨a, b, c, d, e, f, rfl⟩
          rw [map_hexNumeral?_eq_ofHex? htext, hread]
        next => rfl
      next => rfl

end Rgb

namespace Hsb

/-- **What a colour is read from.**  A colour is read from a number sign and six
digits, two for each channel from left to right, in either case; a plus sign may
stand for the first digit, and is a zero.  Nothing else is a colour.  Reading
the digits as one number comes to the same. -/
theorem ofHex?_reads_digits (text : String) :
    (∀ color, ofHex? text = some color ↔ ∃ a b c d e f, ∃ rgb : Rgb,
      text.toList = ['#', a, b, c, d, e, f] ∧
        (Rgb.Spells a b rgb.red ∨ a = '+' ∧ Rgb.Spells '0' b rgb.red) ∧
        Rgb.Spells c d rgb.green ∧ Rgb.Spells e f rgb.blue ∧ color = ofRgb rgb) ∧
      Rgb.ofNumeral? text = Rgb.ofHex? text := by
  refine ⟨fun color => ?_, Rgb.ofNumeral?_eq_ofHex? text⟩
  rw [ofHex?, Option.map_eq_some_iff]
  constructor
  · rintro ⟨rgb, hread, rfl⟩
    obtain ⟨a, b, c, d, e, f, htext, hred, hgreen, hblue⟩ := Rgb.ofHex?_eq_some_iff.1 hread
    exact ⟨a, b, c, d, e, f, rgb, htext, hred, hgreen, hblue, rfl⟩
  · rintro ⟨a, b, c, d, e, f, rgb, htext, hred, hgreen, hblue, rfl⟩
    exact ⟨rgb, Rgb.ofHex?_eq_some_iff.2 ⟨a, b, c, d, e, f, htext, hred, hgreen, hblue⟩, rfl⟩

/-- Not every colour is read from digits alone: a plus sign and five digits are
read too. -/
theorem ofHex?_plus_five_digits :
    ¬ ∀ text : String, (ofHex? text).isSome = true ↔
      ∃ digits, text.toList = '#' :: digits ∧ digits.length = 6 ∧
        ∀ c ∈ digits, ∃ value, Text.IsDigitFor value c := by
  intro h
  obtain ⟨digits, htext, -, hdigits⟩ := (h "#+12345").1 rfl
  obtain rfl : ['+', '1', '2', '3', '4', '5'] = digits := (List.cons.inj htext).2
  obtain ⟨value, hplus⟩ := hdigits '+' List.mem_cons_self
  exact nomatch Text.hexValue?_eq_some_iff.2 hplus

end Hsb

end CallerGraph
