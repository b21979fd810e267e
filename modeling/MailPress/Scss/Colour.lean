import MailPress.Css.ColourName

/-!
# Colours of style sheets

A colour has three channels, whole numbers from 0 to 255, and an opacity from 0 to 1.
It remembers how it came about, because a colour that was written out is printed
as it was written, and a computed one by its name or its digits.

Hue, saturation and lightness are another view of the channels. A colour that was
made from that view remembers it, since the channels are rounded.
-/

namespace MailPress
namespace Scss

/-- How a colour came about. -/
inductive ColourForm
  /-- As a literal, spelled so. -/
  | written (spelling : String)
  /-- From channels. -/
  | channels
  /-- From hue, saturation and lightness. -/
  | cylinder
  /-- By computation from another colour. -/
  | computed
  deriving DecidableEq, Repr, Inhabited

/-- Hue in degrees, saturation and lightness from 0 to 1. -/
structure Cylinder where
  /-- The angle on the colour wheel. -/
  hue : Rat
  /-- The distance from grey. -/
  saturation : Rat
  /-- The place between black and white. -/
  lightness : Rat
  deriving Repr, Inhabited, BEq

/-- A colour. -/
structure Colour where
  /-- The red channel. -/
  red : Rat
  /-- The green channel. -/
  green : Rat
  /-- The blue channel. -/
  blue : Rat
  /-- The opacity. -/
  alpha : Rat
  /-- How the colour came about. -/
  form : ColourForm
  /-- The cylinder view that the colour was made from. -/
  view : Option Cylinder
  deriving Repr, Inhabited, BEq

/-- A number brought between two bounds. -/
def clampTo (low high value : Rat) : Rat :=
  if value < low then low else if high < value then high else value

/-- The nearest integer; a half goes away from zero. -/
def roundHalfAway (value : Rat) : Int :=
  if value < 0 then (value - 1 / 2).ceil else (value + 1 / 2).floor

/-- The greater of two numbers. -/
def greater (first second : Rat) : Rat :=
  if first < second then second else first

/-- The lesser of two numbers. -/
def lesser (first second : Rat) : Rat :=
  if second < first then second else first

/-- The remainder after division by a positive number, never negative. -/
def wrapTo (turn value : Rat) : Rat :=
  value - turn * (value / turn).floor

namespace Colour

/-- A colour from three channels and an opacity, each brought into its range. -/
def ofChannels (red green blue alpha : Rat) (form : ColourForm) : Colour :=
  ⟨roundHalfAway (clampTo 0 255 red), roundHalfAway (clampTo 0 255 green),
    roundHalfAway (clampTo 0 255 blue), clampTo 0 1 alpha, form, none⟩

/-- The cylinder view of a colour, from its channels. -/
def channelView (colour : Colour) : Cylinder :=
  let red := colour.red / 255
  let green := colour.green / 255
  let blue := colour.blue / 255
  let high := greater red (greater green blue)
  let low := lesser red (lesser green blue)
  let spread := high - low
  let lightness := (high + low) / 2
  let hue :=
    if spread = 0 then 0
    else if high = red then 60 * (green - blue) / spread
    else if high = green then 120 + 60 * (blue - red) / spread
    else 240 + 60 * (red - green) / spread
  let saturation :=
    if spread = 0 then 0
    else if lightness < 1 / 2 then spread / (high + low)
    else spread / (2 - high - low)
  ⟨wrapTo 360 hue, saturation, lightness⟩

/-- The cylinder view of a colour: the one that it was made from, or that of its channels. -/
def cylinder (colour : Colour) : Cylinder :=
  colour.view.getD colour.channelView

/-- One channel of a cylinder colour, for a hue in turns. -/
def channelAt (low high hue : Rat) : Rat :=
  let hue := wrapTo 1 hue
  if hue < 1 / 6 then low + (high - low) * hue * 6
  else if hue < 1 / 2 then high
  else if hue < 2 / 3 then low + (high - low) * (2 / 3 - hue) * 6
  else low

/-- A colour from its cylinder view. -/
def ofCylinder (cylinder : Cylinder) (alpha : Rat) (form : ColourForm) : Colour :=
  let angle := wrapTo 360 cylinder.hue
  let hue := angle / 360
  let saturation := clampTo 0 1 cylinder.saturation
  let lightness := clampTo 0 1 cylinder.lightness
  let high :=
    if lightness ≤ 1 / 2 then lightness * (saturation + 1)
    else lightness + saturation - lightness * saturation
  let low := lightness * 2 - high
  let colour :=
    ofChannels (channelAt low high (hue + 1 / 3) * 255) (channelAt low high hue * 255)
      (channelAt low high (hue - 1 / 3) * 255) alpha form
  { colour with view := some ⟨angle, saturation, lightness⟩ }

/-- Change the cylinder view of a colour. -/
def overCylinder (change : Cylinder → Cylinder) (colour : Colour) : Colour :=
  ofCylinder (change colour.cylinder) colour.alpha .computed

/-- Add to the opacity of a colour. -/
def fade (amount : Rat) (colour : Colour) : Colour :=
  { colour with alpha := clampTo 0 1 (colour.alpha + amount), form := .computed, view := none }

/-- Two colours that look alike, however they came about. -/
def same (first second : Colour) : Bool :=
  first.red == second.red && first.green == second.green && first.blue == second.blue &&
    first.alpha == second.alpha

/-- The weighted mean of two colours; `weight`, from 0 to 1, is the share of the first. -/
def mix (first second : Colour) (weight : Rat) : Colour :=
  let scale := weight * 2 - 1
  let distance := first.alpha - second.alpha
  let combined :=
    if scale * distance = -1 then scale else (scale + distance) / (1 + scale * distance)
  let share := (combined + 1) / 2
  let blend := fun (a b : Rat) => a * share + b * (1 - share)
  ofChannels (blend first.red second.red) (blend first.green second.green)
    (blend first.blue second.blue) (first.alpha * weight + second.alpha * (1 - weight)) .computed

/-- The channels that hexadecimal digits denote: one or two digits a channel, with or without
an opacity. -/
def ofHexDigits? (digits : List Char) : Option Colour :=
  let spelling := ColourForm.written ("#" ++ String.ofList digits)
  let pair := fun (a b : Char) => (Text.hexadecimalValue [a, b] : Rat)
  if !digits.all Text.isHexDigit then none
  else match digits with
    | [r, g, b] => some ⟨pair r r, pair g g, pair b b, 1, spelling, none⟩
    | [r, g, b, a] => some ⟨pair r r, pair g g, pair b b, pair a a / 255, spelling, none⟩
    | [r, r', g, g', b, b'] => some ⟨pair r r', pair g g', pair b b', 1, spelling, none⟩
    | [r, r', g, g', b, b', a, a'] =>
        some ⟨pair r r', pair g g', pair b b', pair a a' / 255, spelling, none⟩
    | _ => none

end Colour

/-- The colour with a name, in any case. -/
def Colour.named? (name : String) : Option Colour :=
  let written := fun (colour : Colour) => { colour with form := .written name }
  if Text.sameIgnoringCase name "transparent" then some ⟨0, 0, 0, 0, .written name, none⟩
  else
    ((Css.colourNames.lookup (Text.lower name)).bind fun digits =>
      Colour.ofHexDigits? digits.toList).map written

/-- The two hexadecimal digits of a channel. -/
def hexPair (channel : Rat) : List Char :=
  let value := (roundHalfAway channel).toNat
  [Text.hexDigit (value / 16), Text.hexDigit (value % 16)]

/-- The six hexadecimal digits of a colour. -/
def Colour.hexDigits (colour : Colour) : String :=
  String.ofList (hexPair colour.red ++ hexPair colour.green ++ hexPair colour.blue)

/-- The name of a colour that has one. -/
def Colour.name? (colour : Colour) : Option String :=
  let digits := colour.hexDigits
  (Css.colourNames.find? fun entry => entry.2 = digits).map Prod.fst

end Scss
end MailPress
