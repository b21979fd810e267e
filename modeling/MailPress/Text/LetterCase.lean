import MailPress.Text.Ascii

/-!
# Letter case

Upper and lower case of letters beyond ASCII, for the alphabets in which the two
cases lie at a fixed distance or next to one another: Latin with its accents,
Greek, Cyrillic and Armenian. Letters of other alphabets are left as they are.
-/

namespace MailPress
namespace Text

/-- A stretch of capital letters whose small letters lie at a fixed distance. -/
structure CaseRange where
  /-- The first capital letter. -/
  first : Nat
  /-- The last capital letter. -/
  last : Nat
  /-- How far on the small letters are. -/
  distance : Nat
  deriving DecidableEq, Repr

/-- The stretches of capital letters at a fixed distance. -/
def caseRanges : List CaseRange :=
  [⟨0x41, 0x5A, 32⟩, ⟨0xC0, 0xD6, 32⟩, ⟨0xD8, 0xDE, 32⟩, ⟨0x386, 0x386, 38⟩,
    ⟨0x388, 0x38A, 37⟩, ⟨0x38C, 0x38C, 64⟩, ⟨0x38E, 0x38F, 63⟩, ⟨0x391, 0x3A1, 32⟩,
    ⟨0x3A3, 0x3AB, 32⟩, ⟨0x400, 0x40F, 80⟩, ⟨0x410, 0x42F, 32⟩, ⟨0x531, 0x556, 48⟩]

/-- The stretches in which a capital letter is followed by its small letter, with the first and
the last capital letter. -/
def casePairs : List (Nat × Nat) :=
  [(0x100, 0x12E), (0x132, 0x136), (0x139, 0x147), (0x14A, 0x176), (0x179, 0x17D),
    (0x1CD, 0x1DB), (0x1DE, 0x1EE), (0x1F8, 0x21E), (0x222, 0x232), (0x370, 0x372),
    (0x3D8, 0x3EE), (0x460, 0x480), (0x48A, 0x4BE), (0x4C1, 0x4CD), (0x4D0, 0x52E),
    (0x1E00, 0x1E94), (0x1EA0, 0x1EFE)]

/-- The small letter of a capital one. -/
def smallLetter (c : Char) : Char :=
  let code := c.toNat
  match caseRanges.find? fun range => range.first ≤ code && code ≤ range.last with
  | some range => Char.ofNat (code + range.distance)
  | none =>
      if code = 0x178 then Char.ofNat 0xFF
      else if casePairs.any fun pair =>
          pair.1 ≤ code && code ≤ pair.2 && (code - pair.1) % 2 == 0 then Char.ofNat (code + 1)
      else c

/-- The capital letters of a small one. -/
def capitalLetters (c : Char) : List Char :=
  let code := c.toNat
  match caseRanges.find? fun range =>
      range.first + range.distance ≤ code && code ≤ range.last + range.distance with
  | some range => [Char.ofNat (code - range.distance)]
  | none =>
      if code = 0xDF then ['S', 'S']
      else if code = 0xFF then [Char.ofNat 0x178]
      else if code = 0xB5 then [Char.ofNat 0x39C]
      else if code = 0x3C2 then [Char.ofNat 0x3A3]
      else if casePairs.any fun pair =>
          pair.1 < code && code ≤ pair.2 + 1 && (code - pair.1) % 2 == 1 then
        [Char.ofNat (code - 1)]
      else [c]

/-- A text in small letters. -/
def toSmall (text : String) : String :=
  String.ofList (text.toList.map smallLetter)

/-- A text in capital letters. -/
def toCapitals (text : String) : String :=
  String.ofList (text.toList.flatMap capitalLetters)

end Text
end MailPress
