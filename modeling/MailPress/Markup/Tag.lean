import MailPress.Markup.Element

/-!
# Tags

The text between the angle brackets of a tag starts with a name, up to the first
space, and goes on with attributes. A value may stand in either kind of quotes
or in none, and an attribute may have no value at all.

An attribute whose value is missing or whose quote is not closed is dropped, and
the tag ends there.
-/

namespace MailPress
namespace Markup

/-- White space inside a tag. -/
def isTagSpace (c : Char) : Bool :=
  c == ' ' || c == '\r' || c == '\n' || c == '\t'

/-- Lowercase a name. -/
def lowerName (name : List Char) : String :=
  Text.lower (String.ofList name)

/-- Read the value after an equals sign; the result has the value and what is left. -/
def readAttributeValue (text : List Char) : Option (List Char × List Char) :=
  match text.dropWhile isTagSpace with
  | [] => none
  | '"' :: rest => Text.splitOnce ['"'] rest
  | '\'' :: rest => Text.splitOnce ['\''] rest
  | text => some (text.takeWhile (!isTagSpace ·), text.dropWhile (!isTagSpace ·))

theorem length_readAttributeValue_le
    {text value rest : List Char}
    (reads : readAttributeValue text = some (value, rest)) :
    rest.length ≤ text.length := by
  have trimmed := Text.length_dropWhile_le isTagSpace text
  unfold readAttributeValue at reads
  split at reads
  · simp at reads
  · next opened =>
      have bound := Text.length_splitOnce_le reads
      rw [opened] at trimmed
      simp at trimmed
      omega
  · next opened =>
      have bound := Text.length_splitOnce_le reads
      rw [opened] at trimmed
      simp at trimmed
      omega
  · simp only [Option.some.injEq, Prod.mk.injEq] at reads
    have bound := Text.length_dropWhile_le (!isTagSpace ·) (text.dropWhile isTagSpace)
    rw [← reads.2]
    exact Nat.le_trans bound trimmed

/-- Whether a character ends the name of an attribute that has begun. -/
def endsAttributeName (c : Char) : Bool :=
  c == '=' || isTagSpace c

theorem length_attributeRest_lt
    {text rest left : List Char}
    {first : Char}
    (start : text.dropWhile isTagSpace = first :: rest)
    (named : (rest.dropWhile (!endsAttributeName ·)).dropWhile isTagSpace = left) :
    left.length < text.length := by
  have whole := Text.length_dropWhile_le isTagSpace text
  have name := Text.length_dropWhile_le (!endsAttributeName ·) rest
  have gap := Text.length_dropWhile_le isTagSpace (rest.dropWhile (!endsAttributeName ·))
  rw [start, List.length_cons] at whole
  rw [named] at gap
  omega

theorem length_valueRest_lt
    {text rest after value left : List Char}
    {first : Char}
    (start : text.dropWhile isTagSpace = first :: rest)
    (named : (rest.dropWhile (!endsAttributeName ·)).dropWhile isTagSpace = '=' :: after)
    (reads : readAttributeValue after = some (value, left)) :
    left.length < text.length := by
  have bound := length_attributeRest_lt start named
  have valueBound := length_readAttributeValue_le reads
  rw [List.length_cons] at bound
  omega

/-- Read the attributes of a tag. -/
def readAttributes (text : List Char) : List Attribute :=
  match start : text.dropWhile isTagSpace with
  | [] => []
  | first :: rest =>
      let name := lowerName (first :: rest.takeWhile (!endsAttributeName ·))
      match named : (rest.dropWhile (!endsAttributeName ·)).dropWhile isTagSpace with
      | '=' :: after =>
          match reads : readAttributeValue after with
          | none => []
          | some (value, left) =>
              have := length_valueRest_lt start named reads
              ⟨name, String.ofList value⟩ :: readAttributes left
      | left =>
          have := length_attributeRest_lt start named
          ⟨name, ""⟩ :: readAttributes left
termination_by text.length
decreasing_by all_goals assumption

/-- The name at the start of a tag, as written. -/
def tagName (text : List Char) : List Char :=
  text.takeWhile (!isTagSpace ·)

/-- The element that a tag starts, given the text between its angle brackets. -/
def readElement (selfClosing : Bool) (text : List Char) : Element :=
  ⟨lowerName (tagName text), readAttributes (text.dropWhile (!isTagSpace ·)), selfClosing⟩

end Markup
end MailPress
