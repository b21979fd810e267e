import MailPress.Text.Ascii
import MailPress.Text.Search

/-!
# Template delimiters

A sending service fills in the page later, at places between doubled braces or
between braces and percent signs. Writing markup may have escaped these
characters, as references or in the way of addresses; here they are restored.

A plain percent sign pairs only with a brace that was written as a reference,
because `%7B%` may be part of an address.
-/

namespace MailPress
namespace Page

/-- The references that denote an opening brace. -/
def openReferences : List String := ["&#123;", "&#x7B;", "&lbrace;", "&lcub;"]

/-- The references that denote a closing brace. -/
def closeReferences : List String := ["&#125;", "&#x7D;", "&rbrace;", "&rcub;"]

/-- The escaped forms of an opening brace. -/
def openForms : List String := "%7B" :: openReferences

/-- The escaped forms of a closing brace. -/
def closeForms : List String := "%7D" :: closeReferences

/-- The escaped forms of a percent sign. -/
def percentForms : List String := ["%25", "&#37;", "&#x25;", "&percnt;"]

/-- What follows one of the forms at the start of a text, letter case not counting. -/
def afterForm? (forms : List String) (text : List Char) : Option (List Char) :=
  forms.findSome? fun form =>
    (Text.dropStart? (form.toList.map Text.lowerChar)
      ((text.take form.length).map Text.lowerChar)).map fun _ => text.drop form.length

/-- A delimiter with its two characters, and the pairs of forms that stand for it. -/
structure Delimiter where
  /-- The delimiter itself. -/
  plain : List Char
  /-- The forms of its first and its second character. -/
  spellings : List (List String × List String)

/-- The four delimiters, in the order in which they are restored. -/
def delimiters : List Delimiter :=
  [⟨['{', '{'], [(openForms, openForms)]⟩,
    ⟨['}', '}'], [(closeForms, closeForms)]⟩,
    ⟨['{', '%'], [(openForms, percentForms), (openReferences, ["%"])]⟩,
    ⟨['%', '}'], [(percentForms, closeForms), (["%"], closeReferences)]⟩]

/-- What follows a spelling of the delimiter at the start of a text. -/
def Delimiter.after? (delimiter : Delimiter) (text : List Char) : Option (List Char) :=
  delimiter.spellings.findSome? fun spelling =>
    (afterForm? spelling.1 text).bind (afterForm? spelling.2)

/-- Restore one delimiter, after skipping the given number of characters. -/
def Delimiter.restoreFrom (delimiter : Delimiter) : Nat → List Char → List Char
  | _, [] => []
  | skip + 1, _ :: rest => delimiter.restoreFrom skip rest
  | 0, c :: rest =>
      match delimiter.after? (c :: rest) with
      | some after =>
          delimiter.plain ++ delimiter.restoreFrom (rest.length - after.length) rest
      | none => c :: delimiter.restoreFrom 0 rest

/-- Restore the escaped delimiters of a text. -/
def restoreDelimiters (text : String) : String :=
  String.ofList <| delimiters.foldl
    (fun text delimiter => delimiter.restoreFrom 0 text) text.toList

end Page
end MailPress
