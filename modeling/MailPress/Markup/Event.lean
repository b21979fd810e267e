import MailPress.Markup.Document
import MailPress.Markup.Token

/-!
# Events

The tokens of a source become a list of events, from which the document is
built. The body of a style or script element arrives as one text, whatever
markup it seems to hold.

Building never fails. An end event closes the nearest open element of its name
and everything inside it, and does nothing when there is none.
-/

namespace MailPress
namespace Markup

/-- An event of reading a document. -/
inductive Event
  /-- A start tag. -/
  | start (element : Element)
  /-- A start tag that ends in a slash. -/
  | empty (element : Element)
  /-- An end tag. -/
  | finish (name : String)
  /-- Raw text. -/
  | text (raw : String)
  /-- A character reference, without its ampersand and semicolon. -/
  | reference (name : String)
  /-- A comment. -/
  | comment (body : String)
  /-- A section of character data. -/
  | cdata (body : String)
  /-- A processing instruction. -/
  | instruction (body : String)
  /-- A document type or XML declaration. -/
  | declaration (body : String)
  deriving DecidableEq, Repr, Inhabited

/-- The event of a single token. -/
def Event.ofToken : Token → Event
  | .text raw => .text (String.ofList raw)
  | .reference name => .reference (String.ofList name)
  | .start content => .start (readElement false content)
  | .empty content => .empty (readElement true content)
  | .finish name => .finish (lowerName name)
  | .comment body => .comment (String.ofList body)
  | .cdata body => .cdata (String.ofList body)
  | .instruction body => .instruction (String.ofList body)
  | .declaration body => .declaration (String.ofList body)

/-- A failure of reading: what is wrong, and the source from the place to report.
A missing end tag is reported at no place. -/
structure Failure where
  /-- What is wrong. -/
  fault : Fault
  /-- The source from the place that is reported. -/
  remaining : Option (List Char)

/-- The elements whose body is raw text. -/
def rawTextNames : List String :=
  ["style", "script"]

/-- Read a raw text body up to the end tag of this very name, passing over `depth` inner
elements of the name. The result has the source from that end tag on, and behind it. -/
def skipBody
    (name : List Char)
    (depth : Nat)
    (source : List Char) :
    Except Failure (List Char × { rest : List Char // rest.length < source.length }) :=
  match readToken source with
  | .done => .error ⟨.missingEndTag (String.ofList name), none⟩
  | .failed fault remaining => .error ⟨fault, some remaining⟩
  | .token token rest shorter =>
      let next (depth : Nat) :=
        match skipBody name depth rest with
        | .error failure => Except.error failure
        | .ok (finish, ⟨after, less⟩) => .ok (finish, ⟨after, Nat.lt_trans less shorter⟩)
      match token with
      | .start content => if tagName content = name then next (depth + 1) else next depth
      | .finish found =>
          if found = name then
            match depth with
            | 0 => .ok (source, ⟨rest, shorter⟩)
            | depth + 1 => next depth
          else next depth
      | _ => next depth
termination_by source.length

/-- The text event of a body; an empty body has none. -/
def bodyEvents (body : List Char) : List Event :=
  if body.isEmpty then [] else [.text (String.ofList body)]

/-- The events of a prepared source. -/
def readEvents (source : List Char) : Except Failure (List Event) :=
  match readToken source with
  | .done => .ok []
  | .failed fault remaining => .error ⟨fault, some remaining⟩
  | .token token rest shorter =>
      match token with
      | .start content =>
          let element := readElement false content
          if rawTextNames.contains element.name then
            match skipBody (tagName content) 0 rest with
            | .error failure => .error failure
            | .ok (finish, ⟨after, less⟩) =>
                have : after.length < source.length := Nat.lt_trans less shorter
                let body := rest.take (rest.length - finish.length)
                (readEvents after).map fun events =>
                  .start element :: (bodyEvents body ++ .finish element.name :: events)
          else (readEvents rest).map fun events => .start element :: events
      | token => (readEvents rest).map fun events => Event.ofToken token :: events
termination_by source.length

/-- A document under construction: what is built, and the open elements, innermost first. -/
structure Building where
  /-- The document so far. -/
  document : Document
  /-- The elements that are open. -/
  opened : List Nat

/-- The node that new content goes below. -/
def Building.top (building : Building) : Nat :=
  building.opened.head?.getD Document.root

/-- Add a node at the end of the content so far. -/
def Building.add (building : Building) (content : Content) : Building :=
  { building with document := building.document.appendChild building.top content }

/-- Close the nearest open element of the name, with everything inside it. -/
def Building.finish (building : Building) (name : String) : Building :=
  match building.opened.dropWhile fun id => !building.document.isNamed name id with
  | [] => building
  | _ :: outer => { building with opened := outer }

/-- Take in one event. -/
def Building.take (building : Building) : Event → Building
  | .start element =>
      let grown := building.add (.element element)
      if isVoid element.name then grown
      else { grown with opened := building.document.size :: grown.opened }
  | .empty element => building.add (.element element)
  | .finish name => building.finish name
  | .text raw =>
      { building with document := building.document.appendText building.top raw }
  | .reference name =>
      { building with document := building.document.appendText building.top ("&" ++ name ++ ";") }
  | .comment body => building.add (.comment body)
  | .cdata body => building.add (.verbatim ("<![CDATA[" ++ body ++ "]]>"))
  | .instruction body => building.add (.verbatim ("<?" ++ body ++ "?>"))
  | .declaration _ => building

/-- The document that a list of events builds. -/
def Document.ofEvents (events : List Event) : Document :=
  (events.foldl Building.take ⟨Document.empty, []⟩).document

end Markup
end MailPress
