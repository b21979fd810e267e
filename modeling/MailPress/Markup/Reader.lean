import MailPress.Markup.Event

/-!
# Reading documents

A source is prepared by escaping the ampersands and angle brackets that are
plain text, and then read into a document. A document type declaration is
dropped.

A failure is reported with its place in the prepared source, counted in bytes.
-/

namespace MailPress
namespace Markup

/-- Why a source is not a document. -/
structure ReadError where
  /-- What is wrong. -/
  fault : Fault
  /-- Where it is, in bytes of the prepared source. -/
  position : Nat
  deriving DecidableEq, Repr

/-- The wording of a failure. -/
def ReadError.message (error : ReadError) : String :=
  "markup error: parse error at position " ++ toString error.position ++ ": " ++
    error.fault.message

/-- A source without its byte order mark. -/
def withoutMark : List Char → List Char
  | '\ufeff' :: source => source
  | source => source

/-- Read a document or a fragment of one. -/
def Document.read (source : String) : Except ReadError Document :=
  let prepared := withoutMark (prepare source.toList)
  match readEvents prepared with
  | .ok events => .ok (Document.ofEvents events)
  | .error failure =>
      .error
        ⟨failure.fault, byteLength prepared - byteLength (failure.remaining.getD prepared)⟩

end Markup
end MailPress
