/-!
# Values of a TOML document

A document is a table of values by name. A table remembers how it came about,
because that decides whether it may be extended later: a table that was opened
by its own header, or written as a value, may not be opened again.

Only the kinds of value that a setting can have are represented.
-/

namespace MailPress
namespace Toml

/-- How a table came about. -/
inductive Origin
  /-- It was named only on the way to a table inside it. -/
  | implied
  /-- It was named by a dotted key. -/
  | dotted
  /-- It has a header of its own. -/
  | header
  /-- It was written as a value. -/
  | inline
  deriving DecidableEq, Repr

/-- A value of a document. -/
inductive Value
  | text (value : String)
  | integer (value : Int)
  | boolean (value : Bool)
  | array (elements : List Value)
  | table (origin : Origin) (entries : List (String × Value))
  deriving Inhabited, Repr

namespace Value

/-- The text of a string. -/
def text? : Value → Option String
  | .text value => some value
  | _ => none

/-- The value of a boolean. -/
def boolean? : Value → Option Bool
  | .boolean value => some value
  | _ => none

/-- The value of an integer that is not negative. -/
def natural? : Value → Option Nat
  | .integer value => if 0 ≤ value then some value.toNat else none
  | _ => none

/-- The texts of an array of strings. -/
def texts? : Value → Option (List String)
  | .array elements => elements.mapM text?
  | _ => none

end Value

/-- Replace the value of a name that is present. -/
def replaceEntry (name : String) (value : Value) : List (String × Value) → List (String × Value)
  | [] => []
  | entry :: entries =>
      if entry.1 = name then (name, value) :: entries
      else entry :: replaceEntry name value entries

/-- Set the value at a dotted key; none where something is there already. -/
def assign (value : Value) : List String → List (String × Value) → Option (List (String × Value))
  | [], _ => none
  | [name], entries =>
      if (entries.lookup name).isSome then none else some (entries ++ [(name, value)])
  | name :: next :: names, entries =>
      match entries.lookup name with
      | none =>
          (assign value (next :: names) []).map fun inner =>
            entries ++ [(name, .table .dotted inner)]
      | some (.table origin inner) =>
          if origin = .dotted || (origin = .implied && !names.isEmpty) then
            (assign value (next :: names) inner).map fun extended =>
              replaceEntry name (.table origin extended) entries
          else none
      | some _ => none

/-- Open the table at a path and set values in it; none where that may not be done. -/
def define
    (body : List (List String × Value)) :
    List String → List (String × Value) → Option (List (String × Value))
  | [], entries => body.foldlM (fun entries line => assign line.2 line.1 entries) entries
  | [name], entries =>
      match entries.lookup name with
      | none =>
          (define body [] []).map fun inner => entries ++ [(name, .table .header inner)]
      | some (.table .implied inner) =>
          (define body [] inner).map fun extended =>
            replaceEntry name (.table .header extended) entries
      | some _ => none
  | name :: next :: names, entries =>
      match entries.lookup name with
      | none =>
          (define body (next :: names) []).map fun inner =>
            entries ++ [(name, .table .implied inner)]
      | some (.table origin inner) =>
          if origin = .inline then none
          else
            (define body (next :: names) inner).map fun extended =>
              replaceEntry name (.table origin extended) entries
      | some _ => none

end Toml
end MailPress
