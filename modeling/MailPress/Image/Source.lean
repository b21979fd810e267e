import MailPress.Image.Header
import MailPress.Text.Search

/-!
# Image sources

What the source of an image says about where the image is and how large it is
meant to be shown. A source with a scheme or two slashes is an address; any other
is a path below the template.

Images for dense screens say so at the end of their file name, and are shown
smaller by that factor.
-/

namespace MailPress
namespace Image

/-- Whether a character starts what is no path any more. -/
def endsPath (c : Char) : Bool :=
  c == '?' || c == '#'

/-- The address of a remote image. -/
def address? (source : String) : Option String :=
  let lowered := Text.lower source
  if Text.hasStart "http://" lowered || Text.hasStart "https://" lowered then some source
  else
    match Text.dropStart? ['/', '/'] source.toList with
    | some rest => some ("https://" ++ String.ofList rest)
    | none => none

/-- Drop a pattern of two characters as often as it stands at the start. -/
def dropPairs (first second : Char) : List Char → List Char
  | a :: b :: rest => if a = first ∧ b = second then dropPairs first second rest else a :: b :: rest
  | text => text

/-- The path of a local image below its template. -/
def localPath (source : String) : String :=
  let path := source.toList.takeWhile fun c => !endsPath c
  String.ofList ((dropPairs '.' '/' path).dropWhile (· == '/'))

/-- The factor by which an image for dense screens is larger than it is shown. -/
def density (source : String) : Nat :=
  let path := source.toList.takeWhile fun c => !endsPath c
  let file := (path.reverse.takeWhile (· != '/')).reverse
  let stem := ((Text.splitLast ['.'] file).map Prod.fst).getD file
  if Text.endsWith ['@', '2', 'x'] stem then 2
  else if Text.endsWith ['@', '3', 'x'] stem then 3
  else 1

/-- The warning about a side that does not divide evenly. -/
def unevenSide (source axis : String) (length factor : Nat) : String :=
  "`" ++ source ++ "` " ++ axis ++ " " ++ toString length ++ " is not divisible by " ++
    toString factor ++ ", rounding down"

/-- The size at which an image is shown, with the warnings about uneven sides. -/
def shownSize (source : String) (size : Size) : Size × List String :=
  let factor := density source
  let warn := fun (axis : String) (length : Nat) =>
    if length % factor = 0 then [] else [unevenSide source axis length factor]
  (⟨size.width / factor, size.height / factor⟩,
    warn "width" size.width ++ warn "height" size.height)

end Image
end MailPress
