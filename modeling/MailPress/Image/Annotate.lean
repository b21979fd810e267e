import MailPress.Css.Reader
import MailPress.Image.Sizer

/-!
# Writing image sizes

Images whose sizes were found get the size attributes that they lack. In
production they also get the sizes in their inline style, where it does not
declare them.
-/

namespace MailPress
namespace Image

/-- The declarations that an inline style lacks. -/
def missingSizes (declarations : List Css.Declaration) (size : Size) : String :=
  let add := fun (property : String) (length : Nat) =>
    if declarations.any fun declaration => declaration.property == property then ""
    else property ++ ":" ++ toString length ++ "px;"
  add "width" size.width ++ add "height" size.height

/-- An inline style with something added at its end. -/
def extendStyle (style addition : String) : String :=
  if style.isEmpty then addition
  else if Text.hasEnd ";" style then style ++ " " ++ addition
  else style ++ "; " ++ addition

/-- The element with the sizes that its inline style lacks. -/
def withStyledSize (size : Size) (element : Markup.Element) : Markup.Element :=
  let style := Text.trimmed ((element.attr? "style").getD "")
  let addition := missingSizes (Css.readDeclarations style) size
  if addition.isEmpty then element else element.setAttr "style" (extendStyle style addition)

/-- The element with the size attributes that it lacks. -/
def withSize (production : Bool) (size : Size) (element : Markup.Element) : Markup.Element :=
  let sized := (element.setAttrIfMissing "width" (toString size.width)).setAttrIfMissing
    "height" (toString size.height)
  if production then withStyledSize size sized else sized

/-- Write the sizes that were found into a document. -/
def annotate
    (document : Markup.Document)
    (resolved : Resolved)
    (production : Bool) :
    Markup.Document :=
  (unsized document).foldl (fun sized image =>
    match resolved.get? image.2 with
    | some size => sized.modifyElement image.1 (withSize production size)
    | none => sized) document

end Image
end MailPress
