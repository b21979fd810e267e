import MailPress.Compact.Writer
import MailPress.Image.Annotate
import MailPress.Markup.Writer
import MailPress.Page.Comments
import MailPress.Page.Defaults
import MailPress.Page.Delimiters
import MailPress.Page.Doctype
import MailPress.Page.Head
import MailPress.Settings.Basic
import MailPress.Style.Inline
import MailPress.Style.Partition
import MailPress.Style.Unused
import MailPress.Text.Typography

/-!
# Finished pages

From the markup of a message, its styles and the sizes of its images, two pages
are made. The one for production has its styles inlined and is as small as it
can be; the one for development links its style sheets and stays readable.

Both are plain ASCII, have their template delimiters restored, and start with the
configured document type.
-/

namespace MailPress

namespace Page

open Markup

/-- The document with the defaults that both pages share. -/
def prepared (finish : Settings.Finish) (document : Document) : Document :=
  let filled := applyDefaults document finish.linkTarget
  if finish.emptyCell then fillEmptyCells filled else filled

/-- The text of a page, plain and with its document type. -/
def closePage (doctype markup : String) : String :=
  applyDoctype (restoreDelimiters (Text.encodeNonAscii markup)) doctype

/-- The document of the page for production, before its styles are inlined. -/
def headedDocument (finish : Settings.Finish) (document : Document) (styles : Styles) : Document :=
  let document := prepared finish document
  let document := if finish.metaTags then addMetaTags document else document
  addHeadCss document styles.head

/-- The document of the page for production, before unused styles are taken out. -/
def sizedDocument
    (finish : Settings.Finish)
    (document : Document)
    (styles : Styles)
    (resolved : Image.Resolved) :
    Document :=
  let document := headedDocument finish document styles
  let document := Style.inlineStyles document styles.inline finish.sizeAttributes
  Image.annotate document resolved true

/-- The document of the page for production. -/
def productionDocument
    (finish : Settings.Finish)
    (document : Document)
    (styles : Styles)
    (resolved : Image.Resolved) :
    Document :=
  let document := sizedDocument finish document styles resolved
  let document :=
    if finish.removeUnusedCss then Style.removeUnused document finish.whitelist else document
  stripComments document

/-- Whether making the document of the page for production ends the program. -/
def productionStops
    (finish : Settings.Finish)
    (document : Document)
    (styles : Styles)
    (resolved : Image.Resolved) :
    Bool :=
  Style.inliningStops (headedDocument finish document styles) styles.inline ||
    finish.removeUnusedCss &&
      (Style.removeUnused? (sizedDocument finish document styles resolved)
        finish.whitelist).isNone

/-- The page for production, made small in some way. -/
def productionWith
    (compact : String → String)
    (settings : Settings)
    (document : Document)
    (styles : Styles)
    (resolved : Image.Resolved) :
    String :=
  let markup := (productionDocument settings.finish document styles resolved).write
  let markup := if settings.finish.minify then compact markup else markup
  closePage settings.places.doctype markup

/-- The page for production. -/
def production
    (settings : Settings)
    (document : Document)
    (styles : Styles)
    (resolved : Image.Resolved) :
    String :=
  productionWith Compact.compactPage settings document styles resolved

/-- The document of the page for development. -/
def developmentDocument
    (finish : Settings.Finish)
    (document : Document)
    (styles : Styles)
    (resolved : Image.Resolved) :
    Document :=
  Image.annotate (addLinks (prepared finish document) styles.links) resolved false

/-- The page for development. -/
def development
    (settings : Settings)
    (document : Document)
    (styles : Styles)
    (resolved : Image.Resolved) :
    String :=
  closePage settings.places.doctype
    (developmentDocument settings.finish document styles resolved).write

end Page
end MailPress
