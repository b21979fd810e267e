import MailPress.Console.Log
import MailPress.Css.Selector.Reader
import MailPress.Css.Writer

/-!
# Head and inline styles

The items of a style sheet part into two sheets. At-rules, and rules with a
selector that cannot be decided on a document at rest, go to the head of the
document; all other rules go inline. Every item lands on exactly one side.

In the head, every declaration is marked important, so that it wins against the
inline styles, and media queries are merged and come last.

What the style sheets of a template come to once they are compiled and taken
apart is one text for the head of the page, one that is inlined, and the links
that a page for development has instead.
-/

namespace MailPress

/-- The styles of a message. -/
structure Styles where
  /-- What belongs into the head. -/
  head : String
  /-- What is inlined. -/
  inline : String
  /-- The style sheets that the page for development links. -/
  links : List String
  deriving DecidableEq, Repr, Inhabited

namespace Style

/-- The two sides of a style sheet. -/
structure Partition where
  /-- The items that stay in the head of the document. -/
  head : Css.Sheet
  /-- The rules that are written into `style` attributes. -/
  inline : Css.Sheet
  deriving Repr, Inhabited

/-- Whether a selector can be decided while inlining. -/
def isInlinable (selector : String) : Bool :=
  !Css.hasDynamicPseudo selector && (Css.Selector.read selector).any (·.isStatic)

/-- Whether an item belongs to the head. -/
def isHeadBound : Css.Item → Bool
  | .rule rule => !rule.selectors.all isInlinable
  | _ => true

/-- Part a style sheet; both sides keep the order of their items. -/
def Partition.split (sheet : Css.Sheet) : Partition :=
  ⟨⟨sheet.items.filter isHeadBound⟩, ⟨sheet.items.filter (!isHeadBound ·)⟩⟩

/-- The selector that a rule is reported for when it stays in the head: its first one that
cannot be inlined, unless that is a matter of user action. -/
def reported : Css.Item → Option String
  | .rule rule =>
      (rule.selectors.find? (!isInlinable ·)).filter (!Css.hasDynamicPseudo ·)
  | _ => none

/-- The warnings about rules that stay in the head. -/
def Partition.warnings (sheet : Css.Sheet) : List Console.Message :=
  (sheet.items.filterMap reported).map fun selector =>
    ⟨"warn", "selector `" ++ selector ++ "` cannot be inlined, keeping the rule in head"⟩

/-- A media query without regard to letter case and spacing. -/
def normalizeQuery (prelude : String) : String :=
  let words := (Text.blankWords (Text.lower prelude).toList).map String.ofList
  Text.substitute ": " ":" (String.intercalate " " words)

/-- A media query with its items. -/
structure Media where
  /-- The query as first written. -/
  query : String
  /-- The items below it. -/
  items : List Css.Item
  deriving Repr, Inhabited

/-- Add items to the media query that is the same, or as a new one at the end. -/
def addMedia (query : String) (items : List Css.Item) : List Media → List Media
  | [] => [⟨query, items⟩]
  | media :: rest =>
      if normalizeQuery media.query = normalizeQuery query then
        ⟨media.query, media.items ++ items⟩ :: rest
      else media :: addMedia query items rest

/-- The name of the at-rule of a media query. -/
def mediaName : String := "media"

/-- The media queries among some items, those that are the same merged. -/
def mergedMedia (items : List Css.Item) : List Media :=
  items.foldl
    (fun merged item =>
      match item with
      | .group name query inner => if name = mediaName then addMedia query inner merged else merged
      | _ => merged)
    []

/-- Whether an item is an at-rule for media queries, with or without a block. -/
def isMedia : Css.Item → Bool
  | .rule _ => false
  | .statement name _ => name == mediaName
  | .group name _ _ => name == mediaName
  | .descriptors name _ _ => name == mediaName

/-- Merge equal media queries and move them behind all other items. -/
def mergeMediaQueries (items : List Css.Item) : List Css.Item :=
  items.filter (!isMedia ·) ++
    (mergedMedia items).map fun media => .group mediaName media.query media.items

/-- The written head side. -/
def Partition.headCss (partition : Partition) : String :=
  Css.Sheet.write ⟨mergeMediaQueries partition.head.forceImportant.items⟩

/-- The written inline side. -/
def Partition.inlineCss (partition : Partition) : String :=
  partition.inline.write

end Style
end MailPress
