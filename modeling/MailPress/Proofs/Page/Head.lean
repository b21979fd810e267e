import MailPress.Image.Annotate
import MailPress.Page.Assembly
import MailPress.Page.Defaults
import MailPress.Proofs.Markup.Layout
import MailPress.Proofs.Page.Doctype
import MailPress.Proofs.Style.Inline

/-!
# The head of a finished page

Defaults, inlined styles and image sizes are attributes. Writing them changes neither the
names of elements nor the links between nodes.

Every stage between reading a document and writing its page keeps the document rooted, and
keeps document type declarations away from its start. The styles for the head end up at the
end of the first style element of the head, and later stages leave them there.
-/

namespace MailPress

open Markup

/-! ## Changes that leave the layout of a page -/

namespace Page

/-- An element with its defaults has whatever it had and setting attributes that are missing
keeps. -/
theorem withDefaults_induction
    {element : Element}
    (Reached : Element → Prop)
    (start : Reached element)
    (set : ∀ name value given, name ≠ "src" → Reached given →
      Reached (given.setAttrIfMissing name value))
    (target : Option String) :
    Reached (withDefaults target element) := by
  have filled : Reached ((defaultAttributes element.name).foldl
      (fun filled pair => filled.setAttrIfMissing pair.1 pair.2) element) := by
    have others : ∀ pair ∈ defaultAttributes element.name, pair.1 ≠ "src" := by
      unfold defaultAttributes
      split <;> decide
    generalize defaultAttributes element.name = defaults at others
    induction defaults generalizing element with
    | nil => exact start
    | cons pair defaults inductionHypothesis =>
        obtain ⟨here, rest⟩ := List.forall_mem_cons.mp others
        exact inductionHypothesis (set pair.1 pair.2 element here start) rest
  unfold withDefaults
  dsimp only
  split
  · split
    · exact set "target" _ _ (by decide) filled
    · exact filled
  · exact filled

theorem keepsTag_withDefaults (target : Option String) : KeepsTag (withDefaults target) := by
  intro element
  refine withDefaults_induction
    (fun later => later.name = element.name ∧ later.selfClosing = element.selfClosing)
    ⟨rfl, rfl⟩ (fun name value given _ kept => ?_) target
  obtain ⟨name_eq, selfClosing_eq⟩ := KeepsTag.setAttrIfMissing name value given
  exact ⟨name_eq.trans kept.1, selfClosing_eq.trans kept.2⟩

theorem sameLayout_applyDefaults
    (document : Document)
    (target : Option String) :
    document.SameLayout (applyDefaults document target) :=
  .foldl_modifyElement document.elements (fun id => id)
    (fun _ => keepsTag_withDefaults target) document

end Page

namespace Style

theorem keepsTag_restyle
    (sizeNames : List String)
    (candidates : List Candidate) :
    KeepsTag (restyle sizeNames candidates) := by
  intro element
  have restyled := isRestyled_restyle sizeNames candidates element
  exact ⟨restyled.name_eq, restyled.selfClosing_eq⟩

theorem sameLayout_inlineStyles
    (document : Document)
    (css : String)
    (sizeNames : List String) :
    document.SameLayout (inlineStyles document css sizeNames) :=
  .foldl_modifyElement (matchedElements document css) Prod.fst
    (fun entry => keepsTag_restyle sizeNames entry.2) document

end Style

namespace Image

/-- An element that is given a size has whatever it had and setting its sides and, in
production, its style keeps. -/
theorem withSize_induction
    {production : Bool}
    {element : Element}
    (Reached : Element → Prop)
    (start : Reached element)
    (side : ∀ name ∈ ["width", "height"], ∀ value given, Reached given →
      Reached (given.setAttrIfMissing name value))
    (style : production = true → ∀ value given, Reached given →
      Reached (given.setAttr "style" value))
    (size : Size) :
    Reached (withSize production size element) := by
  have sized := side "height" (by decide) (toString size.height) _
    (side "width" (by decide) (toString size.width) element start)
  unfold withSize
  dsimp only
  split
  · next isProduction =>
      unfold withStyledSize
      dsimp only
      split
      · exact sized
      · exact style isProduction _ _ sized
  · exact sized

theorem keepsTag_withSize (production : Bool) (size : Size) :
    KeepsTag (withSize production size) := by
  intro element
  refine withSize_induction
    (fun later => later.name = element.name ∧ later.selfClosing = element.selfClosing)
    ⟨rfl, rfl⟩ (fun name _ value given kept => ?_) (fun _ _ _ kept => kept) size
  obtain ⟨name_eq, selfClosing_eq⟩ := KeepsTag.setAttrIfMissing name value given
  exact ⟨name_eq.trans kept.1, selfClosing_eq.trans kept.2⟩

theorem sameLayout_annotate
    (document : Document)
    (resolved : Resolved)
    (production : Bool) :
    document.SameLayout (annotate document resolved production) := by
  unfold annotate
  generalize unsized document = images
  induction images generalizing document with
  | nil => exact .refl document
  | cons image images inductionHypothesis =>
      rw [List.foldl_cons]
      refine .trans ?_ (inductionHypothesis _)
      split
      · exact .modifyElement document image.1 (keepsTag_withSize production _)
      · exact .refl document

end Image

namespace Page

/-! ## Pages -/

/-- A rooted document whose text does not start with a document type declaration. -/
structure IsPage (document : Document) : Prop where
  /-- The document is rooted. -/
  rooted : document.IsRooted
  /-- No tree below the root starts a declaration. -/
  plainly : RootStartsPlainly document

theorem IsPage.read
    {source : String}
    {document : Document}
    (read : Document.read source = .ok document) :
    IsPage document := by
  refine ⟨?_, rootStartsPlainly_read read⟩
  obtain ⟨events, _, rfl⟩ := read_eq_ok_iff.mp read
  exact .ofEvents events

namespace IsPage

variable {document : Document}

theorem of_sameLayout
    (page : IsPage document)
    {changed : Document}
    (same : document.SameLayout changed) :
    IsPage changed := by
  have startsPlainly_of (content : Content) :
      startsPlainly content ↔ startsPlainly content.withoutAttributes := by
    cases content <;> rfl
  refine ⟨same.isRooted page.rooted, ?_⟩
  intro id below
  rw [startsPlainly_of, same.content_eq, ← startsPlainly_of]
  exact page.plainly id (same.parent?_eq id ▸ below)

theorem attach
    (page : IsPage document)
    {parent : Nat}
    (inside : parent < document.size)
    (holds : (document.content parent).holdsChildren = true)
    {content : Content}
    (plain : parent = Document.root → startsPlainly content)
    {place : List Nat → List Nat}
    (places : ∀ children, (place children).Perm (document.size :: children)) :
    IsPage (document.attach parent content place) :=
  ⟨page.rooted.attach inside holds content places, page.plainly.attach inside plain place⟩

theorem insertChild
    (page : IsPage document)
    {parent : Nat}
    (inside : parent < document.size)
    (holds : (document.content parent).holdsChildren = true)
    {content : Content}
    (plain : parent = Document.root → startsPlainly content)
    (index : Nat) :
    IsPage (document.insertChild parent index content) := by
  rw [Document.insertChild_eq_attach]
  apply page.attach inside holds plain
  intro children
  refine List.perm_middle.trans ?_
  rw [List.take_append_drop]

theorem holdsChildren_of_isElement
    {id : Nat}
    (isElement : document.isElement id = true) :
    (document.content id).holdsChildren = true := by
  obtain ⟨element, content⟩ := Document.isElement_eq_true_iff.mp isElement
  rw [content]
  rfl

theorem appendText
    (page : IsPage document)
    {parent : Nat}
    (isElement : document.isElement parent = true)
    (raw : String) :
    IsPage (document.appendText parent raw) := by
  have inside := Document.lt_size_of_isElement isElement
  refine ⟨page.rooted.appendText inside (holdsChildren_of_isElement isElement) raw, ?_⟩
  refine page.plainly.appendText page.rooted.forest inside ?_
  intro isRoot
  exact absurd isRoot (page.rooted.ne_root_of_isElement isElement)

end IsPage

/-! ## Heads -/

/-- A head that is missing finds its place within reach of the root. -/
theorem headPlace_mem_ids
    {document : Document}
    (forest : document.IsForest) :
    (document.findFirst? "html").getD Document.root ∈ (document.tree Document.root).ids := by
  cases found : document.findFirst? "html" with
  | none => exact forest.self_mem_ids Document.root
  | some html =>
      have listed := Document.mem_findAll_iff.mp (Document.mem_findAll_of_findFirst? found)
      rw [forest.ids_root]
      exact List.mem_cons_of_mem _ listed.1

/-- There is a head afterwards, and it is the first one. -/
theorem findFirst?_ensureHead
    {document : Document}
    (forest : document.IsForest) :
    (ensureHead document).1.findFirst? "head" = some (ensureHead document).2 := by
  have inReach := headPlace_mem_ids forest
  unfold ensureHead
  split
  · assumption
  · next missing =>
      dsimp only
      generalize (document.findFirst? "html").getD Document.root = parent at inReach
      have inside := forest.lt_size_of_mem_ids forest.nonempty inReach
      have content := Document.content_attach inside (newElement "head" [])
        (fun children => children.take 0 ++ document.size :: children.drop 0)
      have listed := Document.children_attach inside (newElement "head" [])
        (fun children => children.take 0 ++ document.size :: children.drop 0) parent
      have drops := forest.dropsLeaves_attach inside (newElement "head" [])
        (fun _ fresh => Document.filter_insert fresh 0)
      have grownForest := forest.insertChild inside 0 (newElement "head" [])
      rw [if_neg (Nat.ne_of_lt inside), if_pos rfl] at listed
      rw [Document.insertChild_eq_attach] at grownForest ⊢
      generalize document.attach parent (newElement "head" []) _ = grown
        at content listed drops grownForest ⊢
      have rootKept : (Document.root != document.size) = true :=
        bne_iff_ne.mpr (Nat.ne_of_lt forest.nonempty)
      have ids_eq := drops.ids_eq grownForest forest rootKept
      -- The new head is within reach, and any other head was there before.
      have newListed : document.size ∈ grown.findAll "head" := by
        have parentListed : parent ∈ (grown.tree Document.root).ids :=
          (List.mem_filter.mp (ids_eq ▸ inReach)).1
        have isChild : document.size ∈ grown.children parent := by
          rw [listed]
          exact List.mem_append_right _ List.mem_cons_self
        have member := grownForest.mem_ids_of_mem_children parentListed isChild
        rw [grownForest.ids_root, List.mem_cons] at member
        have below := member.resolve_left (Nat.ne_of_gt forest.nonempty)
        refine Document.mem_findAll_iff.mpr ⟨below, Document.isNamed_eq_true_iff.mpr ?_⟩
        rw [content, if_pos rfl]
        exact ⟨_, rfl, rfl⟩
      have isNew : ∀ id ∈ grown.findAll "head", id = document.size := by
        intro id member
        apply Classical.byContradiction
        intro old
        obtain ⟨below, isHead⟩ := Document.mem_findAll_iff.mp member
        rw [Document.isNamed_eq_true_iff, content, if_neg old, ← Document.isNamed_eq_true_iff]
          at isHead
        have kept : id ∈ document.descendants Document.root := by
          rw [drops.descendants_eq grownForest forest rootKept]
          exact List.mem_filter.mpr ⟨below, bne_iff_ne.mpr old⟩
        have found := Document.mem_findAll_iff.mpr ⟨kept, isHead⟩
        rw [List.head?_eq_none_iff.mp missing] at found
        cases found
      unfold Document.findFirst?
      cases heads : grown.findAll "head" with
      | nil =>
          rw [heads] at newListed
          cases newListed
      | cons id rest => rw [List.head?_cons, isNew id (heads ▸ List.mem_cons_self)]

/-! ## Stages that keep a page -/

namespace IsPage

variable {document : Document}

theorem fillEmptyCells (page : IsPage document) : IsPage (Page.fillEmptyCells document) := by
  unfold Page.fillEmptyCells
  have cells : ∀ id ∈ document.elements.filter (isEmptyCell document),
      document.isElement id = true :=
    fun id member => (List.mem_filter.mp (List.mem_filter.mp member).1).2
  generalize document.elements.filter (isEmptyCell document) = ids at cells
  induction ids generalizing document with
  | nil => exact page
  | cons id ids inductionHypothesis =>
      obtain ⟨here, rest⟩ := List.forall_mem_cons.mp cells
      apply inductionHypothesis (page.appendText here "&nbsp;")
      intro other member
      rw [page.rooted.forest.isElement_appendText (Document.lt_size_of_isElement here)]
      exact rest other member

theorem prepared
    (page : IsPage document)
    (finish : Settings.Finish) :
    IsPage (Page.prepared finish document) := by
  have filled := page.of_sameLayout (sameLayout_applyDefaults document finish.linkTarget)
  unfold Page.prepared
  dsimp only
  split
  · exact filled.fillEmptyCells
  · exact filled

/-- A head that is missing finds its place below the root or the page element. -/
theorem headPlace (page : IsPage document) :
    (document.findFirst? "html").getD Document.root < document.size ∧
      (document.content ((document.findFirst? "html").getD Document.root)).holdsChildren = true := by
  cases found : document.findFirst? "html" with
  | none =>
      rw [Option.getD_none, page.rooted.content_root]
      exact ⟨page.rooted.forest.nonempty, rfl⟩
  | some html =>
      have isElement := Document.isElement_of_isNamed (Document.isNamed_of_findFirst? found)
      exact ⟨Document.lt_size_of_isElement isElement, holdsChildren_of_isElement isElement⟩

theorem ensureHead (page : IsPage document) : IsPage (Page.ensureHead document).1 := by
  obtain ⟨inside, holds⟩ := page.headPlace
  have plain : startsPlainly (newElement "head" []) := by
    rw [newElement, startsPlainly, Element.make]
    rfl
  unfold Page.ensureHead
  split
  · exact page
  · exact page.insertChild inside holds (fun _ => plain) 0

theorem insertFrom
    (page : IsPage document)
    {parent : Nat}
    (isElement : document.isElement parent = true)
    (index : Nat)
    (contents : List Content) :
    IsPage (Page.insertFrom parent index contents document) := by
  induction contents generalizing document index with
  | nil => exact page
  | cons content contents inductionHypothesis =>
      have inside := Document.lt_size_of_isElement isElement
      have below := page.rooted.ne_root_of_isElement isElement
      have grown : IsPage (document.insertChild parent index content) :=
        page.insertChild inside (holdsChildren_of_isElement isElement)
          (fun isRoot => absurd isRoot below) index
      rw [Page.insertFrom]
      rw [Document.insertChild_eq_attach] at grown ⊢
      exact inductionHypothesis grown (Document.isElement_attach inside content _ isElement)
        (index + 1)

theorem addMetaTags (page : IsPage document) : IsPage (Page.addMetaTags document) := by
  have named := Document.isNamed_of_findFirst? (findFirst?_ensureHead page.rooted.forest)
  exact page.ensureHead.insertFrom (Document.isElement_of_isNamed named) 0 _

end IsPage

/-! ## Styles for the head -/

/-- The first style element among the children of the first head. -/
def firstStyle? (document : Document) : Option Nat :=
  (document.findFirst? "head").bind fun head =>
    (document.children head).find? (document.isNamed "style")

/-- Styles stand at the end of the first style element. -/
structure ShowsStyles (css : String) (style : Nat) (document : Document) : Prop where
  /-- The element is the first style element of the head. -/
  first : firstStyle? document = some style
  /-- Its last child is a text that ends with the styles. -/
  last : ∃ others last old, document.children style = others ++ [last] ∧
    document.content last = .text (old ++ css)

theorem isNamed_of_firstStyle?
    {document : Document}
    {style : Nat}
    (first : firstStyle? document = some style) :
    document.isNamed "style" style = true := by
  obtain ⟨head, _, found⟩ := Option.bind_eq_some_iff.mp first
  exact List.find?_some found

namespace IsPage

variable {document : Document}

/-- Appending styles to the first style element shows them there. -/
theorem showsStyles_appendText
    (page : IsPage document)
    {style : Nat}
    (first : firstStyle? document = some style)
    (css : String) :
    ShowsStyles css style (document.appendText style css) := by
  have forest := page.rooted.forest
  have isElement := Document.isElement_of_isNamed (isNamed_of_firstStyle? first)
  have inside := Document.lt_size_of_isElement isElement
  refine ⟨?_, forest.exists_children_appendText inside css⟩
  obtain ⟨head, isHead, found⟩ := Option.bind_eq_some_iff.mp first
  have older := (forest.lt_of_mem_children (List.mem_of_find?_eq_some found)).1
  have sameNames := funext (forest.isNamed_appendText inside css "style")
  rw [firstStyle?, forest.findFirst?_appendText inside, isHead, Option.bind_some,
    Document.children_appendText inside css (Nat.ne_of_lt older), sameNames, found]

/-- A style element appended to a head without one is the first one. -/
theorem firstStyle?_appendChild
    (page : IsPage document)
    {head : Nat}
    (isHead : document.findFirst? "head" = some head)
    (missing : (document.children head).find? (document.isNamed "style") = none) :
    firstStyle? (document.appendChild head (newElement "style" [("type", "text/css")])) =
      some document.size := by
  have forest := page.rooted.forest
  have inside := Document.lt_size_of_isElement
    (Document.isElement_of_isNamed (Document.isNamed_of_findFirst? isHead))
  rw [firstStyle?, Document.appendChild_eq_attach, forest.findFirst?_attach inside, isHead,
    Option.bind_some, Document.children_attach inside, if_neg (Nat.ne_of_lt inside), if_pos rfl,
    List.find?_append]
  · have unchanged : (document.children head).find? ((document.attach head
        (newElement "style" [("type", "text/css")]) (· ++ [document.size])).isNamed "style") = none := by
      refine List.find?_eq_none.mpr ?_
      intro child listed
      have old := Nat.ne_of_lt (forest.lt_of_mem_children listed).2
      have unnamed := List.find?_eq_none.mp missing child listed
      rw [Document.isNamed_eq_true_iff] at unnamed ⊢
      rwa [Document.content_attach inside, if_neg old]
    have named : (document.attach head (newElement "style" [("type", "text/css")])
        (· ++ [document.size])).isNamed "style" document.size = true := by
      rw [Document.isNamed_eq_true_iff, Document.content_attach inside, if_pos rfl]
      exact ⟨_, rfl, rfl⟩
    rw [unchanged, Option.none_or, List.find?_cons_of_pos named]
  · intro children
    exact List.perm_append_singleton document.size children
  · intro children fresh
    exact Document.filter_append_singleton fresh
  · rintro element ⟨⟩
    decide

theorem addHeadCss
    (page : IsPage document)
    {css : String}
    (nonempty : css ≠ "") :
    IsPage (Page.addHeadCss document css) ∧
      ∃ style, ShowsStyles css style (Page.addHeadCss document css) := by
  have headed := page.ensureHead
  have isHead := findFirst?_ensureHead page.rooted.forest
  have notEmpty : ¬css.isEmpty = true := by simpa using nonempty
  unfold Page.addHeadCss
  rw [if_neg notEmpty]
  dsimp only
  generalize (Page.ensureHead document).1 = document, (Page.ensureHead document).2 = head
    at headed isHead
  have headElement := Document.isElement_of_isNamed (Document.isNamed_of_findFirst? isHead)
  have headInside := Document.lt_size_of_isElement headElement
  have headBelow := headed.rooted.ne_root_of_isElement headElement
  split
  · next style found =>
      have first : firstStyle? document = some style := by
        rw [firstStyle?, isHead, Option.bind_some, found]
      have isElement := Document.isElement_of_isNamed (isNamed_of_firstStyle? first)
      exact ⟨headed.appendText isElement css, style, headed.showsStyles_appendText first css⟩
  · next missing =>
      have places : ∀ children : List Nat,
          (children ++ [document.size]).Perm (document.size :: children) :=
        fun children => List.perm_append_singleton document.size children
      have styled : IsPage (document.appendChild head (newElement "style" [("type", "text/css")])) :=
        headed.attach headInside (holdsChildren_of_isElement headElement)
          (fun isRoot => absurd isRoot headBelow) places
      have first := headed.firstStyle?_appendChild isHead missing
      have isElement := Document.isElement_of_isNamed (isNamed_of_firstStyle? first)
      exact ⟨styled.appendText isElement css, document.size,
        styled.showsStyles_appendText first css⟩

end IsPage

/-- Changing attributes leaves the styles where they are. -/
theorem ShowsStyles.of_sameLayout
    {css : String}
    {style : Nat}
    {first second : Document}
    (shown : ShowsStyles css style first)
    (forest : first.IsForest)
    (same : first.SameLayout second) :
    ShowsStyles css style second := by
  have sameNames := funext (same.isNamed_eq "style")
  refine ⟨?_, ?_⟩
  · rw [← shown.first, firstStyle?, firstStyle?, same.findFirst?_eq forest]
    simp only [same.children_eq, sameNames]
  · obtain ⟨others, last, old, listed, content⟩ := shown.last
    refine ⟨others, last, old, ?_, ?_⟩
    · rw [same.children_eq, listed]
    · rw [same.content_eq_of_not_element, content]
      rw [← Bool.not_eq_true, Document.isElement_eq_true_iff, content]
      exact nofun

/-! ## Comments that are removed -/

/-- A forest whose text does not start with a document type declaration. -/
structure IsWritable (document : Document) : Prop where
  /-- The links agree. -/
  forest : document.IsForest
  /-- The root stands for the document. -/
  content_root : document.content Document.root = .root
  /-- Texts and comments have nothing below them. -/
  holds : document.ParentsHold
  /-- No tree below the root starts a declaration. -/
  plainly : RootStartsPlainly document

section Comments

variable {document : Document}

/-- The comments that are removed. -/
def authorComments (document : Document) : List Nat :=
  (document.descendants Document.root).filter (isAuthorComment document)

/-- Whether a node is none of the comments that are removed. -/
def isKept (document : Document) (id : Nat) : Bool :=
  !(authorComments document).contains id

theorem exists_comment_of_mem_authorComments
    {id : Nat}
    (member : id ∈ authorComments document) :
    ∃ body, document.content id = .comment body := by
  have isComment := (List.mem_filter.mp member).2
  unfold isAuthorComment at isComment
  split at isComment
  · next body content => exact ⟨body, content⟩
  · cases isComment

theorem isNamed_stripComments
    (document : Document)
    (name : String)
    (id : Nat) :
    (stripComments document).isNamed name id = document.isNamed name id := by
  rw [Document.isNamed, Document.isNamed, Document.element?_eq, Document.element?_eq,
    stripComments, Document.content_foldl_detach]

/-- Removing comments leaves out leaves of the document. -/
theorem IsPage.dropsLeaves_stripComments (page : IsPage document) :
    Document.DropsLeaves (isKept document) document
      (stripComments document) := by
  have forest := page.rooted.forest
  refine ⟨fun id _ => forest.children_foldl_detach _ id, ?_⟩
  intro id dropped
  have member : id ∈ authorComments document := by simpa [isKept] using dropped
  obtain ⟨body, content⟩ := exists_comment_of_mem_authorComments member
  refine List.eq_nil_iff_forall_not_mem.mpr ?_
  intro child listed
  have holds := page.rooted.holds (forest.mem_children_iff.mp listed)
  rw [content] at holds
  cases holds

theorem IsPage.isWritable_stripComments (page : IsPage document) :
    IsWritable (stripComments document) := by
  refine ⟨page.rooted.forest.foldl_detach _, ?_, ?_, ?_⟩
  · rw [stripComments, Document.content_foldl_detach, page.rooted.content_root]
  · intro child parent below
    rw [stripComments, Document.content_foldl_detach]
    exact page.rooted.holds (Document.parent?_of_foldl_detach below)
  · intro id below
    rw [stripComments, Document.content_foldl_detach]
    exact page.plainly id (Document.parent?_of_foldl_detach below)

/-- Removing comments leaves the styles where they are. -/
theorem ShowsStyles.stripComments
    {css : String}
    {style : Nat}
    (shown : ShowsStyles css style document)
    (page : IsPage document) :
    ShowsStyles css style (Page.stripComments document) := by
  have drops := page.dropsLeaves_stripComments
  have kept_of {id : Nat} (notComment : ∀ body, document.content id ≠ .comment body) :
      isKept document id = true := by
    rw [isKept, Bool.not_eq_true', List.contains_eq_mem, decide_eq_false_iff_not]
    intro member
    obtain ⟨body, content⟩ := exists_comment_of_mem_authorComments member
    exact notComment body content
  have kept_of_isNamed {name : String} {id : Nat} (named : document.isNamed name id = true) :
      isKept document id = true := by
    obtain ⟨element, content, _⟩ := Document.isNamed_eq_true_iff.mp named
    exact kept_of fun body => by rw [content]; exact nofun
  have findFirst?_eq : (Page.stripComments document).findFirst? "head" =
      document.findFirst? "head" := by
    unfold Document.findFirst?
    congr 1
    refine drops.findAll_eq page.rooted.forest page.isWritable_stripComments.forest ?_
      (fun id _ => isNamed_stripComments document "head" id) ?_
    · refine kept_of fun body => ?_
      rw [page.rooted.content_root]
      exact nofun
    · intro id dropped
      cases named : document.isNamed "head" id with
      | false => rfl
      | true => rw [kept_of_isNamed named] at dropped; cases dropped
  refine ⟨?_, ?_⟩
  · obtain ⟨head, isHead, found⟩ := Option.bind_eq_some_iff.mp shown.first
    have headKept := kept_of_isNamed (Document.isNamed_of_findFirst? isHead)
    have sameNames := funext (isNamed_stripComments document "style")
    rw [firstStyle?, findFirst?_eq, isHead, Option.bind_some, drops.children_eq head headKept,
      sameNames, List.find?_filter, ← found]
    congr 1
    funext id
    cases named : document.isNamed "style" id with
    | false => simp
    | true => simp [kept_of_isNamed named]
  · obtain ⟨others, last, old, listed, content⟩ := shown.last
    have styleKept := kept_of_isNamed (isNamed_of_firstStyle? shown.first)
    have lastKept : isKept document last = true := kept_of fun body => by
      rw [content]
      exact nofun
    refine ⟨others.filter (isKept document), last, old, ?_, ?_⟩
    · rw [drops.children_eq style styleKept, listed, List.filter_append,
        List.filter_cons_of_pos lastKept, List.filter_nil]
    · rw [Page.stripComments, Document.content_foldl_detach, content]

end Comments

end Page
end MailPress
