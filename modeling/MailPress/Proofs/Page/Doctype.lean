import MailPress.Page.Doctype
import MailPress.Proofs.Markup.RoundTrip
import MailPress.Proofs.Text.Ascii
import MailPress.Proofs.Text.Blank

/-!
# Pages without a document type

A document that was read holds no document type declaration, since reading drops it. The
text of such a document does not start with one, so a finished page keeps all of that text
behind the declaration it is given.
-/

namespace MailPress
namespace Page

open Markup

/-- Whether the first markup of a text is a document type declaration. -/
def startsDoctype : List Char → Bool
  | [] => false
  | '<' :: '!' :: c :: _ => c == 'd' || c == 'D'
  | '<' :: _ => false
  | _ :: rest => startsDoctype rest

theorem startsDoctype_cons_of_ne
    {c : Char}
    (notAngle : c ≠ '<')
    (rest : List Char) :
    startsDoctype (c :: rest) = startsDoctype rest := by
  rw [startsDoctype]
  all_goals simp [notAngle]

theorem startsDoctype_append
    {text : List Char}
    (noAngle : '<' ∉ text)
    (rest : List Char) :
    startsDoctype (text ++ rest) = startsDoctype rest := by
  induction text with
  | nil => rfl
  | cons c text inductionHypothesis =>
      obtain ⟨different, noAngle⟩ := List.ne_and_not_mem_of_not_mem_cons noAngle
      rw [List.cons_append, startsDoctype_cons_of_ne (Ne.symm different),
        inductionHypothesis noAngle]

theorem startsDoctype_angle
    {c : Char}
    (notMark : c ≠ '!')
    (rest : List Char) :
    startsDoctype ('<' :: c :: rest) = false := by
  rw [startsDoctype]
  intro other tail same
  exact absurd (List.cons.inj same).1 notMark

/-- Whoever reads a declaration in any letter case reads one that starts the text. -/
theorem startsDoctype_of_lowercase
    {text rest : List Char}
    (opening : text.map Text.lowerChar = '<' :: '!' :: 'd' :: rest)
    (more : List Char) :
    startsDoctype (text ++ more) = true := by
  match text, opening with
  | [], opening => cases opening
  | [_], opening => simp at opening
  | [_, _], opening => simp at opening
  | a :: b :: c :: text, opening =>
      simp only [List.map_cons, List.cons.injEq] at opening
      obtain ⟨angle, mark, letter, _⟩ := opening
      obtain rfl := Text.eq_of_lowerChar_eq (by decide) angle
      obtain rfl := Text.eq_of_lowerChar_eq (by decide) mark
      rcases Text.eq_or_eq_of_lowerChar_eq letter with rfl | capital
      · rfl
      · obtain rfl : c = 'D' := by
          apply Char.ext
          apply UInt32.toNat_inj.mp
          exact Nat.add_right_cancel capital
        rfl

/-- A page that does not start with a declaration is left as it is. -/
theorem withoutDoctype_eq_self
    {page : List Char}
    (none : startsDoctype page = false) :
    withoutDoctype page = page := by
  unfold withoutDoctype
  dsimp only
  rw [if_neg]
  intro opening
  obtain ⟨lead, split, blanks⟩ := Text.exists_trimStart page
  have noAngle : '<' ∉ lead := by
    intro member
    exact absurd (blanks '<' member) (by decide)
  rw [split, startsDoctype_append noAngle, ← List.take_append_drop "<!doctype".toList.length
    (Text.trimStart page), startsDoctype_of_lowercase opening] at none
  cases none

/-! ## What stands below the root -/

/-- Whether a node of this content does not start a document type declaration. -/
def startsPlainly : Content → Prop
  | .root => False
  | .element element => element.name.toList.head?.any Text.isAsciiLetter = true
  | .text raw => '<' ∉ raw.toList
  | .comment _ => True
  | .verbatim raw => ∃ rest, raw.toList = '<' :: '?' :: rest ∨ raw.toList = '<' :: '!' :: '[' :: rest

/-- No tree below the root starts a document type declaration. -/
def RootStartsPlainly (document : Document) : Prop :=
  ∀ id, document.parent? id = some Document.root → startsPlainly (document.content id)

theorem startsDoctype_write
    {tree : Tree}
    {id : Nat}
    {content : Content}
    {children : List Tree}
    (tree_eq : tree = .node id content children)
    (plainly : startsPlainly content)
    {rest : List Char}
    (restPlain : startsDoctype rest = false) :
    startsDoctype (tree.write.toList ++ rest) = false := by
  subst tree_eq
  cases content with
  | root => exact plainly.elim
  | text raw => rw [Tree.write, startsDoctype_append plainly, restPlain]
  | comment body =>
      rw [toList_write_comment]
      rfl
  | verbatim raw =>
      obtain ⟨tail, starts | starts⟩ := plainly
      · rw [Tree.write, starts]
        rfl
      · rw [Tree.write, starts]
        rfl
  | element element =>
      rw [toList_write_element, Element.tagText]
      cases name : element.name.toList with
      | nil => simp [startsPlainly, name] at plainly
      | cons c tail =>
          have letter : Text.isAsciiLetter c = true := by
            simpa [startsPlainly, name] using plainly
          apply startsDoctype_angle
          rintro rfl
          cases letter

/-- The text of a document whose trees start plainly does not start with a declaration. -/
theorem startsDoctype_write_document
    {document : Document}
    (forest : document.IsForest)
    (content_root : document.content Document.root = .root)
    (plainly : RootStartsPlainly document) :
    startsDoctype document.write.toList = false := by
  have childrenPlain : ∀ child ∈ document.children Document.root,
      startsPlainly (document.content child) :=
    fun child listed => plainly child (forest.mem_children_iff.mp listed)
  rw [Document.write, forest.tree_eq, content_root, Tree.write]
  generalize document.children Document.root = children at childrenPlain
  induction children with
  | nil => rfl
  | cons child children inductionHypothesis =>
      obtain ⟨here, rest⟩ := List.forall_mem_cons.mp childrenPlain
      rw [List.map_cons, toList_writeTrees_cons]
      exact startsDoctype_write (forest.tree_eq child) here (inductionHypothesis rest)

namespace RootStartsPlainly

variable {document : Document}

theorem attach
    (plainly : RootStartsPlainly document)
    {parent : Nat}
    (inside : parent < document.size)
    {content : Content}
    (new : parent = Document.root → startsPlainly content)
    (place : List Nat → List Nat) :
    RootStartsPlainly (document.attach parent content place) := by
  intro id below
  rw [Document.parent?_attach inside] at below
  rw [Document.content_attach inside]
  split at below
  · rw [if_pos ‹_›]
    exact new (Option.some.inj below)
  · rw [if_neg ‹_›]
    exact plainly id below

theorem appendText
    (plainly : RootStartsPlainly document)
    (forest : document.IsForest)
    {parent : Nat}
    (inside : parent < document.size)
    {raw : String}
    (new : parent = Document.root → '<' ∉ raw.toList) :
    RootStartsPlainly (document.appendText parent raw) := by
  rcases document.appendText_cases parent raw with ⟨last, before, listed, content, eq⟩ | ⟨_, eq⟩
  · rw [eq]
    have member := List.mem_of_getLast? listed
    have lastInside := (forest.lt_of_mem_children member).2
    intro id below
    rw [Document.parent?_setContent] at below
    rw [Document.content_setContent lastInside]
    split
    · next same =>
        subst same
        have parentRoot := forest.mem_children_iff.mp member
        rw [below] at parentRoot
        have beforePlain := plainly _ below
        rw [content] at beforePlain
        have rawPlain := new (Option.some.inj parentRoot).symm
        simp only [startsPlainly, String.toList_append, List.mem_append, not_or]
        exact ⟨beforePlain, rawPlain⟩
    · exact plainly id below
  · rw [eq, Document.appendChild_eq_attach]
    have newPlain : parent = Document.root → startsPlainly (.text raw) := new
    exact plainly.attach inside newPlain _

end RootStartsPlainly

/-! ## Documents that were read -/

/-- An event whose node below the root would start plainly. -/
def EventStartsPlainly : Event → Prop
  | .start element => startsPlainly (.element element)
  | .empty element => startsPlainly (.element element)
  | .text raw => '<' ∉ raw.toList
  | .reference name => '<' ∉ name.toList
  | _ => True

theorem isAsciiLetter_lowerChar
    {c : Char}
    (letter : Text.isAsciiLetter c = true) :
    Text.isAsciiLetter (Text.lowerChar c) = true := by
  by_cases capital : 65 ≤ c.toNat ∧ c.toNat ≤ 90
  · have moved := Text.toNat_lowerChar_of_upper capital.1 capital.2
    have small : 97 ≤ (Text.lowerChar c).toNat ∧ (Text.lowerChar c).toNat ≤ 122 := by omega
    simp only [Text.isAsciiLetter, Bool.or_eq_true, Bool.and_eq_true, decide_eq_true_eq,
      Char.le_def, UInt32.le_iff_toNat_le]
    exact .inl small
  · rw [Text.lowerChar_eq_self capital]
    exact letter

/-- The element of a tag that starts with a letter has a name that does. -/
theorem startsPlainly_readElement
    {c : Char}
    (letter : Text.isAsciiLetter c = true)
    (selfClosing : Bool)
    (rest : List Char) :
    startsPlainly (.element (readElement selfClosing (c :: rest))) := by
  have notSpace : isTagSpace c = false := by
    rw [← Bool.not_eq_true]
    intro space
    simp only [isTagSpace, Bool.or_eq_true, beq_iff_eq] at space
    rcases space with ((rfl | rfl) | rfl) | rfl <;> cases letter
  have name : (readElement selfClosing (c :: rest)).name.toList =
      Text.lowerChar c :: (rest.takeWhile (!isTagSpace ·)).map Text.lowerChar := by
    simp [readElement, lowerName, Text.lower, tagName, notSpace]
  rw [startsPlainly, name]
  exact isAsciiLetter_lowerChar letter

theorem eventStartsPlainly_tagToken
    {c : Char}
    (opens : opensMarkup c = true)
    (notDeclaration : c ≠ '!')
    (notInstruction : c ≠ '?')
    (rest : List Char) :
    EventStartsPlainly (Event.ofToken (tagToken (c :: rest))) := by
  by_cases slash : c = '/'
  · subst slash
    trivial
  · have letter : Text.isAsciiLetter c = true := by
      simpa [opensMarkup, notDeclaration, notInstruction, slash] using opens
    unfold tagToken
    split
    · next same => exact absurd (List.cons.inj same).1 slash
    · split
      · next front reversed =>
          have content_eq : c :: rest = front.reverse ++ ['/'] := by
            rw [← List.reverse_reverse (c :: rest), reversed, List.reverse_cons]
          cases front_eq : front.reverse with
          | nil =>
              rw [front_eq] at content_eq
              exact absurd (List.cons.inj content_eq).1 slash
          | cons d tail =>
              rw [front_eq] at content_eq
              obtain rfl := (List.cons.inj content_eq).1
              exact startsPlainly_readElement letter true tail
      · exact startsPlainly_readElement letter false rest

/-- In a prepared source, what is read starts plainly. -/
theorem eventStartsPlainly_ofToken
    {source rest : List Char}
    {token : Token}
    (reads : Reads source token rest)
    (prepared : IsPrepared source) :
    EventStartsPlainly (Event.ofToken token) := by
  cases reads with
  | comment | cdata | doctype => trivial
  | instruction => split <;> trivial
  | @tag text content _ notDeclaration notInstruction taken =>
      have opens := prepared.opens.1 rfl
      have text_eq := eq_append_of_takeTag taken
      cases content with
      | nil =>
          rw [text_eq] at opens
          cases opens
      | cons c content =>
          rw [text_eq] at opens notDeclaration notInstruction
          exact eventStartsPlainly_tagToken opens (by simpa using notDeclaration)
            (by simpa using notInstruction) content
  | @reference text name _ found =>
      obtain ⟨front, tail, rfl, chars⟩ := exists_of_hasReferenceForm (prepared.refers.1 rfl)
      have fresh := not_mem_of_isReferenceChar (c := ';') rfl chars
      rw [Text.splitOnce_append_cons fresh] at found
      cases found
      have noAngle := not_mem_of_isReferenceChar (c := '<') rfl chars
      simpa [Event.ofToken, EventStartsPlainly] using noAngle
  | ampersand =>
      show '<' ∉ (String.ofList ['&']).toList
      decide
  | @text c text plain =>
      have plainAll : ∀ d ∈ c :: text.takeWhile isPlain, isPlain d = true :=
        List.forall_mem_cons.mpr ⟨plain, List.all_eq_true.mp List.all_takeWhile⟩
      show '<' ∉ (String.ofList (c :: text.takeWhile isPlain)).toList
      rw [String.toList_ofList]
      intro member
      exact absurd (plainAll '<' member) (by decide)

open Building in
theorem RootStartsPlainly.take
    {building : Building}
    (plainly : RootStartsPlainly building.document)
    (sound : building.IsSound)
    {event : Event}
    (plain : building.top = Document.root → EventStartsPlainly event) :
    RootStartsPlainly (building.take event).document := by
  have inside := sound.top_lt_size
  have forest := sound.rooted.forest
  have added {content : Content} (new : building.top = Document.root → startsPlainly content) :
      RootStartsPlainly (building.add content).document := by
    rw [Building.add, Document.appendChild_eq_attach]
    exact plainly.attach inside new _
  cases event with
  | start element =>
      unfold Building.take
      dsimp only
      split
      · exact added plain
      · exact added plain
  | empty element => exact added plain
  | finish name =>
      rw [Building.take, finish_document]
      exact plainly
  | text raw => exact plainly.appendText forest inside plain
  | reference name =>
      refine plainly.appendText forest inside ?_
      intro top
      have noAngle : '<' ∉ name.toList := plain top
      simpa using noAngle
  | comment body => exact added fun _ => trivial
  | cdata body =>
      refine added fun _ => ⟨"CDATA[".toList ++ body.toList ++ "]]>".toList, .inr ?_⟩
      simp
  | instruction body =>
      refine added fun _ => ⟨body.toList ++ "?>".toList, .inl ?_⟩
      simp
  | declaration => exact plainly

open Building in
/-- Reading a prepared source starts plainly below the root. The body of a raw text element
may hold anything, but stands below its element. -/
theorem RootStartsPlainly.foldl
    {source : List Char}
    {events : List Event}
    (reads : ReadsAs source events)
    (prepared : IsPrepared source)
    {building : Building}
    (sound : building.IsSound)
    (plainly : RootStartsPlainly building.document) :
    RootStartsPlainly (events.foldl Building.take building).document := by
  induction reads generalizing building with
  | done => exact plainly
  | token reads _ _ inductionHypothesis =>
      exact inductionHypothesis (prepared.of_suffix reads.suffix) (sound.take _)
        (plainly.take sound fun _ => eventStartsPlainly_ofToken reads prepared)
  | @body source content body finish after events reads raw ends restReads inductionHypothesis =>
      have afterPrepared : IsPrepared after :=
        prepared.of_suffix ((ends.suffix.2.trans ends.suffix.1).trans reads.suffix)
      obtain ⟨_, ⟨⟩, isRaw⟩ := startsRawText_eq_true_iff.mp raw
      have startPlain : EventStartsPlainly (.start (readElement false content)) :=
        eventStartsPlainly_ofToken reads prepared
      have startedSound := sound.take (.start (readElement false content))
      have startedPlainly := plainly.take sound fun _ => startPlain
      have startedTop : (building.take (.start (readElement false content))).top ≠
          Document.root := by
        rw [building.take_start (isVoid_of_mem_rawTextNames isRaw)]
        exact Nat.ne_of_gt sound.rooted.forest.nonempty
      rw [List.foldl_cons, List.foldl_append, List.foldl_cons]
      generalize building.take (.start (readElement false content)) = started at *
      have bodyPlainly : ((bodyEvents body).foldl Building.take started).IsSound ∧
          RootStartsPlainly ((bodyEvents body).foldl Building.take started).document := by
        unfold bodyEvents
        split
        · exact ⟨startedSound, startedPlainly⟩
        · rw [List.foldl_cons, List.foldl_nil]
          exact ⟨startedSound.take _,
            startedPlainly.take startedSound fun top => absurd top startedTop⟩
      exact inductionHypothesis afterPrepared (bodyPlainly.1.take _)
        (bodyPlainly.2.take bodyPlainly.1 fun _ => trivial)

theorem rootStartsPlainly_read
    {source : String}
    {document : Document}
    (read : Document.read source = .ok document) :
    RootStartsPlainly document := by
  obtain ⟨events, reads, rfl⟩ := read_eq_ok_iff.mp read
  refine RootStartsPlainly.foldl reads (isPrepared_withoutMark _) .start ?_
  intro id below
  have inside := Document.lt_size_of_parent? below
  obtain rfl := Nat.lt_one_iff.mp inside
  cases below

end Page
end MailPress
