import MailPress.Markup.Token
import MailPress.Proofs.Markup.Prepared

/-!
# Tokens with more behind them

A token of a prepared source is read in the same way when more source follows, if that
starts with an angle bracket. Nothing that was read reaches into what follows, because a
token that could would have failed for want of its end.
-/

namespace MailPress
namespace Markup

/-- The token that a step reads, with what it leaves. -/
def Step.read? {length : Nat} : Step length → Option (Token × List Char)
  | .token found rest _ => some (found, rest)
  | .done => none
  | .failed _ _ => none

/-- Source that does not go on with what was read last. -/
def StartsApart (source : List Char) : Prop :=
  source = [] ∨ source.head? = some '<'

theorem takeTag_append
    {quote : Option Char}
    {text content rest : List Char}
    (taken : takeTag quote text = some (content, rest))
    (more : List Char) :
    takeTag quote (text ++ more) = some (content, rest ++ more) := by
  fun_induction takeTag quote text generalizing content rest with
  | case1 => cases taken
  | case2 rest => simp_all [takeTag]
  | case3 c text notEnd inductionHypothesis =>
      obtain ⟨⟨inner, left⟩, found, same⟩ := Option.map_eq_some_iff.mp taken
      obtain ⟨rfl, rfl⟩ := Prod.mk.inj same
      simp [takeTag, notEnd, inductionHypothesis found]
  | case4 quote c text inductionHypothesis =>
      obtain ⟨⟨inner, left⟩, found, same⟩ := Option.map_eq_some_iff.mp taken
      obtain ⟨rfl, rfl⟩ := Prod.mk.inj same
      simp [takeTag, inductionHypothesis found]

/-- A tag is closed by an angle bracket. -/
theorem eq_append_of_takeTag
    {quote : Option Char}
    {text content rest : List Char}
    (taken : takeTag quote text = some (content, rest)) :
    text = content ++ '>' :: rest := by
  fun_induction takeTag quote text generalizing content rest with
  | case1 => cases taken
  | case2 rest => simp_all
  | case3 c text notEnd inductionHypothesis =>
      obtain ⟨⟨inner, left⟩, found, same⟩ := Option.map_eq_some_iff.mp taken
      obtain ⟨rfl, rfl⟩ := Prod.mk.inj same
      rw [inductionHypothesis found, List.cons_append]
  | case4 quote c text inductionHypothesis =>
      obtain ⟨⟨inner, left⟩, found, same⟩ := Option.map_eq_some_iff.mp taken
      obtain ⟨rfl, rfl⟩ := Prod.mk.inj same
      rw [inductionHypothesis found, List.cons_append]

/-- The fewest characters that can close a document type declaration. -/
def DoctypeState.closingLength : DoctypeState → Nat
  | .outside _ => 1
  | .inside => 2
  | .declared _ => 3
  | .comment => 5
  | .instruction => 4
  | .after => 1

theorem closingLength_le_of_takeDoctype
    {state : DoctypeState}
    {text content rest : List Char}
    (taken : takeDoctype state text = some (content, rest)) :
    state.closingLength ≤ text.length := by
  fun_induction takeDoctype state text generalizing content rest with
  | case1 => cases taken
  | case2 | case16 => simp [DoctypeState.closingLength]
  | _ =>
      obtain ⟨⟨inner, left⟩, found, _⟩ := Option.map_eq_some_iff.mp taken
      simp_all only [DoctypeState.closingLength, List.length_cons]
      grind [DoctypeState.closingLength]

/-- A text that is put together in front of what is left does not depend on what is left. -/
theorem map_append_of_map_eq_some
    {first second : Option (List Char × List Char)}
    {collect : List Char × List Char → List Char × List Char}
    {content rest more : List Char}
    (keeps : ∀ found : List Char × List Char,
      collect (found.1, found.2 ++ more) = ((collect found).1, (collect found).2 ++ more))
    (taken : first.map collect = some (content, rest))
    (longer : ∀ {content rest}, first = some (content, rest) →
      second = some (content, rest ++ more)) :
    second.map collect = some (content, rest ++ more) := by
  obtain ⟨⟨inner, left⟩, found, same⟩ := Option.map_eq_some_iff.mp taken
  rw [longer found, Option.map_some, keeps (inner, left), same]

theorem exists_of_append_eq_append
    (pattern : List Char)
    {text more left : List Char}
    (same : text ++ more = pattern ++ left)
    (long : pattern.length ≤ text.length) :
    ∃ tail, text = pattern ++ tail := by
  obtain ⟨tail, whole⟩ := List.prefix_of_prefix_length_le ⟨left, same.symm⟩ ⟨more, rfl⟩ long
  exact ⟨tail, whole.symm⟩

theorem takeDoctype_append
    {state : DoctypeState}
    {text content rest : List Char}
    (taken : takeDoctype state text = some (content, rest))
    (more : List Char) :
    takeDoctype state (text ++ more) = some (content, rest ++ more) := by
  -- A declaration that is taken to its end is long enough to tell its parts apart.
  have long {state : DoctypeState} {text : List Char}
      {collect : List Char × List Char → List Char × List Char} {content rest : List Char}
      (taken : (takeDoctype state text).map collect = some (content, rest)) :
      state.closingLength ≤ text.length := by
    obtain ⟨⟨inner, left⟩, found, _⟩ := Option.map_eq_some_iff.mp taken
    exact closingLength_le_of_takeDoctype found
  fun_induction takeDoctype state text generalizing content rest with
  | case1 => cases taken
  | case2 rest => simp_all [takeDoctype]
  | case3 rest inductionHypothesis =>
      exact map_append_of_map_eq_some (fun _ => rfl) taken inductionHypothesis
  | case4 quote c text notEnd notOpening inductionHypothesis =>
      rw [List.cons_append, takeDoctype]
      · exact map_append_of_map_eq_some (fun _ => rfl) taken inductionHypothesis
      · simpa using notEnd
      · simpa using notOpening
  | case5 text inductionHypothesis =>
      exact map_append_of_map_eq_some (fun _ => rfl) taken inductionHypothesis
  | case6 text inductionHypothesis =>
      exact map_append_of_map_eq_some (fun _ => rfl) taken inductionHypothesis
  | case7 text inductionHypothesis =>
      exact map_append_of_map_eq_some (fun _ => rfl) taken inductionHypothesis
  | case8 text notComment notInstruction inductionHypothesis =>
      have enough := long taken
      rw [List.cons_append, takeDoctype]
      · exact map_append_of_map_eq_some (fun _ => rfl) taken inductionHypothesis
      · intro left same
        obtain ⟨tail, rfl⟩ := exists_of_append_eq_append ['!', '-', '-'] same enough
        exact notComment tail rfl
      · intro left same
        obtain ⟨tail, rfl⟩ := exists_of_append_eq_append ['?'] same
          (Nat.le_trans (by decide) enough)
        exact notInstruction tail rfl
  | case9 c text notClosing _ _ notOpening inductionHypothesis =>
      rw [List.cons_append, takeDoctype]
      · exact map_append_of_map_eq_some (fun _ => rfl) taken inductionHypothesis
      all_goals simp_all
  | case10 text inductionHypothesis =>
      exact map_append_of_map_eq_some (fun _ => rfl) taken inductionHypothesis
  | case11 quote c text notEnd inductionHypothesis =>
      rw [List.cons_append, takeDoctype]
      · exact map_append_of_map_eq_some (fun _ => rfl) taken inductionHypothesis
      · simpa using notEnd
  | case12 text inductionHypothesis =>
      exact map_append_of_map_eq_some (fun _ => rfl) taken inductionHypothesis
  | case13 c text notEnd inductionHypothesis =>
      have enough := long taken
      rw [List.cons_append, takeDoctype]
      · exact map_append_of_map_eq_some (fun _ => rfl) taken inductionHypothesis
      · intro left dash same
        obtain ⟨tail, rfl⟩ := exists_of_append_eq_append ['-', '>'] same
          (Nat.le_trans (by decide) enough)
        exact notEnd tail dash rfl
  | case14 text inductionHypothesis =>
      exact map_append_of_map_eq_some (fun _ => rfl) taken inductionHypothesis
  | case15 c text notEnd inductionHypothesis =>
      have enough := long taken
      rw [List.cons_append, takeDoctype]
      · exact map_append_of_map_eq_some (fun _ => rfl) taken inductionHypothesis
      · intro left mark same
        obtain ⟨tail, rfl⟩ := exists_of_append_eq_append ['>'] same
          (Nat.le_trans (by decide) enough)
        exact notEnd tail mark rfl
  | case16 text => simp_all [takeDoctype]
  | case17 c text notEnd inductionHypothesis =>
      rw [List.cons_append, takeDoctype]
      · exact map_append_of_map_eq_some (fun _ => rfl) taken inductionHypothesis
      · simpa using notEnd

/-- A declaration is closed by an angle bracket. -/
theorem eq_append_of_takeDoctype
    {state : DoctypeState}
    {text content rest : List Char}
    (taken : takeDoctype state text = some (content, rest)) :
    text = content ++ '>' :: rest := by
  fun_induction takeDoctype state text generalizing content rest with
  | case1 => cases taken
  | case2 text | case16 text =>
      obtain ⟨rfl, rfl⟩ := Prod.mk.inj (Option.some.inj taken)
      rfl
  | _ =>
      obtain ⟨⟨inner, left⟩, found, same⟩ := Option.map_eq_some_iff.mp taken
      obtain ⟨rfl, rfl⟩ := Prod.mk.inj same
      simp_all [takeDoctype.more]

/-! ## Declarations and instructions -/

theorem read?_readDeclaration_comment (source rest : List Char) :
    (readDeclaration source ('-' :: '-' :: rest)).read? =
      (Text.splitOnce ['-', '-', '>'] rest).map fun found => (.comment found.1, found.2) := by
  simp only [readDeclaration]
  split
  · next found => simp [found, Step.read?]
  · next found => simp [found, Step.read?]

theorem read?_readDeclaration_cdata (source rest : List Char) :
    (readDeclaration source ('[' :: 'C' :: 'D' :: 'A' :: 'T' :: 'A' :: '[' :: rest)).read? =
      (Text.splitOnce [']', ']', '>'] rest).map fun found => (.cdata found.1, found.2) := by
  simp only [readDeclaration]
  split
  · next found => simp [found, Step.read?]
  · next found => simp [found, Step.read?]

/-- Whether the text of a declaration is that of a document type. -/
def isDoctype (content : List Char) : Bool :=
  lowerName (content.take 7) = "doctype" && !(content.drop 7).all isTagSpace

theorem read?_readDeclaration_doctype
    {c : Char}
    (named : c = 'D' ∨ c = 'd')
    (source rest : List Char) :
    (readDeclaration source (c :: rest)).read? =
      ((takeDoctype (.outside none) (c :: rest)).filter fun found => isDoctype found.1).map
        fun found => (.declaration found.1, found.2) := by
  have notDash : c ≠ '-' := by rcases named with rfl | rfl <;> decide
  have notBracket : c ≠ '[' := by rcases named with rfl | rfl <;> decide
  rw [readDeclaration]
  · rw [if_pos named]
    split
    · next found => simp [found, Step.read?]
    · next content after found =>
        split
        · split <;> simp_all [Step.read?, isDoctype, Option.filter]
        · simp_all [Step.read?, isDoctype, Option.filter]
  all_goals simp_all

/-- What a declaration can be: a comment, character data or a document type. -/
theorem exists_of_read?_readDeclaration
    {source text rest : List Char}
    {token : Token}
    (read : (readDeclaration source text).read? = some (token, rest)) :
    (∃ tail, text = '-' :: '-' :: tail) ∨
      (∃ tail, text = '[' :: 'C' :: 'D' :: 'A' :: 'T' :: 'A' :: '[' :: tail) ∨
      ∃ c tail, text = c :: tail ∧ (c = 'D' ∨ c = 'd') := by
  fun_cases readDeclaration source text with
  | case1 tail | case2 tail => exact .inl ⟨tail, rfl⟩
  | case4 tail | case5 tail => exact .inr (.inl ⟨tail, rfl⟩)
  | case7 c tail _ _ _ _ named
  | case8 c tail _ _ _ _ named
  | case9 c tail _ _ _ _ named
  | case10 c tail _ _ _ _ named => exact .inr (.inr ⟨c, tail, rfl, named⟩)
  | case3 tail notComment =>
      simp [readDeclaration, Step.read?] at read
  | case6 tail notCdata =>
      simp [readDeclaration, Step.read?] at read
  | case11 c tail notComment notDash notCdata notBracket unnamed =>
      rw [readDeclaration] at read
      · rw [if_neg unnamed] at read
        cases read
      all_goals assumption
  | case12 => cases read

/-- An XML declaration is an instruction whose name ends behind these letters. -/
theorem isXmlDeclaration_eq (body : List Char) :
    isXmlDeclaration body =
      (Text.dropStart? ['x', 'm', 'l'] body).any (·.head?.all isTagSpace) := by
  fun_cases isXmlDeclaration body with
  | case1 => rfl
  | case2 c rest => simp [Text.dropStart?]
  | case3 body notAlone notSpaced =>
      cases dropped : Text.dropStart? ['x', 'm', 'l'] body with
      | none => rfl
      | some rest =>
          have whole := Text.eq_append_of_dropStart? dropped
          cases rest with
          | nil => exact absurd whole notAlone
          | cons c rest => exact absurd whole (notSpaced c rest)

theorem read?_readInstruction (source text : List Char) :
    (readInstruction source text).read? =
      if text.head? = some '>' then none
      else
        (Text.splitOnce ['?', '>'] text).map fun found =>
          (if isXmlDeclaration found.1 then .declaration found.1 else .instruction found.1,
            found.2) := by
  unfold readInstruction
  split
  · rfl
  · split
    · next found => simp [found, Step.read?]
    · next found => simp [found, Step.read?]

/-! ## Tokens -/

theorem readDeclaration_ne_done (source text : List Char) :
    readDeclaration source text ≠ .done := by
  unfold readDeclaration
  grind

theorem readInstruction_ne_done (source text : List Char) :
    readInstruction source text ≠ .done := by
  unfold readInstruction
  grind

/-- Reading is done only at the end of a source. -/
theorem readToken_cons_ne_done (c : Char) (text : List Char) :
    readToken (c :: text) ≠ .done := by
  have declaration := readDeclaration_ne_done
  have instruction := readInstruction_ne_done
  unfold readToken
  grind

theorem read?_readToken_declaration (text : List Char) :
    (readToken ('<' :: '!' :: text)).read? =
      (readDeclaration ('<' :: '!' :: text) text).read? := by
  rw [readToken]
  split <;> simp_all [Step.read?]

theorem read?_readToken_instruction (text : List Char) :
    (readToken ('<' :: '?' :: text)).read? =
      (readInstruction ('<' :: '?' :: text) text).read? := by
  rw [readToken]
  split <;> simp_all [Step.read?]

theorem read?_readToken_tag
    {text : List Char}
    (notDeclaration : text.head? ≠ some '!')
    (notInstruction : text.head? ≠ some '?') :
    (readToken ('<' :: text)).read? =
      (takeTag none text).map fun found => (tagToken found.1, found.2) := by
  rw [readToken]
  · split
    · next found => simp [found, Step.read?]
    · next found => simp [found, Step.read?]
  all_goals
    rintro tail rfl
    simp_all

theorem read?_readToken_ampersand (text : List Char) :
    (readToken ('&' :: text)).read? =
      some (((Text.splitOnce [';'] text).map fun found => (.reference found.1, found.2)).getD
        (.text ['&'], text)) := by
  rw [readToken]
  split
  · next found => simp [found, Step.read?]
  · next found => simp [found, Step.read?]

theorem read?_readToken_text
    {c : Char}
    (plain : isPlain c = true)
    (text : List Char) :
    (readToken (c :: text)).read? =
      some (.text (c :: text.takeWhile isPlain), text.dropWhile isPlain) := by
  rw [readToken]
  · rfl
  all_goals simp_all [isPlain]

/-- A token is read at the start of a source, and this is left behind it. -/
inductive Reads : (source : List Char) → (token : Token) → (rest : List Char) → Prop
  | comment
      {text body rest : List Char}
      (found : Text.splitOnce ['-', '-', '>'] text = some (body, rest)) :
      Reads ('<' :: '!' :: '-' :: '-' :: text) (.comment body) rest
  | cdata
      {text body rest : List Char}
      (found : Text.splitOnce [']', ']', '>'] text = some (body, rest)) :
      Reads ('<' :: '!' :: '[' :: 'C' :: 'D' :: 'A' :: 'T' :: 'A' :: '[' :: text)
        (.cdata body) rest
  | doctype
      {c : Char}
      {text content rest : List Char}
      (named : c = 'D' ∨ c = 'd')
      (taken : takeDoctype (.outside none) (c :: text) = some (content, rest))
      (wellNamed : isDoctype content = true) :
      Reads ('<' :: '!' :: c :: text) (.declaration content) rest
  | instruction
      {text body rest : List Char}
      (begun : text.head? ≠ some '>')
      (found : Text.splitOnce ['?', '>'] text = some (body, rest)) :
      Reads ('<' :: '?' :: text)
        (if isXmlDeclaration body then .declaration body else .instruction body) rest
  | tag
      {text content rest : List Char}
      (notDeclaration : text.head? ≠ some '!')
      (notInstruction : text.head? ≠ some '?')
      (taken : takeTag none text = some (content, rest)) :
      Reads ('<' :: text) (tagToken content) rest
  | reference
      {text name rest : List Char}
      (found : Text.splitOnce [';'] text = some (name, rest)) :
      Reads ('&' :: text) (.reference name) rest
  | ampersand
      {text : List Char}
      (bare : Text.splitOnce [';'] text = none) :
      Reads ('&' :: text) (.text ['&']) text
  | text
      {c : Char}
      {text : List Char}
      (plain : isPlain c = true) :
      Reads (c :: text) (.text (c :: text.takeWhile isPlain)) (text.dropWhile isPlain)

theorem Reads.of_declaration
    {source text rest : List Char}
    {token : Token}
    (read : (readDeclaration source text).read? = some (token, rest)) :
    Reads ('<' :: '!' :: text) token rest := by
  rcases exists_of_read?_readDeclaration read with
    ⟨tail, rfl⟩ | ⟨tail, rfl⟩ | ⟨c, tail, rfl, named⟩
  · rw [read?_readDeclaration_comment] at read
    obtain ⟨_, found, same⟩ := Option.map_eq_some_iff.mp read
    obtain ⟨rfl, rfl⟩ := Prod.mk.inj same
    exact .comment found
  · rw [read?_readDeclaration_cdata] at read
    obtain ⟨_, found, same⟩ := Option.map_eq_some_iff.mp read
    obtain ⟨rfl, rfl⟩ := Prod.mk.inj same
    exact .cdata found
  · rw [read?_readDeclaration_doctype named] at read
    obtain ⟨_, kept, same⟩ := Option.map_eq_some_iff.mp read
    obtain ⟨taken, wellNamed⟩ := Option.filter_eq_some_iff.mp kept
    obtain ⟨rfl, rfl⟩ := Prod.mk.inj same
    exact .doctype named taken wellNamed

theorem Reads.of_instruction
    {source text rest : List Char}
    {token : Token}
    (read : (readInstruction source text).read? = some (token, rest)) :
    Reads ('<' :: '?' :: text) token rest := by
  rw [read?_readInstruction] at read
  split at read
  · cases read
  · next begun =>
      obtain ⟨_, found, same⟩ := Option.map_eq_some_iff.mp read
      obtain ⟨rfl, rfl⟩ := Prod.mk.inj same
      exact .instruction begun found

theorem Reads.of_read?
    {source rest : List Char}
    {token : Token}
    (read : (readToken source).read? = some (token, rest)) :
    Reads source token rest := by
  cases source with
  | nil =>
      rw [readToken] at read
      cases read
  | cons c text =>
      by_cases angle : c = '<'
      · subst angle
        by_cases declaration : text.head? = some '!'
        · obtain ⟨tail, rfl⟩ := List.head?_eq_some_iff.mp declaration
          rw [read?_readToken_declaration] at read
          exact .of_declaration read
        · by_cases instruction : text.head? = some '?'
          · obtain ⟨tail, rfl⟩ := List.head?_eq_some_iff.mp instruction
            rw [read?_readToken_instruction] at read
            exact .of_instruction read
          · rw [read?_readToken_tag declaration instruction] at read
            obtain ⟨_, taken, same⟩ := Option.map_eq_some_iff.mp read
            obtain ⟨rfl, rfl⟩ := Prod.mk.inj same
            exact .tag declaration instruction taken
      · by_cases ampersand : c = '&'
        · subst ampersand
          rw [read?_readToken_ampersand] at read
          cases found : Text.splitOnce [';'] text with
          | none =>
              rw [found] at read
              cases read
              exact .ampersand found
          | some parts =>
              rw [found] at read
              cases read
              exact .reference found
        · have plain : isPlain c = true := by simp [isPlain, angle, ampersand]
          rw [read?_readToken_text plain] at read
          cases read
          exact .text plain

theorem Reads.read?_eq
    {source rest : List Char}
    {token : Token}
    (reads : Reads source token rest) :
    (readToken source).read? = some (token, rest) := by
  cases reads with
  | comment found =>
      rw [read?_readToken_declaration, read?_readDeclaration_comment, found]
      rfl
  | cdata found =>
      rw [read?_readToken_declaration, read?_readDeclaration_cdata, found]
      rfl
  | doctype named taken wellNamed =>
      rw [read?_readToken_declaration, read?_readDeclaration_doctype named, taken]
      simp [Option.filter, wellNamed]
  | instruction begun found =>
      rw [read?_readToken_instruction, read?_readInstruction, if_neg begun, found]
      rfl
  | tag notDeclaration notInstruction taken =>
      rw [read?_readToken_tag notDeclaration notInstruction, taken]
      rfl
  | reference found =>
      rw [read?_readToken_ampersand, found]
      rfl
  | ampersand bare =>
      rw [read?_readToken_ampersand, bare]
      rfl
  | text plain => exact read?_readToken_text plain _

/-- The reader takes exactly the steps of the relation. -/
theorem readToken_eq_token_iff
    {source rest : List Char}
    {token : Token} :
    (∃ shorter, readToken source = .token token rest shorter) ↔ Reads source token rest := by
  constructor
  · rintro ⟨shorter, step⟩
    apply Reads.of_read?
    rw [step]
    rfl
  · intro reads
    have read := reads.read?_eq
    cases step : readToken source with
    | token found left shorter =>
        rw [step] at read
        obtain ⟨rfl, rfl⟩ := Prod.mk.inj (Option.some.inj read)
        exact ⟨shorter, rfl⟩
    | done | failed =>
        rw [step] at read
        cases read

theorem head?_append_ne
    {c : Char}
    {text : List Char}
    (different : text.head? ≠ some c)
    (nonempty : text ≠ [])
    (more : List Char) :
    (text ++ more).head? ≠ some c := by
  cases text with
  | nil => exact absurd rfl nonempty
  | cons d text => exact different

theorem StartsApart.dropWhile_isPlain
    {more : List Char}
    (apart : StartsApart more) :
    more.dropWhile isPlain = more := by
  rcases apart with rfl | angle
  · rfl
  · obtain ⟨tail, rfl⟩ := List.head?_eq_some_iff.mp angle
    rfl

/-- A stretch of plain characters ends where markup starts. -/
theorem span_isPlain_append
    {more : List Char}
    (apart : StartsApart more)
    (text : List Char) :
    (text ++ more).takeWhile isPlain = text.takeWhile isPlain ∧
      (text ++ more).dropWhile isPlain = text.dropWhile isPlain ++ more := by
  induction text with
  | nil =>
      have dropped := apart.dropWhile_isPlain
      have whole := List.takeWhile_append_dropWhile (p := isPlain) (l := more)
      rw [dropped] at whole
      exact ⟨by simpa using whole, dropped⟩
  | cons c text inductionHypothesis =>
      cases plain : isPlain c with
      | true => simpa [plain] using inductionHypothesis
      | false => simp [plain]

namespace Reads

/-- What is left of a source is an end of it. -/
theorem suffix
    {source rest : List Char}
    {token : Token}
    (reads : Reads source token rest) :
    rest <:+ source := by
  cases reads with
  | comment found | cdata found | instruction _ found | reference found =>
      rw [Text.eq_append_of_splitOnce found]
      simp only [← List.cons_append, ← List.append_assoc]
      exact List.suffix_append _ _
  | @doctype c text content _ _ taken _ =>
      rw [eq_append_of_takeDoctype taken]
      exact ⟨'<' :: '!' :: content ++ ['>'], by simp⟩
  | @tag text content _ _ _ taken =>
      rw [eq_append_of_takeTag taken]
      exact ⟨'<' :: content ++ ['>'], by simp⟩
  | ampersand => exact List.suffix_cons ..
  | text plain => exact (List.dropWhile_suffix isPlain).trans (List.suffix_cons ..)

theorem length_lt
    {source rest : List Char}
    {token : Token}
    (reads : Reads source token rest) :
    rest.length < source.length :=
  (readToken_eq_token_iff.mpr reads).choose

/-- A token of a prepared source is read in the same way when more follows it. -/
theorem append
    {source rest more : List Char}
    {token : Token}
    (reads : Reads source token rest)
    (prepared : IsPrepared source)
    (apart : StartsApart more) :
    Reads (source ++ more) token (rest ++ more) := by
  cases reads with
  | comment found => exact .comment (Text.splitOnce_append found more)
  | cdata found => exact .cdata (Text.splitOnce_append found more)
  | doctype named taken wellNamed =>
      exact .doctype named (takeDoctype_append taken more) wellNamed
  | @instruction text body _ begun found =>
      have nonempty : text ≠ [] := by
        rw [Text.eq_append_of_splitOnce found]
        simp
      exact .instruction (head?_append_ne begun nonempty more) (Text.splitOnce_append found more)
  | @tag text content _ notDeclaration notInstruction taken =>
      have nonempty : text ≠ [] := by
        rw [eq_append_of_takeTag taken]
        simp
      exact .tag (head?_append_ne notDeclaration nonempty more)
        (head?_append_ne notInstruction nonempty more) (takeTag_append taken more)
  | reference found => exact .reference (Text.splitOnce_append found more)
  | @ampersand text bare =>
      -- In a prepared source every ampersand has its semicolon.
      obtain ⟨name, tail, rfl, chars⟩ := exists_of_hasReferenceForm (prepared.refers.1 rfl)
      rw [Text.splitOnce_append_cons (not_mem_of_isReferenceChar rfl chars)] at bare
      cases bare
  | @text c text plain =>
      obtain ⟨sameTaken, sameLeft⟩ := span_isPlain_append apart text
      rw [← sameTaken, ← sameLeft]
      exact .text plain

end Reads

end Markup
end MailPress
