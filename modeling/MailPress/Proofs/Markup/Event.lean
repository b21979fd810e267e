import MailPress.Markup.Event
import MailPress.Proofs.Markup.Token

/-!
# Events with more behind them

What a source is read into is given here step by step, one token or one raw text body at
a time. From this the events of two sources, one behind the other, are those of the first
followed by those of the second.
-/

namespace MailPress
namespace Markup

/-! ## Raw text bodies -/

/-- How deep a raw text body stands in elements of its own name after one more token, or
nothing when the token ends it. -/
def depthAfter (name : List Char) (depth : Nat) : Token → Option Nat
  | .start content => if tagName content = name then some (depth + 1) else some depth
  | .finish found =>
      if found = name then
        match depth with
        | 0 => none
        | outer + 1 => some outer
      else some depth
  | _ => some depth

/-- A raw text body at the start of a source ends in front of `finish`, and its end tag is
followed by `after`. -/
inductive EndsBody (name : List Char) :
    (depth : Nat) → (source finish after : List Char) → Prop
  | here
      {depth : Nat}
      {source after : List Char}
      {token : Token}
      (reads : Reads source token after)
      (ends : depthAfter name depth token = none) :
      EndsBody name depth source source after
  | further
      {depth next : Nat}
      {source rest finish after : List Char}
      {token : Token}
      (reads : Reads source token rest)
      (goesOn : depthAfter name depth token = some next)
      (restEnds : EndsBody name next rest finish after) :
      EndsBody name depth source finish after

/-- Where a raw text body ends, if it does. -/
def bodyEnd? (name : List Char) (depth : Nat) (source : List Char) :
    Option (List Char × List Char) :=
  match skipBody name depth source with
  | .ok (finish, ⟨after, _⟩) => some (finish, after)
  | .error _ => none

theorem bodyEnd?_of_reads
    {source rest : List Char}
    {token : Token}
    (reads : Reads source token rest)
    (name : List Char)
    (depth : Nat) :
    bodyEnd? name depth source =
      match depthAfter name depth token with
      | none => some (source, rest)
      | some next => bodyEnd? name next rest := by
  obtain ⟨shorter, step⟩ := readToken_eq_token_iff.mpr reads
  rw [bodyEnd?, skipBody, step]
  unfold bodyEnd?
  cases token with
  | start content =>
      by_cases inner : tagName content = name
      · simp only [depthAfter, if_pos inner]
        cases skipBody name (depth + 1) rest <;> rfl
      · simp only [depthAfter, if_neg inner]
        cases skipBody name depth rest <;> rfl
  | finish found =>
      by_cases named : found = name
      · simp only [depthAfter, if_pos named]
        cases depth with
        | zero => rfl
        | succ outer =>
            dsimp only
            cases skipBody name outer rest <;> rfl
      · simp only [depthAfter, if_neg named]
        cases skipBody name depth rest <;> rfl
  | _ =>
      dsimp only [depthAfter]
      cases skipBody name depth rest <;> rfl

theorem exists_reads_of_bodyEnd?
    {name : List Char}
    {depth : Nat}
    {source finish after : List Char}
    (ends : bodyEnd? name depth source = some (finish, after)) :
    ∃ token rest, Reads source token rest := by
  cases step : readToken source with
  | token token rest shorter => exact ⟨token, rest, readToken_eq_token_iff.mp ⟨shorter, step⟩⟩
  | done | failed =>
      rw [bodyEnd?, skipBody, step] at ends
      cases ends

theorem bodyEnd?_eq_some_iff
    {name : List Char}
    {depth : Nat}
    {source finish after : List Char} :
    bodyEnd? name depth source = some (finish, after) ↔
      EndsBody name depth source finish after := by
  constructor
  · intro ends
    induction length : source.length using Nat.strongRecOn generalizing source depth with
    | ind _ inductionHypothesis =>
        obtain ⟨token, rest, reads⟩ := exists_reads_of_bodyEnd? ends
        rw [bodyEnd?_of_reads reads] at ends
        cases after : depthAfter name depth token with
        | none =>
            rw [after] at ends
            cases ends
            exact .here reads after
        | some next =>
            rw [after] at ends
            exact .further reads after
              (inductionHypothesis rest.length (length ▸ reads.length_lt) ends rfl)
  · intro ends
    induction ends with
    | here reads ends => rw [bodyEnd?_of_reads reads, ends]
    | further reads goesOn _ inductionHypothesis =>
        rw [bodyEnd?_of_reads reads, goesOn]
        exact inductionHypothesis

namespace EndsBody

/-- The end tag of a body stands in the source behind the body. -/
theorem suffix
    {name : List Char}
    {depth : Nat}
    {source finish after : List Char}
    (ends : EndsBody name depth source finish after) :
    finish <:+ source ∧ after <:+ finish := by
  induction ends with
  | here reads ends => exact ⟨List.suffix_rfl, reads.suffix⟩
  | further reads _ _ inductionHypothesis =>
      exact ⟨inductionHypothesis.1.trans reads.suffix, inductionHypothesis.2⟩

theorem append
    {name : List Char}
    {depth : Nat}
    {source finish after more : List Char}
    (ends : EndsBody name depth source finish after)
    (prepared : IsPrepared source)
    (apart : StartsApart more) :
    EndsBody name depth (source ++ more) (finish ++ more) (after ++ more) := by
  induction ends with
  | here reads ends => exact .here (reads.append prepared apart) ends
  | further reads goesOn _ inductionHypothesis =>
      exact .further (reads.append prepared apart) goesOn
        (inductionHypothesis (prepared.of_suffix reads.suffix))

end EndsBody

/-! ## Sources -/

/-- Whether a token starts an element whose body is raw text. -/
def startsRawText : Token → Bool
  | .start content => rawTextNames.contains (readElement false content).name
  | _ => false

/-- A source is read into these events. -/
inductive ReadsAs : (source : List Char) → (events : List Event) → Prop
  | done : ReadsAs [] []
  | token
      {source rest : List Char}
      {token : Token}
      {events : List Event}
      (reads : Reads source token rest)
      (notRaw : startsRawText token = false)
      (restReads : ReadsAs rest events) :
      ReadsAs source (Event.ofToken token :: events)
  | body
      {source content body finish after : List Char}
      {events : List Event}
      (reads : Reads source (.start content) (body ++ finish))
      (raw : startsRawText (.start content) = true)
      (ends : EndsBody (tagName content) 0 (body ++ finish) finish after)
      (restReads : ReadsAs after events) :
      ReadsAs source
        (.start (readElement false content) ::
          (bodyEvents body ++ .finish (readElement false content).name :: events))

theorem readEvents_of_reads
    {source rest : List Char}
    {token : Token}
    (reads : Reads source token rest)
    (notRaw : startsRawText token = false) :
    readEvents source = (readEvents rest).map (Event.ofToken token :: ·) := by
  obtain ⟨shorter, step⟩ := readToken_eq_token_iff.mpr reads
  rw [readEvents, step]
  cases token with
  | start content =>
      have notListed : ¬rawTextNames.contains (readElement false content).name = true :=
        Bool.not_eq_true _ ▸ notRaw
      simp only [if_neg notListed]
      rfl
  | _ => rfl

theorem readEvents_of_reads_start
    {source content rest : List Char}
    (reads : Reads source (.start content) rest)
    (raw : startsRawText (.start content) = true) :
    (readEvents source).toOption =
      (bodyEnd? (tagName content) 0 rest).bind fun found =>
        (readEvents found.2).toOption.map fun events =>
          .start (readElement false content) ::
            (bodyEvents (rest.take (rest.length - found.1.length)) ++
              .finish (readElement false content).name :: events) := by
  obtain ⟨shorter, step⟩ := readToken_eq_token_iff.mpr reads
  rw [readEvents, step]
  simp only [if_pos (show rawTextNames.contains (readElement false content).name = true from raw)]
  unfold bodyEnd?
  cases skipBody (tagName content) 0 rest with
  | error failure => rfl
  | ok found =>
      obtain ⟨finish, after, less⟩ := found
      cases events : readEvents after <;> simp [events, Except.map, Except.toOption]

theorem toOption_eq_some_iff
    {read : Except Failure (List Event)}
    {events : List Event} :
    read.toOption = some events ↔ read = .ok events := by
  cases read <;> simp [Except.toOption]

theorem startsRawText_eq_true_iff
    {token : Token} :
    startsRawText token = true ↔
      ∃ content, token = .start content ∧
        (readElement false content).name ∈ rawTextNames := by
  cases token <;> simp [startsRawText]

/-- The reader takes a source apart in this way, or not at all. -/
theorem readEvents_eq_ok_iff
    {source : List Char}
    {events : List Event} :
    readEvents source = .ok events ↔ ReadsAs source events := by
  constructor
  · intro read
    induction length : source.length using Nat.strongRecOn generalizing source events with
    | ind _ inductionHypothesis =>
        subst length
        cases step : readToken source with
        | done =>
            rw [readEvents, step] at read
            cases read
            cases source with
            | nil => exact .done
            | cons c text => exact absurd step (readToken_cons_ne_done c text)
        | failed =>
            rw [readEvents, step] at read
            cases read
        | token token rest shorter =>
            have reads := readToken_eq_token_iff.mp ⟨shorter, step⟩
            cases raw : startsRawText token with
            | false =>
                rw [readEvents_of_reads reads raw] at read
                cases restRead : readEvents rest with
                | error failure =>
                    rw [restRead] at read
                    cases read
                | ok restEvents =>
                    rw [restRead] at read
                    cases read
                    exact .token reads raw (inductionHypothesis _ shorter restRead rfl)
            | true =>
                obtain ⟨content, rfl, _⟩ := startsRawText_eq_true_iff.mp raw
                have readOption := toOption_eq_some_iff.mpr read
                rw [readEvents_of_reads_start reads raw] at readOption
                obtain ⟨⟨finish, after⟩, ended, mapped⟩ := Option.bind_eq_some_iff.mp readOption
                obtain ⟨restEvents, restRead, rfl⟩ := Option.map_eq_some_iff.mp mapped
                have ends := bodyEnd?_eq_some_iff.mp ended
                obtain ⟨⟨body, rfl⟩, afterSuffix⟩ := ends.suffix
                have less := (afterSuffix.trans (List.suffix_append body finish)).length_le
                have restReads := inductionHypothesis after.length (Nat.lt_of_le_of_lt less shorter)
                  (toOption_eq_some_iff.mp restRead) rfl
                have cut : (body ++ finish).take ((body ++ finish).length - finish.length) =
                    body := by simp
                dsimp only
                rw [cut]
                exact .body reads raw ends restReads
  · intro reads
    induction reads with
    | done => rw [readEvents, readToken]
    | token reads notRaw _ inductionHypothesis =>
        rw [readEvents_of_reads reads notRaw, inductionHypothesis]
        rfl
    | body reads raw ends _ inductionHypothesis =>
        apply toOption_eq_some_iff.mp
        rw [readEvents_of_reads_start reads raw, bodyEnd?_eq_some_iff.mpr ends]
        simp [inductionHypothesis, Except.toOption]

namespace ReadsAs

/-- The events of two sources are those of the first, followed by those of the second. -/
theorem append
    {source more : List Char}
    {events moreEvents : List Event}
    (reads : ReadsAs source events)
    (prepared : IsPrepared source)
    (apart : StartsApart more)
    (moreReads : ReadsAs more moreEvents) :
    ReadsAs (source ++ more) (events ++ moreEvents) := by
  induction reads with
  | done => exact moreReads
  | token reads notRaw _ inductionHypothesis =>
      exact .token (reads.append prepared apart) notRaw
        (inductionHypothesis (prepared.of_suffix reads.suffix))
  | @body source content body finish after events reads raw ends _ inductionHypothesis =>
      have restPrepared := prepared.of_suffix reads.suffix
      have afterSuffix := ends.suffix.2.trans ends.suffix.1
      have restReads := inductionHypothesis (restPrepared.of_suffix afterSuffix)
      have readsMore := reads.append prepared apart
      have endsMore := ends.append restPrepared apart
      rw [List.append_assoc] at readsMore endsMore
      simpa using ReadsAs.body readsMore raw endsMore restReads

end ReadsAs

/-! ## Texts -/

/-- The part of a text that a token is read from, when it is a text or a reference. -/
def Token.piece? : Token → Option (List Char)
  | .text raw => some raw
  | .reference name => some ('&' :: (name ++ [';']))
  | _ => none

/-- What is neither a text nor a reference starts with an angle bracket. -/
theorem Reads.head?_eq_angle
    {source rest : List Char}
    {token : Token}
    (reads : Reads source token rest)
    (noPiece : token.piece? = none) :
    source.head? = some '<' := by
  cases reads with
  | text | reference | ampersand => cases noPiece
  | _ => rfl

/-- A text without markup that is prepared. -/
structure IsText (text : List Char) : Prop where
  /-- No markup starts in the text. -/
  noAngle : '<' ∉ text
  /-- Every ampersand starts a reference. -/
  refers : AmpersandsRefer text

theorem IsText.of_append
    {first second : List Char}
    (isText : IsText (first ++ second)) :
    IsText second :=
  ⟨fun member => isText.noAngle (List.mem_append_right first member), isText.refers.of_append⟩

theorem IsText.isPrepared
    {text : List Char}
    (isText : IsText text) :
    IsPrepared text :=
  ⟨isText.refers, .of_not_mem isText.noAngle⟩

/-- At the start of a text, a piece of it is read. -/
theorem IsText.exists_reads
    {text : List Char}
    (isText : IsText text)
    (nonempty : text ≠ []) :
    ∃ token piece rest, text = piece ++ rest ∧ piece ≠ [] ∧ token.piece? = some piece ∧
      ∀ more, StartsApart more → Reads (text ++ more) token (rest ++ more) := by
  obtain ⟨c, tail, rfl⟩ := List.exists_cons_of_ne_nil nonempty
  by_cases ampersand : c = '&'
  · subst ampersand
    obtain ⟨name, rest, rfl, chars⟩ := exists_of_hasReferenceForm (isText.refers.1 rfl)
    have fresh := not_mem_of_isReferenceChar (c := ';') rfl chars
    refine ⟨.reference name, '&' :: (name ++ [';']), rest, by simp, by simp, rfl, ?_⟩
    intro more _
    exact .reference (Text.splitOnce_append (Text.splitOnce_append_cons fresh rest) more)
  · have notAngle : c ≠ '<' := by
      rintro rfl
      exact isText.noAngle List.mem_cons_self
    have plain : isPlain c = true := by simp [isPlain, notAngle, ampersand]
    refine ⟨.text (c :: tail.takeWhile isPlain), c :: tail.takeWhile isPlain,
      tail.dropWhile isPlain, ?_, by simp, rfl, ?_⟩
    · rw [List.cons_append, List.takeWhile_append_dropWhile]
    · intro more apart
      exact (Reads.text plain).append isText.isPrepared apart

theorem depthAfter_of_piece?
    {token : Token}
    {piece : List Char}
    (isPiece : token.piece? = some piece)
    (name : List Char)
    (depth : Nat) :
    depthAfter name depth token = some depth := by
  cases token <;> first | rfl | cases isPiece

theorem startsRawText_of_piece?
    {token : Token}
    {piece : List Char}
    (isPiece : token.piece? = some piece) :
    startsRawText token = false := by
  cases token <;> first | rfl | cases isPiece

/-- A text does not end the body that it stands in. -/
theorem bodyEnd?_of_isText
    {text more : List Char}
    (isText : IsText text)
    (apart : StartsApart more)
    (name : List Char)
    (depth : Nat) :
    bodyEnd? name depth (text ++ more) = bodyEnd? name depth more := by
  induction length : text.length using Nat.strongRecOn generalizing text with
  | ind _ inductionHypothesis =>
      by_cases empty : text = []
      · rw [empty, List.nil_append]
      · obtain ⟨token, piece, rest, rfl, nonempty, isPiece, reads⟩ :=
          isText.exists_reads empty
        have shorter : rest.length < (piece ++ rest).length := by
          simpa using List.length_pos_iff.mpr nonempty
        rw [bodyEnd?_of_reads (reads more apart), depthAfter_of_piece? isPiece]
        exact inductionHypothesis rest.length (length ▸ shorter) isText.of_append rfl

theorem endsBody_append_iff
    {name text more finish after : List Char}
    {depth : Nat}
    (isText : IsText text)
    (apart : StartsApart more) :
    EndsBody name depth (text ++ more) finish after ↔ EndsBody name depth more finish after := by
  rw [← bodyEnd?_eq_some_iff, bodyEnd?_of_isText isText apart, bodyEnd?_eq_some_iff]

/-- The raw text that an event adds, when it is a text or a reference. -/
def Event.raw? : Event → Option String
  | .text raw => some raw
  | .reference name => some ("&" ++ name ++ ";")
  | _ => none

theorem raw?_ofToken
    {token : Token}
    {piece : List Char}
    (isPiece : token.piece? = some piece) :
    (Event.ofToken token).raw? = some (String.ofList piece) := by
  cases token with
  | text raw =>
      cases isPiece
      rfl
  | reference name =>
      cases isPiece
      rw [Event.ofToken, Event.raw?]
      congr 1
      apply String.toList_injective
      simp
  | _ => cases isPiece

/-- Events that add raw text, and together this one. -/
inductive AddRaw : (events : List Event) → (raw : String) → Prop
  | single
      {event : Event}
      {raw : String}
      (adds : event.raw? = some raw) :
      AddRaw [event] raw
  | cons
      {event : Event}
      {events : List Event}
      {raw rest : String}
      (adds : event.raw? = some raw)
      (restAdds : AddRaw events rest) :
      AddRaw (event :: events) (raw ++ rest)

/-- A text is read into events that add it up again, and then what follows it is read. -/
theorem IsText.exists_readEvents_append
    {text : List Char}
    (isText : IsText text)
    (nonempty : text ≠ []) :
    ∃ events, AddRaw events (String.ofList text) ∧
      ∀ more, StartsApart more →
        readEvents (text ++ more) = (readEvents more).map (events ++ ·) := by
  induction length : text.length using Nat.strongRecOn generalizing text with
  | ind _ inductionHypothesis =>
      obtain ⟨token, piece, rest, rfl, pieceNonempty, isPiece, reads⟩ :=
        isText.exists_reads nonempty
      have shorter : rest.length < (piece ++ rest).length := by
        simpa using List.length_pos_iff.mpr pieceNonempty
      have adds := raw?_ofToken isPiece
      have notRaw := startsRawText_of_piece? isPiece
      by_cases last : rest = []
      · subst last
        refine ⟨[Event.ofToken token], by simpa using AddRaw.single adds, ?_⟩
        intro more apart
        exact readEvents_of_reads (reads more apart) notRaw
      · obtain ⟨events, restAdds, restRead⟩ :=
          inductionHypothesis rest.length (length ▸ shorter) isText.of_append last rfl
        refine ⟨Event.ofToken token :: events, ?_, ?_⟩
        · rw [String.ofList_append]
          exact .cons adds restAdds
        · intro more apart
          rw [readEvents_of_reads (reads more apart) notRaw, restRead more apart]
          cases readEvents more <;> rfl

theorem IsText.exists_addRaw
    {text : List Char}
    (isText : IsText text)
    (nonempty : text ≠ []) :
    ∃ events, AddRaw events (String.ofList text) ∧
      ∀ more moreEvents, StartsApart more → ReadsAs more moreEvents →
        ReadsAs (text ++ more) (events ++ moreEvents) := by
  obtain ⟨events, adds, read⟩ := isText.exists_readEvents_append nonempty
  refine ⟨events, adds, fun more moreEvents apart moreReads => ?_⟩
  apply readEvents_eq_ok_iff.mp
  rw [read more apart, readEvents_eq_ok_iff.mpr moreReads]
  rfl

/-- What follows a text can be read when both together can. -/
theorem IsText.exists_of_readsAs_append
    {text more : List Char}
    {events : List Event}
    (isText : IsText text)
    (nonempty : text ≠ [])
    (apart : StartsApart more)
    (reads : ReadsAs (text ++ more) events) :
    ∃ texts moreEvents, AddRaw texts (String.ofList text) ∧ ReadsAs more moreEvents ∧
      texts ++ moreEvents = events := by
  obtain ⟨texts, adds, read⟩ := isText.exists_readEvents_append nonempty
  have whole := readEvents_eq_ok_iff.mpr reads
  rw [read more apart] at whole
  cases moreRead : readEvents more with
  | error failure =>
      rw [moreRead] at whole
      cases whole
  | ok moreEvents =>
      rw [moreRead] at whole
      cases whole
      exact ⟨texts, moreEvents, adds, readEvents_eq_ok_iff.mp moreRead, rfl⟩

end Markup
end MailPress
