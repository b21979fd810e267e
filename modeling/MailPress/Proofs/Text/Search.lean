import Mathlib.Data.List.Infix
import Mathlib.Data.List.TakeWhile
import MailPress.Text.Blank
import MailPress.Text.Search

/-!
# Searching and cutting

Cutting at the first or at the last occurrence of a character finds exactly the
places before and behind which the character does not occur.

Cutting at every separator gives the pieces between them. A piece stands at an end of the text
or beside a separator on each side.
-/

namespace MailPress
namespace Text

theorem dropStart?_singleton (c d : Char) (text : List Char) :
    dropStart? [c] (d :: text) = if c = d then some text else none := by
  simp only [dropStart?]

theorem startsWith_singleton (c : Char) (text : List Char) :
    startsWith [c] text = (text.head? == some c) := by
  cases text with
  | nil => rfl
  | cons d rest =>
      by_cases same : c = d
      · simp [startsWith, dropStart?, same]
      · simp [startsWith, dropStart?, same, Ne.symm same]

theorem endsWith_singleton (c : Char) (text : List Char) :
    endsWith [c] text = (text.getLast? == some c) := by
  rw [endsWith, List.reverse_singleton, startsWith_singleton, List.head?_reverse]

/-- A text is cut where a character occurs for the first time. -/
theorem splitOnce_append_cons
    {c : Char}
    {before : List Char}
    (fresh : c ∉ before)
    (after : List Char) :
    splitOnce [c] (before ++ c :: after) = some (before, after) := by
  induction before with
  | nil => simp [splitOnce, dropStart?_singleton]
  | cons d before inductionHypothesis =>
      obtain ⟨different, fresh⟩ := List.ne_and_not_mem_of_not_mem_cons fresh
      rw [List.cons_append, splitOnce, dropStart?_singleton, if_neg different]
      simp [inductionHypothesis fresh]

/-- What stands in front of the first occurrence of a character does not hold it. -/
theorem not_mem_of_splitOnce
    {c : Char}
    {text before after : List Char}
    (split : splitOnce [c] text = some (before, after)) :
    c ∉ before := by
  induction text generalizing before with
  | nil => cases split
  | cons d text inductionHypothesis =>
      rw [splitOnce, dropStart?_singleton] at split
      by_cases same : c = d
      · rw [if_pos same] at split
        obtain ⟨rfl, rfl⟩ := Prod.mk.inj (Option.some.inj split)
        exact List.not_mem_nil
      · rw [if_neg same] at split
        obtain ⟨⟨first, last⟩, found, joined⟩ := Option.map_eq_some_iff.mp split
        obtain ⟨rfl, rfl⟩ := Prod.mk.inj joined
        exact List.not_mem_cons_of_ne_of_not_mem same (inductionHypothesis found)

/-- A text is cut where a character occurs for the last time. -/
theorem splitLast_append_cons
    {c : Char}
    (before : List Char)
    {after : List Char}
    (fresh : c ∉ after) :
    splitLast [c] (before ++ c :: after) = some (before, after) := by
  have reversedFresh : c ∉ after.reverse := by simpa using fresh
  have cut := splitOnce_append_cons reversedFresh before.reverse
  simp [splitLast, cut]

theorem eq_append_of_splitLast
    {c : Char}
    {text before after : List Char}
    (split : splitLast [c] text = some (before, after)) :
    text = before ++ c :: after := by
  obtain ⟨⟨first, second⟩, cut, same⟩ := Option.map_eq_some_iff.mp split
  obtain ⟨rfl, rfl⟩ := Prod.mk.inj same
  have reversed := congrArg List.reverse (eq_append_of_splitOnce cut)
  simpa using reversed

/-! ## More text behind -/

/-- Whether a text starts with a pattern is settled by as many characters as the pattern has. -/
theorem dropStart?_append
    {pattern text : List Char}
    (long : pattern.length ≤ text.length)
    (more : List Char) :
    dropStart? pattern (text ++ more) = (dropStart? pattern text).map (· ++ more) := by
  fun_induction dropStart? pattern text with
  | case1 text => simp [dropStart?]
  | case2 => simp at long
  | case3 pattern c text inductionHypothesis =>
      simpa [dropStart?] using inductionHypothesis (by simpa using long)
  | case4 pattern p c text different => simp [dropStart?, different]

/-- The first occurrence of a pattern stays the first when more text follows. -/
theorem splitOnce_append
    {pattern text before after : List Char}
    (split : splitOnce pattern text = some (before, after))
    (more : List Char) :
    splitOnce pattern (text ++ more) = some (before, after ++ more) := by
  induction text generalizing before with
  | nil =>
      have empty := eq_append_of_splitOnce split
      simp only [List.nil_eq, List.append_eq_nil_iff] at empty
      obtain ⟨rfl, rfl, rfl⟩ := empty
      cases more <;> simp [splitOnce, dropStart?]
  | cons c text inductionHypothesis =>
      have long : pattern.length ≤ (c :: text).length := by
        rw [eq_append_of_splitOnce split]
        simp only [List.length_append]
        omega
      have start := dropStart?_append long more
      rw [splitOnce] at split
      rw [List.cons_append, splitOnce, ← List.cons_append, start]
      cases dropped : dropStart? pattern (c :: text) with
      | some rest =>
          rw [dropped] at split
          obtain ⟨rfl, rfl⟩ := Prod.mk.inj (Option.some.inj split)
          rfl
      | none =>
          rw [dropped] at split
          obtain ⟨⟨first, last⟩, found, same⟩ := Option.map_eq_some_iff.mp split
          obtain ⟨rfl, rfl⟩ := Prod.mk.inj same
          simp [inductionHypothesis found]

/-! ## Occurrences -/

theorem dropStart?_append_self (pattern more : List Char) :
    dropStart? pattern (pattern ++ more) = some more := by
  induction pattern with
  | nil => simp [dropStart?]
  | cons c pattern inductionHypothesis =>
      simpa only [List.cons_append, dropStart?, if_true] using inductionHypothesis

/-- A pattern is found where it is written, when its last character does not stand in front. -/
theorem splitOnce_append_concat
    {c : Char}
    {before front : List Char}
    (fresh : c ∉ before)
    (freshFront : c ∉ front)
    (after : List Char) :
    splitOnce (front ++ [c]) (before ++ (front ++ c :: after)) = some (before, after) := by
  have pattern : front ++ c :: after = (front ++ [c]) ++ after := by simp
  induction before with
  | nil =>
      have start := dropStart?_append_self (front ++ [c]) after
      rw [← pattern] at start
      rw [List.nil_append]
      cases whole : front ++ c :: after with
      | nil => simp at whole
      | cons d rest =>
          rw [whole] at start
          rw [splitOnce, start]
  | cons d before inductionHypothesis =>
      have freshRest := (List.ne_and_not_mem_of_not_mem_cons fresh).2
      have absent : dropStart? (front ++ [c]) (d :: (before ++ (front ++ c :: after))) = none := by
        cases dropped : dropStart? (front ++ [c]) (d :: (before ++ (front ++ c :: after))) with
        | none => rfl
        | some rest =>
            -- The last character of the pattern would stand at two places for the first time.
            have whole : (d :: before ++ front) ++ c :: after = front ++ c :: rest := by
              simpa using eq_append_of_dropStart? dropped
            have freshBoth : c ∉ d :: before ++ front := by
              rw [List.mem_append, not_or]
              exact ⟨fresh, freshFront⟩
            have cut := splitOnce_append_cons freshBoth after
            rw [whole, splitOnce_append_cons freshFront rest] at cut
            have lengths := congrArg List.length (Prod.mk.inj (Option.some.inj cut)).1
            simp only [List.length_append, List.length_cons] at lengths
            omega
      rw [List.cons_append, splitOnce, absent]
      simp [inductionHypothesis freshRest]

/-- A text can be cut at every pattern that occurs in it. -/
theorem isSome_splitOnce_append (before pattern after : List Char) :
    (splitOnce pattern (before ++ (pattern ++ after))).isSome = true := by
  induction before with
  | nil =>
      rw [List.nil_append]
      cases text : pattern ++ after with
      | nil => simp [(List.append_eq_nil_iff.mp text).1, splitOnce]
      | cons c rest => rw [splitOnce, ← text, dropStart?_append_self, Option.isSome_some]
  | cons c before inductionHypothesis =>
      rw [List.cons_append, splitOnce]
      split
      · rfl
      · rw [Option.isSome_map, inductionHypothesis]

/-- A text is cut nowhere exactly when the pattern does not occur in it. -/
theorem splitOnce_eq_none_iff_absent
    {pattern text : List Char} :
    splitOnce pattern text = none ↔ ¬pattern <:+: text := by
  constructor
  · rintro uncut ⟨before, after, rfl⟩
    have cut := isSome_splitOnce_append before pattern after
    rw [← List.append_assoc, uncut] at cut
    cases cut
  · intro absent
    cases cut : splitOnce pattern text with
    | none => rfl
    | some parts =>
        rw [eq_append_of_splitOnce cut] at absent
        exact absurd ⟨parts.1, parts.2, List.append_assoc ..⟩ absent

/-- Only a text that does not hold a character cannot be cut at it. -/
theorem splitOnce_eq_none_iff
    {c : Char}
    {text : List Char} :
    splitOnce [c] text = none ↔ c ∉ text := by
  rw [splitOnce_eq_none_iff_absent, List.singleton_infix_iff]

theorem holds_eq_true_iff
    {pattern text : String} :
    holds pattern text = true ↔ pattern.toList <:+: text.toList := by
  rw [holds, occursIn, ← Option.ne_none_iff_isSome, ne_eq, splitOnce_eq_none_iff_absent,
    not_not]

theorem startsWith_iff
    {pattern text : List Char} :
    startsWith pattern text = true ↔ pattern <+: text := by
  rw [startsWith, Option.isSome_iff_exists]
  constructor
  · rintro ⟨after, dropped⟩
    exact ⟨after, (eq_append_of_dropStart? dropped).symm⟩
  · rintro ⟨after, rfl⟩
    exact ⟨after, dropStart?_append_self pattern after⟩

theorem endsWith_iff
    {pattern text : List Char} :
    endsWith pattern text = true ↔ pattern <:+ text := by
  rw [endsWith, startsWith_iff, List.reverse_prefix]

/-! ## Cutting at every separator -/

variable {isSeparator : Char → Bool}

theorem splitAtEach_ne_nil (isSeparator : Char → Bool) (text : List Char) :
    splitAtEach isSeparator text ≠ [] := by
  fun_cases splitAtEach isSeparator text <;> simp_all

theorem splitAtEach_cons_of_separator
    {c : Char}
    (separates : isSeparator c = true)
    (rest : List Char) :
    splitAtEach isSeparator (c :: rest) = [] :: splitAtEach isSeparator rest := by
  obtain ⟨piece, pieces, eq⟩ := List.exists_cons_of_ne_nil (splitAtEach_ne_nil isSeparator rest)
  simp [splitAtEach, eq, separates]

theorem splitAtEach_cons_of_not_separator
    {c : Char}
    (plain : isSeparator c = false)
    (rest : List Char) :
    splitAtEach isSeparator (c :: rest) =
      (splitAtEach isSeparator rest).modifyHead (c :: ·) := by
  obtain ⟨piece, pieces, eq⟩ := List.exists_cons_of_ne_nil (splitAtEach_ne_nil isSeparator rest)
  simp [splitAtEach, eq, plain]

/-- A separator divides the pieces into those in front of it and those behind it. -/
theorem splitAtEach_append_cons
    {c : Char}
    (separates : isSeparator c = true)
    (before after : List Char) :
    splitAtEach isSeparator (before ++ c :: after) =
      splitAtEach isSeparator before ++ splitAtEach isSeparator after := by
  induction before with
  | nil => exact splitAtEach_cons_of_separator separates after
  | cons first before inductionHypothesis =>
      cases kind : isSeparator first with
      | true =>
          rw [List.cons_append, splitAtEach_cons_of_separator kind, inductionHypothesis,
            splitAtEach_cons_of_separator kind, List.cons_append]
      | false =>
          obtain ⟨piece, pieces, eq⟩ :=
            List.exists_cons_of_ne_nil (splitAtEach_ne_nil isSeparator before)
          rw [List.cons_append, splitAtEach_cons_of_not_separator kind, inductionHypothesis,
            splitAtEach_cons_of_not_separator kind, eq]
          rfl

theorem splitAtEach_eq_singleton
    {text : List Char}
    (plain : ∀ c ∈ text, isSeparator c = false) :
    splitAtEach isSeparator text = [text] := by
  induction text with
  | nil => rfl
  | cons c rest inductionHypothesis =>
      rw [splitAtEach_cons_of_not_separator (plain c List.mem_cons_self),
        inductionHypothesis fun d member => plain d (List.mem_cons_of_mem c member)]
      rfl

/-- The pieces have no separators. -/
theorem not_separator_of_mem_splitAtEach
    {text piece : List Char}
    (member : piece ∈ splitAtEach isSeparator text) :
    ∀ c ∈ piece, isSeparator c = false := by
  induction text generalizing piece with
  | nil => simp_all [splitAtEach]
  | cons c rest inductionHypothesis =>
      cases kind : isSeparator c with
      | true =>
          rw [splitAtEach_cons_of_separator kind] at member
          rcases List.mem_cons.mp member with rfl | later
          · simp
          · exact inductionHypothesis later
      | false =>
          obtain ⟨first, pieces, eq⟩ :=
            List.exists_cons_of_ne_nil (splitAtEach_ne_nil isSeparator rest)
          rw [splitAtEach_cons_of_not_separator kind, eq] at member
          rcases List.mem_cons.mp member with rfl | later
          · intro d inside
            rcases List.mem_cons.mp inside with rfl | inside
            · exact kind
            · exact inductionHypothesis (eq ▸ List.mem_cons_self) d inside
          · exact inductionHypothesis (eq ▸ List.mem_cons_of_mem first later)

/-- Pieces without separators that are joined by a separator are found again. -/
theorem splitAtEach_intercalate
    {c : Char}
    (separates : isSeparator c = true)
    {pieces : List (List Char)}
    (nonempty : pieces ≠ [])
    (plain : ∀ piece ∈ pieces, ∀ d ∈ piece, isSeparator d = false) :
    splitAtEach isSeparator (List.intercalate [c] pieces) = pieces := by
  induction pieces with
  | nil => exact absurd rfl nonempty
  | cons piece pieces inductionHypothesis =>
      have first := splitAtEach_eq_singleton (plain piece List.mem_cons_self)
      cases pieces with
      | nil => simpa using first
      | cons second pieces =>
          have rest := inductionHypothesis (List.cons_ne_nil second pieces)
            fun other member => plain other (List.mem_cons_of_mem piece member)
          rw [List.intercalate_cons_cons, List.append_assoc, List.singleton_append,
            splitAtEach_append_cons separates, first, rest]
          rfl

/-- The pieces joined by the separator are the text. -/
theorem intercalate_splitAtEach (separator : Char) (text : List Char) :
    List.intercalate [separator] (splitAtEach (· == separator) text) = text := by
  induction text with
  | nil => rfl
  | cons c rest inductionHypothesis =>
      obtain ⟨piece, pieces, split⟩ :=
        List.exists_cons_of_ne_nil (splitAtEach_ne_nil (· == separator) rest)
      rw [split] at inductionHypothesis
      by_cases same : c = separator
      · have first := @splitAtEach_cons_of_separator (· == separator) c (by simp [same]) rest
        rw [first, split, List.intercalate_cons_cons, inductionHypothesis, same]
        rfl
      · have first := @splitAtEach_cons_of_not_separator (· == separator) c (by simp [same]) rest
        rw [first, split, List.modifyHead_cons]
        cases pieces with
        | nil => simpa using inductionHypothesis
        | cons second pieces =>
            rw [List.intercalate_cons_cons] at inductionHypothesis ⊢
            rw [List.cons_append, List.cons_append, inductionHypothesis]

/-- A piece has no separators, and stands at an end of the text or beside a separator on each
side. -/
theorem mem_splitAtEach_iff
    {text piece : List Char} :
    piece ∈ splitAtEach isSeparator text ↔
      (∀ c ∈ piece, isSeparator c = false) ∧
        ∃ before after, text = before ++ (piece ++ after) ∧
          (∀ c ∈ before.getLast?, isSeparator c = true) ∧
            ∀ c ∈ after.head?, isSeparator c = true := by
  constructor
  · intro member
    refine ⟨not_separator_of_mem_splitAtEach member, ?_⟩
    induction length : text.length using Nat.strong_induction_on generalizing text with
    | _ n inductionHypothesis =>
        -- The text up to its first separator is the first piece.
        have plain : ∀ c ∈ text.takeWhile (!isSeparator ·), isSeparator c = false := fun c inside =>
          by simpa using List.mem_takeWhile_imp inside
        have whole := List.takeWhile_append_dropWhile (p := (!isSeparator ·)) (l := text)
        cases rest : text.dropWhile (!isSeparator ·) with
        | nil =>
            rw [rest, List.append_nil] at whole
            rw [whole] at plain
            rw [splitAtEach_eq_singleton plain, List.mem_singleton] at member
            exact ⟨[], [], by simp [member], nofun, nofun⟩
        | cons c behind =>
            have separates : isSeparator c = true := by
              have head := List.head?_dropWhile_not (!isSeparator ·) text
              simpa [rest] using head
            rw [rest] at whole
            rw [← whole, splitAtEach_append_cons separates, splitAtEach_eq_singleton plain] at member
            rcases List.mem_append.mp member with first | later
            · obtain rfl := List.mem_singleton.mp first
              exact ⟨[], c :: behind, by simpa using whole.symm, nofun, by simpa using separates⟩
            · have shorter : behind.length < n := by
                rw [← length, ← whole, List.length_append, List.length_cons]
                omega
              obtain ⟨before, after, rfl, left, right⟩ :=
                inductionHypothesis behind.length shorter later rfl
              refine ⟨text.takeWhile (!isSeparator ·) ++ c :: before, after, ?_, ?_, right⟩
              · rw [List.append_assoc, List.cons_append]
                exact whole.symm
              · intro d last
                rw [List.getLast?_append, List.getLast?_cons, Option.some_or] at last
                obtain rfl := Option.some.inj last
                cases final : before.getLast? with
                | none => exact separates
                | some final' => exact left final' final
  · rintro ⟨plain, before, after, rfl, left, right⟩
    have inRest : piece ∈ splitAtEach isSeparator (piece ++ after) := by
      cases after with
      | nil => simp [splitAtEach_eq_singleton plain]
      | cons c after =>
          rw [splitAtEach_append_cons (right c rfl), splitAtEach_eq_singleton plain]
          simp
    rcases List.eq_nil_or_concat before with rfl | ⟨front, c, rfl⟩
    · exact inRest
    · rw [List.concat_eq_append, List.append_assoc, List.singleton_append,
        splitAtEach_append_cons (left c (by simp))]
      exact List.mem_append_right _ inRest

end Text
end MailPress
