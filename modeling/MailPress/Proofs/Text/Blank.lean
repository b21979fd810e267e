import MailPress.Text.Blank

/-!
# Trimming

Trimming takes blanks off both ends, and leaves a text that starts and ends with
something else alone.
-/

namespace MailPress
namespace Text

@[simp] theorem isBlank_space : isBlank ' ' = true := rfl

theorem trimStart_eq_self
    {text : List Char}
    (start : ∀ c ∈ text.head?, isBlank c = false) :
    trimStart text = text := by
  cases text with
  | nil => rfl
  | cons c rest =>
      have nonblank : isBlank c = false := start c rfl
      simp [trimStart, trimStartOf, nonblank]

theorem trimEnd_eq_reverse (text : List Char) :
    trimEnd text = (trimStart text.reverse).reverse := rfl

theorem trimEnd_eq_self
    {text : List Char}
    (finish : ∀ c ∈ text.getLast?, isBlank c = false) :
    trimEnd text = text := by
  rw [trimEnd_eq_reverse, trimStart_eq_self, List.reverse_reverse]
  simpa using finish

/-- A text with no blank at either end is its own trimmed form. -/
theorem trim_eq_self
    {text : List Char}
    (start : ∀ c ∈ text.head?, isBlank c = false)
    (finish : ∀ c ∈ text.getLast?, isBlank c = false) :
    trim text = text := by
  rw [trim, trimStart_eq_self start, trimEnd_eq_self finish]

/-- A text without blanks is its own trimmed form. -/
theorem trim_eq_self_of_forall
    {text : List Char}
    (plain : ∀ c ∈ text, isBlank c = false) :
    trim text = text :=
  trim_eq_self (fun c head => plain c (List.mem_of_head? head))
    fun c last => plain c (List.mem_of_getLast? last)

theorem exists_trimStart (text : List Char) :
    ∃ lead, text = lead ++ trimStart text ∧ ∀ c ∈ lead, isBlank c = true :=
  ⟨text.takeWhile isBlank, List.takeWhile_append_dropWhile.symm,
    List.all_eq_true.mp List.all_takeWhile⟩

theorem exists_trimEnd (text : List Char) :
    ∃ trail, text = trimEnd text ++ trail ∧ ∀ c ∈ trail, isBlank c = true := by
  obtain ⟨lead, split, blanks⟩ := exists_trimStart text.reverse
  refine ⟨lead.reverse, ?_, by simpa using blanks⟩
  rw [trimEnd_eq_reverse, ← List.reverse_append, ← split, List.reverse_reverse]

/-- A text is its trimmed form between blanks. -/
theorem exists_trim (text : List Char) :
    ∃ lead trail, text = lead ++ trim text ++ trail ∧ (∀ c ∈ lead, isBlank c = true) ∧
      ∀ c ∈ trail, isBlank c = true := by
  obtain ⟨lead, leadSplit, leadBlanks⟩ := exists_trimStart text
  obtain ⟨trail, trailSplit, trailBlanks⟩ := exists_trimEnd (trimStart text)
  refine ⟨lead, trail, ?_, leadBlanks, trailBlanks⟩
  rw [List.append_assoc, trim, ← trailSplit, ← leadSplit]

theorem trim_infix (text : List Char) : trim text <:+: text := by
  obtain ⟨lead, trail, split, _⟩ := exists_trim text
  exact ⟨lead, trail, split.symm⟩

theorem isBlank_or_mem_trim
    {text : List Char}
    {c : Char}
    (member : c ∈ text) :
    isBlank c = true ∨ c ∈ trim text := by
  obtain ⟨lead, trail, split, leadBlanks, trailBlanks⟩ := exists_trim text
  rw [split, List.mem_append, List.mem_append] at member
  rcases member with (inLead | inside) | inTrail
  · exact .inl (leadBlanks c inLead)
  · exact .inr inside
  · exact .inl (trailBlanks c inTrail)

theorem isBlank_head?_trimStart (text : List Char) :
    ∀ c ∈ (trimStart text).head?, isBlank c = false := by
  intro c first
  have found := List.head?_dropWhile_not isBlank text
  unfold trimStart trimStartOf at first
  rw [Option.mem_def] at first
  simpa [first] using found

theorem isBlank_getLast?_trimEnd (text : List Char) :
    ∀ c ∈ (trimEnd text).getLast?, isBlank c = false := by
  rw [trimEnd_eq_reverse, List.getLast?_reverse]
  exact isBlank_head?_trimStart text.reverse

/-- Taking blanks off the end does not change the first character. -/
theorem head?_trimEnd
    (text : List Char)
    (start : ∀ c ∈ text.head?, isBlank c = false) :
    (trimEnd text).head? = text.head? := by
  obtain ⟨trail, split, blanks⟩ := exists_trimEnd text
  cases kept : trimEnd text with
  | cons c rest =>
      rw [kept] at split
      rw [split]
      rfl
  | nil =>
      rw [kept, List.nil_append] at split
      cases text with
      | nil => rfl
      | cons c rest =>
          have blank := blanks c (split ▸ List.mem_cons_self)
          rw [start c rfl] at blank
          cases blank

theorem isBlank_head?_trim (text : List Char) :
    ∀ c ∈ (trim text).head?, isBlank c = false := by
  rw [trim, head?_trimEnd _ (isBlank_head?_trimStart text)]
  exact isBlank_head?_trimStart text

theorem isBlank_getLast?_trim (text : List Char) :
    ∀ c ∈ (trim text).getLast?, isBlank c = false :=
  isBlank_getLast?_trimEnd _

@[simp] theorem trim_trim (text : List Char) : trim (trim text) = trim text :=
  trim_eq_self (isBlank_head?_trim text) (isBlank_getLast?_trim text)

theorem trim_cons_of_isBlank
    {c : Char}
    (blank : isBlank c = true)
    (text : List Char) :
    trim (c :: text) = trim text := by
  simp [trim, trimStart, trimStartOf, blank]

/-- Blanks around a text do not matter to its trimmed form. -/
theorem trim_append_append
    {lead trail : List Char}
    (leadBlanks : ∀ c ∈ lead, isBlank c = true)
    (trailBlanks : ∀ c ∈ trail, isBlank c = true)
    {text : List Char}
    (trimmed : trim text = text)
    (nonempty : text ≠ []) :
    trim (lead ++ text ++ trail) = text := by
  have start : ∀ c ∈ (text ++ trail).head?, isBlank c = false := by
    have textStart := isBlank_head?_trim text
    rw [trimmed] at textStart
    cases text with
    | nil => exact absurd rfl nonempty
    | cons c rest => exact textStart
  have trimmedStart : trimStart (lead ++ text ++ trail) = text ++ trail := by
    rw [List.append_assoc, trimStart, trimStartOf, List.dropWhile_append_of_pos leadBlanks]
    exact trimStart_eq_self start
  rw [trim, trimmedStart, trimEnd_eq_reverse, List.reverse_append, trimStart, trimStartOf,
    List.dropWhile_append_of_pos (by simpa using trailBlanks)]
  have finish := isBlank_getLast?_trim text
  rw [trimmed] at finish
  exact trimEnd_eq_self finish

theorem trimStart_append_cons
    (before : List Char)
    {c : Char}
    (nonblank : isBlank c = false)
    (after : List Char) :
    trimStart (before ++ c :: after) = trimStart before ++ c :: after := by
  have kept : trimStart (c :: after) = c :: after :=
    trimStart_eq_self fun d first => Option.some.inj first ▸ nonblank
  unfold trimStart trimStartOf at kept ⊢
  rw [List.dropWhile_append]
  split
  · next empty => rw [List.isEmpty_iff.mp empty, List.nil_append, kept]
  · rfl

theorem trimEnd_append_cons
    (before : List Char)
    {c : Char}
    (nonblank : isBlank c = false)
    (after : List Char) :
    trimEnd (before ++ c :: after) = before ++ c :: trimEnd after := by
  have reversed : (before ++ c :: after).reverse = after.reverse ++ c :: before.reverse := by simp
  rw [trimEnd_eq_reverse, reversed, trimStart_append_cons _ nonblank, trimEnd_eq_reverse]
  simp

theorem trim_of_forall_isBlank
    {text : List Char}
    (blanks : ∀ c ∈ text, isBlank c = true) :
    trim text = [] := by
  induction text with
  | nil => rfl
  | cons c rest inductionHypothesis =>
      obtain ⟨first, others⟩ := List.forall_mem_cons.mp blanks
      rw [trim_cons_of_isBlank first, inductionHypothesis others]

theorem trim_append_of_forall_isBlank
    {trail : List Char}
    (blanks : ∀ c ∈ trail, isBlank c = true)
    (text : List Char) :
    trim (text ++ trail) = trim text := by
  obtain ⟨lead, finish, split, leadBlanks, finishBlanks⟩ := exists_trim text
  have allBlanks : ∀ c ∈ finish ++ trail, isBlank c = true :=
    List.forall_mem_append.mpr ⟨finishBlanks, blanks⟩
  by_cases empty : trim text = []
  · rw [empty]
    rw [empty, List.append_nil] at split
    rw [split, List.append_assoc]
    exact trim_of_forall_isBlank (List.forall_mem_append.mpr ⟨leadBlanks, allBlanks⟩)
  · have joined := trim_append_append leadBlanks allBlanks (trim_trim text) empty
    rwa [← List.append_assoc, ← split] at joined

/-- Two trimmed texts one behind the other are trimmed. -/
theorem trim_append
    {first second : List Char}
    (firstTrimmed : trim first = first)
    (firstNonempty : first ≠ [])
    (secondTrimmed : trim second = second)
    (secondNonempty : second ≠ []) :
    trim (first ++ second) = first ++ second := by
  have start := isBlank_head?_trim first
  have finish := isBlank_getLast?_trim second
  rw [firstTrimmed] at start
  rw [secondTrimmed] at finish
  obtain ⟨c, rest, rfl⟩ := List.exists_cons_of_ne_nil firstNonempty
  refine trim_eq_self start ?_
  rw [List.getLast?_append, List.getLast?_eq_some_getLast secondNonempty, Option.some_or]
  rwa [List.getLast?_eq_some_getLast secondNonempty] at finish

end Text
end MailPress
