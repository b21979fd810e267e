import MailPress.Markup.Reference
import MailPress.Proofs.Text.Search

/-!
# Prepared sources

A source is prepared when every ampersand in it starts a reference and every opening
angle bracket starts markup. Preparing a source makes it so, and leaves a source alone
that is so already.

What an ampersand starts is settled before the next angle bracket. So the stretches of
a source between angle brackets are prepared each on its own.
-/

namespace MailPress
namespace Markup

/-! ## The form of references -/

/-- A character that may stand between the ampersand and the semicolon of a reference. -/
def isReferenceChar (c : Char) : Bool :=
  c == '#' || Text.isAsciiAlphanumeric c

theorem isAsciiAlphanumeric_of_isAsciiDigit
    {c : Char}
    (digit : Text.isAsciiDigit c = true) :
    Text.isAsciiAlphanumeric c = true := by
  simp only [Text.isAsciiDigit, Text.isAsciiAlphanumeric] at *
  simp [digit]

theorem isAsciiAlphanumeric_of_isHexDigit
    {c : Char}
    (digit : Text.isHexDigit c = true) :
    Text.isAsciiAlphanumeric c = true := by
  simp only [Text.isHexDigit, Text.isAsciiDigit, Text.isAsciiAlphanumeric, Bool.or_eq_true,
    Bool.and_eq_true, decide_eq_true_eq, Char.le_def, UInt32.le_iff_toNat_le] at *
  have f_le_z : ('f' : Char).val.toNat ≤ ('z' : Char).val.toNat := by decide
  have F_le_Z : ('F' : Char).val.toNat ≤ ('Z' : Char).val.toNat := by decide
  omega

theorem beforeSemicolon_append_cons
    {name : List Char}
    (fresh : ';' ∉ name)
    (rest : List Char) :
    beforeSemicolon (name ++ ';' :: rest) = some name := by
  rw [beforeSemicolon, Text.splitOnce_append_cons fresh]
  rfl

/-- Whether a text has the form of a reference depends on the part before its first semicolon. -/
theorem hasReferenceForm_congr
    {first second : List Char}
    (same : beforeSemicolon first = beforeSemicolon second) :
    hasReferenceForm first = hasReferenceForm second := by
  unfold hasReferenceForm
  rw [same]

/-- A text with the form of a reference has a semicolon behind reference characters. -/
theorem exists_of_hasReferenceForm
    {text : List Char}
    (form : hasReferenceForm text = true) :
    ∃ name rest, text = name ++ ';' :: rest ∧ ∀ c ∈ name, isReferenceChar c = true := by
  have of_digits {isDigit : Char → Bool} {digits : List Char}
      (alphanumeric : ∀ c, isDigit c = true → Text.isAsciiAlphanumeric c = true)
      (all : (!digits.isEmpty && digits.all isDigit) = true) :
      ∀ c ∈ digits, isReferenceChar c = true := by
    intro c member
    have digit := List.all_eq_true.mp (Bool.and_eq_true_iff.mp all).2 c member
    simp [isReferenceChar, alphanumeric c digit]
  have of_name {name : List Char} (before : beforeSemicolon text = some name)
      (chars : ∀ c ∈ name, isReferenceChar c = true) :
      ∃ name rest, text = name ++ ';' :: rest ∧ ∀ c ∈ name, isReferenceChar c = true := by
    obtain ⟨⟨front, rest⟩, split, rfl⟩ := Option.map_eq_some_iff.mp before
    exact ⟨front, rest, Text.eq_append_of_splitOnce split, chars⟩
  unfold hasReferenceForm at form
  split at form
  · cases form
  · next digits before =>
      refine of_name before (List.forall_mem_cons.mpr ⟨rfl, List.forall_mem_cons.mpr ⟨rfl, ?_⟩⟩)
      exact of_digits (fun _ => isAsciiAlphanumeric_of_isHexDigit) form
  · next digits before =>
      refine of_name before (List.forall_mem_cons.mpr ⟨rfl, List.forall_mem_cons.mpr ⟨rfl, ?_⟩⟩)
      exact of_digits (fun _ => isAsciiAlphanumeric_of_isHexDigit) form
  · next digits _ _ before =>
      refine of_name before (List.forall_mem_cons.mpr ⟨rfl, ?_⟩)
      exact of_digits (fun _ => isAsciiAlphanumeric_of_isAsciiDigit) form
  · next name _ _ _ before =>
      refine of_name before ?_
      intro c member
      have alphanumeric := List.all_eq_true.mp (Bool.and_eq_true_iff.mp form).2 c member
      simp [isReferenceChar, alphanumeric]

theorem not_mem_of_isReferenceChar
    {c : Char}
    (other : isReferenceChar c = false)
    {name : List Char}
    (chars : ∀ d ∈ name, isReferenceChar d = true) :
    c ∉ name := by
  intro member
  rw [chars c member] at other
  cases other

/-- What follows a complete reference does not matter. -/
theorem hasReferenceForm_append
    {text : List Char}
    (form : hasReferenceForm text = true)
    (more : List Char) :
    hasReferenceForm (text ++ more) = true := by
  obtain ⟨name, rest, rfl, chars⟩ := exists_of_hasReferenceForm form
  have fresh := not_mem_of_isReferenceChar (c := ';') rfl chars
  rw [← form]
  apply hasReferenceForm_congr
  rw [List.append_assoc, List.cons_append, beforeSemicolon_append_cons fresh,
    beforeSemicolon_append_cons fresh]

/-- No reference reaches beyond a character that may not stand in one. -/
theorem hasReferenceForm_append_cons
    {c : Char}
    (other : isReferenceChar c = false)
    (notEnd : c ≠ ';')
    (text more : List Char) :
    hasReferenceForm (text ++ c :: more) = hasReferenceForm text := by
  by_cases ends : ';' ∈ text
  · obtain ⟨name, rest, rfl, fresh⟩ := List.eq_append_cons_of_mem ends
    apply hasReferenceForm_congr
    rw [List.append_assoc, List.cons_append, beforeSemicolon_append_cons fresh,
      beforeSemicolon_append_cons fresh]
  · have none_of_mem {longer : List Char} (inside : ∀ name rest, longer = name ++ ';' :: rest →
        c ∈ name) : hasReferenceForm longer = false := by
      rw [← Bool.not_eq_true]
      intro form
      obtain ⟨name, rest, split, chars⟩ := exists_of_hasReferenceForm form
      exact not_mem_of_isReferenceChar other chars (inside name rest split)
    rw [none_of_mem, none_of_mem]
    · rintro name rest rfl
      simp at ends
    · intro name rest split
      rcases List.append_eq_append_iff.mp split with ⟨between, rfl, tail⟩ | ⟨between, rfl, tail⟩
      · cases between with
        | nil => exact absurd (List.cons.inj tail).1 notEnd
        | cons d between =>
            obtain rfl : c = d := (List.cons.inj tail).1
            simp
      · cases between with
        | nil => exact absurd (List.cons.inj tail).1.symm notEnd
        | cons c between =>
            obtain rfl : ';' = c := (List.cons.inj tail).1
            simp at ends

/-! ## Prepared texts -/

/-- Every ampersand of a text starts a reference. -/
def AmpersandsRefer : List Char → Prop
  | [] => True
  | c :: rest => (c = '&' → hasReferenceForm rest = true) ∧ AmpersandsRefer rest

/-- Every opening angle bracket of a text starts markup. -/
def AnglesOpen : List Char → Prop
  | [] => True
  | c :: rest => (c = '<' → rest.head?.any opensMarkup = true) ∧ AnglesOpen rest

instance decidableAmpersandsRefer : (text : List Char) → Decidable (AmpersandsRefer text)
  | [] => .isTrue trivial
  | _ :: rest =>
      have := decidableAmpersandsRefer rest
      inferInstanceAs (Decidable (_ ∧ _))

instance decidableAnglesOpen : (text : List Char) → Decidable (AnglesOpen text)
  | [] => .isTrue trivial
  | _ :: rest =>
      have := decidableAnglesOpen rest
      inferInstanceAs (Decidable (_ ∧ _))

/-- A text that preparing leaves alone. -/
structure IsPrepared (text : List Char) : Prop where
  /-- Every ampersand starts a reference. -/
  refers : AmpersandsRefer text
  /-- Every opening angle bracket starts markup. -/
  opens : AnglesOpen text

theorem AmpersandsRefer.of_not_mem
    {text : List Char}
    (fresh : '&' ∉ text) :
    AmpersandsRefer text := by
  induction text with
  | nil => trivial
  | cons c rest inductionHypothesis =>
      obtain ⟨different, restFresh⟩ := List.ne_and_not_mem_of_not_mem_cons fresh
      exact ⟨fun same => absurd same.symm different, inductionHypothesis restFresh⟩

theorem AnglesOpen.of_not_mem
    {text : List Char}
    (fresh : '<' ∉ text) :
    AnglesOpen text := by
  induction text with
  | nil => trivial
  | cons c rest inductionHypothesis =>
      obtain ⟨different, restFresh⟩ := List.ne_and_not_mem_of_not_mem_cons fresh
      exact ⟨fun same => absurd same.symm different, inductionHypothesis restFresh⟩

theorem AmpersandsRefer.append
    {first second : List Char}
    (firstRefers : AmpersandsRefer first)
    (secondRefers : AmpersandsRefer second) :
    AmpersandsRefer (first ++ second) := by
  induction first with
  | nil => exact secondRefers
  | cons c rest inductionHypothesis =>
      obtain ⟨refers, restRefers⟩ := firstRefers
      exact ⟨fun ampersand => hasReferenceForm_append (refers ampersand) second,
        inductionHypothesis restRefers⟩

theorem AnglesOpen.append
    {first second : List Char}
    (firstOpens : AnglesOpen first)
    (secondOpens : AnglesOpen second) :
    AnglesOpen (first ++ second) := by
  induction first with
  | nil => exact secondOpens
  | cons c rest inductionHypothesis =>
      obtain ⟨opens, restOpens⟩ := firstOpens
      refine ⟨fun angle => ?_, inductionHypothesis restOpens⟩
      have opensHere := opens angle
      cases rest with
      | nil => simp at opensHere
      | cons d rest => exact opensHere

theorem AmpersandsRefer.of_append
    {first second : List Char}
    (refers : AmpersandsRefer (first ++ second)) :
    AmpersandsRefer second := by
  induction first with
  | nil => exact refers
  | cons c rest inductionHypothesis => exact inductionHypothesis refers.2

theorem AnglesOpen.of_append
    {first second : List Char}
    (opens : AnglesOpen (first ++ second)) :
    AnglesOpen second := by
  induction first with
  | nil => exact opens
  | cons c rest inductionHypothesis => exact inductionHypothesis opens.2

namespace IsPrepared

theorem append
    {first second : List Char}
    (firstPrepared : IsPrepared first)
    (secondPrepared : IsPrepared second) :
    IsPrepared (first ++ second) :=
  ⟨firstPrepared.refers.append secondPrepared.refers,
    firstPrepared.opens.append secondPrepared.opens⟩

theorem of_suffix
    {text suffix : List Char}
    (prepared : IsPrepared text)
    (isSuffix : suffix <:+ text) :
    IsPrepared suffix := by
  obtain ⟨front, rfl⟩ := isSuffix
  exact ⟨prepared.refers.of_append, prepared.opens.of_append⟩

/-- A text without ampersands and opening angle brackets is prepared. -/
theorem of_not_mem
    {text : List Char}
    (noAmpersand : '&' ∉ text)
    (noAngle : '<' ∉ text) :
    IsPrepared text :=
  ⟨.of_not_mem noAmpersand, .of_not_mem noAngle⟩

end IsPrepared

/-! ## Preparing -/

theorem escapeBareAmpersands_of_refers
    {text : List Char}
    (refers : AmpersandsRefer text) :
    escapeBareAmpersands text = text := by
  induction text with
  | nil => rfl
  | cons c rest inductionHypothesis =>
      obtain ⟨refersHere, restRefers⟩ := refers
      have kept : ¬(c = '&' && !hasReferenceForm rest) = true := by
        intro bare
        simp only [Bool.and_eq_true, decide_eq_true_eq, Bool.not_eq_true'] at bare
        rw [refersHere bare.1] at bare
        cases bare.2
      rw [escapeBareAmpersands, if_neg kept, inductionHypothesis restRefers]

theorem escapeBareAngles_of_opens
    {text : List Char}
    (opens : AnglesOpen text) :
    escapeBareAngles text = text := by
  induction text with
  | nil => rfl
  | cons c rest inductionHypothesis =>
      obtain ⟨opensHere, restOpens⟩ := opens
      have kept : ¬(c = '<' && !rest.head?.any opensMarkup) = true := by
        intro bare
        simp only [Bool.and_eq_true, decide_eq_true_eq, Bool.not_eq_true'] at bare
        rw [opensHere bare.1] at bare
        cases bare.2
      rw [escapeBareAngles, if_neg kept, inductionHypothesis restOpens]

/-- Preparing leaves a prepared text alone. -/
theorem prepare_eq_self
    {text : List Char}
    (prepared : IsPrepared text) :
    prepare text = text := by
  rw [prepare, escapeBareAmpersands_of_refers prepared.refers,
    escapeBareAngles_of_opens prepared.opens]

theorem escapeBareAmpersands_append
    {front : List Char}
    (fresh : '&' ∉ front)
    (rest : List Char) :
    escapeBareAmpersands (front ++ rest) = front ++ escapeBareAmpersands rest := by
  induction front with
  | nil => rfl
  | cons c front inductionHypothesis =>
      obtain ⟨different, frontFresh⟩ := List.ne_and_not_mem_of_not_mem_cons fresh
      rw [List.cons_append, escapeBareAmpersands, if_neg (by simp [Ne.symm different]),
        inductionHypothesis frontFresh, List.cons_append]

theorem escapeBareAngles_append
    {front : List Char}
    (fresh : '<' ∉ front)
    (rest : List Char) :
    escapeBareAngles (front ++ rest) = front ++ escapeBareAngles rest := by
  induction front with
  | nil => rfl
  | cons c front inductionHypothesis =>
      obtain ⟨different, frontFresh⟩ := List.ne_and_not_mem_of_not_mem_cons fresh
      rw [List.cons_append, escapeBareAngles, if_neg (by simp [Ne.symm different]),
        inductionHypothesis frontFresh, List.cons_append]

theorem hasReferenceForm_escapeBareAmpersands
    {text : List Char}
    (form : hasReferenceForm text = true) :
    hasReferenceForm (escapeBareAmpersands text) = true := by
  obtain ⟨name, rest, rfl, chars⟩ := exists_of_hasReferenceForm form
  have fresh := not_mem_of_isReferenceChar (c := ';') rfl chars
  rw [escapeBareAmpersands_append (not_mem_of_isReferenceChar rfl chars), ← form]
  apply hasReferenceForm_congr
  rw [escapeBareAmpersands, if_neg (by simp), beforeSemicolon_append_cons fresh,
    beforeSemicolon_append_cons fresh]

theorem hasReferenceForm_escapeBareAngles
    {text : List Char}
    (form : hasReferenceForm text = true) :
    hasReferenceForm (escapeBareAngles text) = true := by
  obtain ⟨name, rest, rfl, chars⟩ := exists_of_hasReferenceForm form
  have fresh := not_mem_of_isReferenceChar (c := ';') rfl chars
  rw [escapeBareAngles_append (not_mem_of_isReferenceChar rfl chars), ← form]
  apply hasReferenceForm_congr
  rw [escapeBareAngles, if_neg (by simp), beforeSemicolon_append_cons fresh,
    beforeSemicolon_append_cons fresh]

theorem ampersandsRefer_escapeBareAmpersands (text : List Char) :
    AmpersandsRefer (escapeBareAmpersands text) := by
  fun_induction escapeBareAmpersands text with
  | case1 => trivial
  | case2 c rest bare inductionHypothesis =>
      exact .append (by decide) inductionHypothesis
  | case3 c rest kept inductionHypothesis =>
      refine ⟨fun ampersand => hasReferenceForm_escapeBareAmpersands ?_, inductionHypothesis⟩
      simpa [ampersand] using kept

theorem ampersandsRefer_escapeBareAngles
    {text : List Char}
    (refers : AmpersandsRefer text) :
    AmpersandsRefer (escapeBareAngles text) := by
  fun_induction escapeBareAngles text with
  | case1 => trivial
  | case2 c rest bare inductionHypothesis =>
      exact .append (by decide) (inductionHypothesis refers.2)
  | case3 c rest kept inductionHypothesis =>
      exact ⟨fun ampersand => hasReferenceForm_escapeBareAngles (refers.1 ampersand),
        inductionHypothesis refers.2⟩

theorem anglesOpen_escapeBareAngles (text : List Char) :
    AnglesOpen (escapeBareAngles text) := by
  fun_induction escapeBareAngles text with
  | case1 => trivial
  | case2 c rest bare inductionHypothesis =>
      exact .append (by decide) inductionHypothesis
  | case3 c rest kept inductionHypothesis =>
      refine ⟨fun angle => ?_, inductionHypothesis⟩
      have opens : rest.head?.any opensMarkup = true := by simpa [angle] using kept
      cases rest with
      | nil => simp at opens
      | cons d rest =>
          have different : d ≠ '<' := by
            rintro rfl
            cases opens
          rw [escapeBareAngles, if_neg (by simp [different])]
          exact opens

/-- What is prepared is prepared. -/
theorem isPrepared_prepare (text : List Char) : IsPrepared (prepare text) :=
  ⟨ampersandsRefer_escapeBareAngles (ampersandsRefer_escapeBareAmpersands text),
    anglesOpen_escapeBareAngles (escapeBareAmpersands text)⟩

/-- Ampersands are escaped on both sides of a character that may not stand in a reference. -/
theorem escapeBareAmpersands_append_cons
    {c : Char}
    (other : isReferenceChar c = false)
    (notEnd : c ≠ ';')
    (notAmpersand : c ≠ '&')
    (text more : List Char) :
    escapeBareAmpersands (text ++ c :: more) =
      escapeBareAmpersands text ++ c :: escapeBareAmpersands more := by
  induction text with
  | nil => simp [escapeBareAmpersands, notAmpersand]
  | cons d rest inductionHypothesis =>
      rw [List.cons_append, escapeBareAmpersands, escapeBareAmpersands,
        hasReferenceForm_append_cons other notEnd, inductionHypothesis]
      split <;> simp

theorem escapeBareAngles_append_angle (text more : List Char) :
    escapeBareAngles (text ++ '<' :: more) =
      escapeBareAngles text ++ escapeBareAngles ('<' :: more) := by
  induction text with
  | nil => rfl
  | cons c rest inductionHypothesis =>
      have sameHead : (rest ++ '<' :: more).head?.any opensMarkup =
          rest.head?.any opensMarkup := by
        cases rest <;> rfl
      rw [List.cons_append, escapeBareAngles, escapeBareAngles, sameHead, inductionHypothesis]
      split <;> simp

/-- What stands in front of an angle bracket is prepared on its own. -/
theorem prepare_append_angle (text more : List Char) :
    prepare (text ++ '<' :: more) = prepare text ++ prepare ('<' :: more) := by
  rw [prepare, escapeBareAmpersands_append_cons rfl (by decide) (by decide),
    escapeBareAngles_append_angle]
  simp [prepare, escapeBareAmpersands]

theorem escapeBareAngles_append_cons
    {c : Char}
    (notAngle : c ≠ '<')
    (opensNothing : opensMarkup c = false)
    (text more : List Char) :
    escapeBareAngles (text ++ c :: more) = escapeBareAngles text ++ c :: escapeBareAngles more := by
  induction text with
  | nil => simp [escapeBareAngles, notAngle]
  | cons d rest inductionHypothesis =>
      have sameHead : (rest ++ c :: more).head?.any opensMarkup = rest.head?.any opensMarkup := by
        cases rest with
        | nil => simp [opensNothing]
        | cons e rest => rfl
      rw [List.cons_append, escapeBareAngles, escapeBareAngles, sameHead, inductionHypothesis]
      split <;> simp

/-- What stands on both sides of a character that neither a reference nor markup needs is prepared
on its own. -/
theorem prepare_append_cons
    {c : Char}
    (other : isReferenceChar c = false)
    (special : c ∉ [';', '&', '<'])
    (opensNothing : opensMarkup c = false)
    (text more : List Char) :
    prepare (text ++ c :: more) = prepare text ++ c :: prepare more := by
  simp only [List.mem_cons, List.not_mem_nil, not_or, or_false] at special
  rw [prepare, escapeBareAmpersands_append_cons other special.1 special.2.1,
    escapeBareAngles_append_cons special.2.2 opensNothing, prepare, prepare]

/-- Markup without ampersands is left alone, up to what follows it. -/
theorem prepare_append_of_opens
    {front : List Char}
    (noAmpersand : '&' ∉ front)
    (opens : AnglesOpen front)
    (rest : List Char) :
    prepare (front ++ rest) = front ++ prepare rest := by
  rw [prepare, escapeBareAmpersands_append noAmpersand, prepare]
  generalize escapeBareAmpersands rest = rest
  induction front with
  | nil => rfl
  | cons c front inductionHypothesis =>
      obtain ⟨opensHere, frontOpens⟩ := opens
      have kept : ¬(c = '<' && !(front ++ rest).head?.any opensMarkup) = true := by
        intro bare
        simp only [Bool.and_eq_true, decide_eq_true_eq, Bool.not_eq_true'] at bare
        have opened := opensHere bare.1
        cases front with
        | nil => simp at opened
        | cons d front =>
            rw [List.cons_append, List.head?_cons] at bare
            rw [List.head?_cons, bare.2] at opened
            cases opened
      rw [List.cons_append, escapeBareAngles, if_neg kept,
        inductionHypothesis (List.not_mem_of_not_mem_cons noAmpersand) frontOpens,
        List.cons_append]

end Markup
end MailPress
