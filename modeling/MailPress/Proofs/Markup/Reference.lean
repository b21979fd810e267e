import MailPress.Markup.Reference
import MailPress.Proofs.Text.Search

/-!
# Escaped values are read back

A plain value that was escaped for an attribute is the value that the decoder
finds there, whatever its characters.

Text without ampersands in front of a value or behind it is left as it is. Behind a value it must
not end a reference that the value starts, which only a semicolon can do.
-/

namespace MailPress
namespace Markup

/-- Decoding passes over a character that opens no reference. -/
theorem decodeFrom_cons_of_ne
    {c : Char}
    (plain : c ≠ '&')
    (rest : List Char) :
    decodeFrom 0 (c :: rest) = c :: decodeFrom 0 rest := by
  simp [decodeFrom, plain]

/-- An escaped character is decoded to itself, and decoding goes on behind it. -/
theorem decodeFrom_escapeAttributeChar
    (c : Char)
    (rest : List Char) :
    decodeFrom 0 (escapeAttributeChar c ++ rest) = c :: decodeFrom 0 rest := by
  unfold escapeAttributeChar
  split
  · next ampersand =>
      subst ampersand
      rfl
  · next plain =>
      split
      · next quote =>
          subst quote
          rfl
      · split
        · next angle =>
            subst angle
            rfl
        · exact decodeFrom_cons_of_ne plain rest

theorem decodeFrom_flatMap_escapeAttributeChar (text : List Char) :
    decodeFrom 0 (text.flatMap escapeAttributeChar) = text := by
  induction text with
  | nil => rfl
  | cons c text inductionHypothesis =>
      rw [List.flatMap_cons, decodeFrom_escapeAttributeChar, inductionHypothesis]

/-- Decoding an escaped value gives the value. -/
theorem decode_escapeAttribute (value : String) :
    decode (escapeAttribute value) = value := by
  rw [decode, escapeAttribute, String.toList_ofList,
    decodeFrom_flatMap_escapeAttributeChar, String.ofList_toList]

/-! ## Text around a value -/

/-- Text without ampersands is left as it is in front of a value. -/
theorem decodeFrom_append_left
    {front : List Char}
    (plain : '&' ∉ front)
    (rest : List Char) :
    decodeFrom 0 (front ++ rest) = front ++ decodeFrom 0 rest := by
  induction front with
  | nil => rfl
  | cons c front inductionHypothesis =>
      obtain ⟨different, plainRest⟩ := List.ne_and_not_mem_of_not_mem_cons plain
      rw [List.cons_append, decodeFrom_cons_of_ne (Ne.symm different),
        inductionHypothesis plainRest, List.cons_append]

/-- Whether a reference starts is settled in front of a text that does not end it. -/
theorem referenceAt?_append
    {text more : List Char}
    (ended : ';' ∈ text ∨ ';' ∉ more) :
    referenceAt? (text ++ more) = referenceAt? text := by
  have before_eq : beforeSemicolon (text ++ more) = beforeSemicolon text := by
    unfold beforeSemicolon
    cases cut : Text.splitOnce [';'] text with
    | some parts =>
        rw [Text.splitOnce_append cut]
        rfl
    | none =>
        have fresh := Text.splitOnce_eq_none_iff.mp cut
        have freshMore := ended.resolve_left fresh
        have uncut : Text.splitOnce [';'] (text ++ more) = none :=
          Text.splitOnce_eq_none_iff.mpr (by simp [fresh, freshMore])
        rw [uncut]
  rw [referenceAt?, before_eq, referenceAt?]

/-- A reference lies in the text that starts it. -/
theorem le_of_referenceAt?
    {text : List Char}
    {denoted : Char}
    {length : Nat}
    (denotes : referenceAt? text = some (denoted, length)) :
    length ≤ text.length := by
  unfold referenceAt? beforeSemicolon at denotes
  split at denotes
  · cases denotes
  · next name found =>
      obtain ⟨⟨before, after⟩, cut, rfl⟩ := Option.map_eq_some_iff.mp found
      split at denotes
      · obtain ⟨c, _, same⟩ := Option.map_eq_some_iff.mp denotes
        obtain ⟨_, rfl⟩ := Prod.mk.inj same
        rw [Text.eq_append_of_splitOnce cut]
        simp
      · cases denotes

/-- Text without ampersands is left as it is behind a value, when the value ends in a semicolon
or the text has none. -/
theorem decodeFrom_append
    {skip : Nat}
    {text more : List Char}
    (inside : skip ≤ text.length)
    (plain : '&' ∉ more)
    (ended : (∀ c ∈ text.getLast?, c = ';') ∨ ';' ∉ more) :
    decodeFrom skip (text ++ more) = decodeFrom skip text ++ more := by
  have endedRest (c : Char) (rest : List Char) (ended : (∀ d ∈ (c :: rest).getLast?, d = ';')) :
      ∀ d ∈ rest.getLast?, d = ';' := by
    intro d last
    refine ended d ?_
    rw [List.getLast?_cons, last]
    rfl
  have starts (rest : List Char) (ended : (∀ c ∈ ('&' :: rest).getLast?, c = ';') ∨ ';' ∉ more) :
      referenceAt? (rest ++ more) = referenceAt? rest := by
    refine referenceAt?_append (ended.imp_left fun last => ?_)
    rcases List.eq_nil_or_concat rest with rfl | ⟨others, c, rfl⟩
    · exact absurd (last '&' rfl) (by decide)
    · obtain rfl := endedRest '&' _ last c (by simp)
      simp
  fun_induction decodeFrom skip text with
  | case1 skip =>
      obtain rfl : skip = 0 := by simpa using inside
      simpa [decodeFrom] using decodeFrom_append_left plain []
  | case2 skip c rest inductionHypothesis =>
      rw [List.cons_append, decodeFrom]
      exact inductionHypothesis (by simpa using inside) (ended.imp_left (endedRest c rest))
  | case3 rest denoted length denotes inductionHypothesis =>
      rw [List.cons_append, decodeFrom, if_pos rfl, starts rest ended, denotes]
      dsimp only
      rw [inductionHypothesis (le_of_referenceAt? denotes) (ended.imp_left (endedRest '&' rest)),
        List.cons_append]
  | case4 rest denotesNothing inductionHypothesis =>
      rw [List.cons_append, decodeFrom, if_pos rfl, starts rest ended, denotesNothing]
      dsimp only
      rw [inductionHypothesis (Nat.zero_le _) (ended.imp_left (endedRest '&' rest)),
        List.cons_append]
  | case5 c rest other inductionHypothesis =>
      rw [List.cons_append, decodeFrom_cons_of_ne other,
        inductionHypothesis (Nat.zero_le _) (ended.imp_left (endedRest c rest)),
        List.cons_append]

/-- The same of whole values. -/
theorem decode_append
    {value more : String}
    (plain : '&' ∉ more.toList)
    (ended : Text.hasEnd ";" value = true ∨ ';' ∉ more.toList) :
    decode (value ++ more) = decode value ++ more := by
  have finish : (∀ c ∈ value.toList.getLast?, c = ';') ∨ ';' ∉ more.toList := by
    refine ended.imp_left fun ends c last => ?_
    have semicolon : (value.toList.getLast? == some ';') = true :=
      (Text.endsWith_singleton ';' value.toList).symm.trans ends
    rw [beq_iff_eq.mp semicolon] at last
    exact (Option.some.inj last).symm
  rw [decode, String.toList_append, decodeFrom_append (Nat.zero_le _) plain finish,
    String.ofList_append, String.ofList_toList, decode]

end Markup
end MailPress
