/-!
# Finding and replacing

Search for one fixed pattern in a text, and the three uses made of it: cutting
at the first occurrence, cutting at the last one, and replacing every
occurrence.

A text is a character list. Occurrences are found from left to right and do not
overlap.
-/

namespace MailPress
namespace Text

/-- The part of the text after `pattern`, when the text starts with it. -/
def dropStart? : (pattern text : List Char) → Option (List Char)
  | [], text => some text
  | _ :: _, [] => none
  | p :: pattern, c :: text => if p = c then dropStart? pattern text else none

/-- Whether the text starts with `pattern`. -/
def startsWith (pattern text : List Char) : Bool :=
  (dropStart? pattern text).isSome

/-- Whether the text ends with `pattern`. -/
def endsWith (pattern text : List Char) : Bool :=
  startsWith pattern.reverse text.reverse

/-- The parts before and after the first occurrence of `pattern`. -/
def splitOnce (pattern : List Char) : List Char → Option (List Char × List Char)
  | [] => if pattern.isEmpty then some ([], []) else none
  | c :: text =>
      match dropStart? pattern (c :: text) with
      | some after => some ([], after)
      | none => (splitOnce pattern text).map fun parts => (c :: parts.1, parts.2)

theorem eq_append_of_dropStart?
    {pattern text after : List Char}
    (dropped : dropStart? pattern text = some after) :
    text = pattern ++ after := by
  fun_induction dropStart? pattern text with
  | case1 text => exact Option.some.inj dropped
  | case2 => cases dropped
  | case3 pattern c text ih => rw [ih dropped, List.cons_append]
  | case4 => cases dropped

theorem eq_append_of_splitOnce
    {pattern text before after : List Char}
    (split : splitOnce pattern text = some (before, after)) :
    text = before ++ (pattern ++ after) := by
  fun_induction splitOnce pattern text generalizing before with
  | case1 empty =>
      cases split
      rw [List.isEmpty_iff.mp empty]
      rfl
  | case2 => cases split
  | case3 c text rest dropped =>
      cases split
      rw [List.nil_append]
      exact eq_append_of_dropStart? dropped
  | case4 c text dropped ih =>
      obtain ⟨parts, cut, rfl, rfl⟩ : ∃ parts, splitOnce pattern text = some parts ∧
          c :: parts.1 = before ∧ parts.2 = after := by
        obtain ⟨parts, cut, eq⟩ := Option.map_eq_some_iff.mp split
        exact ⟨parts, cut, congrArg Prod.fst eq, congrArg Prod.snd eq⟩
      rw [List.cons_append, ← ih cut]

theorem length_add_of_dropStart?
    {pattern text after : List Char}
    (dropped : dropStart? pattern text = some after) :
    pattern.length + after.length = text.length := by
  rw [eq_append_of_dropStart? dropped, List.length_append]

theorem length_splitOnce_le
    {pattern text before after : List Char}
    (split : splitOnce pattern text = some (before, after)) :
    after.length ≤ text.length := by
  rw [eq_append_of_splitOnce split, List.length_append, List.length_append]
  omega

/-- The parts before and after the last occurrence of `pattern`. -/
def splitLast (pattern text : List Char) : Option (List Char × List Char) :=
  (splitOnce pattern.reverse text.reverse).map fun parts =>
    (parts.2.reverse, parts.1.reverse)

/-- Whether `pattern` occurs somewhere in the text. -/
def occursIn (pattern text : List Char) : Bool :=
  (splitOnce pattern text).isSome

/-- Replace occurrences of `pattern`, after skipping the given number of characters. -/
def replaceFrom (pattern replacement : List Char) : Nat → List Char → List Char
  | _, [] => []
  | skip + 1, _ :: text => replaceFrom pattern replacement skip text
  | 0, c :: text =>
      if startsWith pattern (c :: text) then
        replacement ++ replaceFrom pattern replacement (pattern.length - 1) text
      else
        c :: replaceFrom pattern replacement 0 text

/-- Replace every occurrence of the non-empty `pattern`. -/
def replaceAll (pattern replacement text : List Char) : List Char :=
  replaceFrom pattern replacement 0 text

/-- Whether the text starts with `pattern`. -/
def hasStart (pattern text : String) : Bool :=
  startsWith pattern.toList text.toList

/-- Whether the text ends with `pattern`. -/
def hasEnd (pattern text : String) : Bool :=
  endsWith pattern.toList text.toList

/-- Whether `pattern` occurs somewhere in the text. -/
def holds (pattern text : String) : Bool :=
  occursIn pattern.toList text.toList

/-- Replace every occurrence of the non-empty `pattern`. -/
def substitute (pattern replacement text : String) : String :=
  String.ofList (replaceAll pattern.toList replacement.toList text.toList)

end Text
end MailPress
