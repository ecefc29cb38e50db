import Mathlib.Data.List.DropRight
import SqlLayout.Text.Blank

/-!
# Trimming and blank characters

Trimming removes blank characters only, and only from the ends of a text. The laws here say what
is left of a text that is put together from parts (`trimEnd_append`), that the two ends are
trimmed independently (`trimEnd_dropWhile`), and that the characters of a text that are not blank
stay (`inked_trim`).
-/

namespace SqlLayout.Text

/-- Whether a text has blank characters only. -/
def IsBlankText (text : List Char) : Prop :=
  ∀ c ∈ text, isBlank c = true

/-- Whether a text is blank can be decided. -/
instance (text : List Char) : Decidable (IsBlankText text) :=
  decidable_of_iff (text.all isBlank = true) List.all_eq_true

/-- The characters of a text that are not blank. -/
def inked (text : List Char) : List Char :=
  text.filter fun c => !isBlank c

/-! ## Trimming the end -/

/-- Nothing is left of a text exactly when it is blank. -/
theorem trimEnd_eq_nil_iff {text : List Char} : trimEnd text = [] ↔ IsBlankText text :=
  List.rdropWhile_eq_nil_iff

/-- A text is what trimming leaves of it, with blank characters behind. -/
theorem trimEnd_append_blanks (text : List Char) :
    ∃ blanks, text = trimEnd text ++ blanks ∧ IsBlankText blanks := by
  refine ⟨text.rtakeWhile isBlank, ?_, fun c member => List.mem_rtakeWhile_imp member⟩
  exact List.rdropWhile_append_rtakeWhile.symm

/-- Trimming an end reaches into the first part of a text exactly when the second is blank. -/
theorem trimEnd_append (front back : List Char) :
    trimEnd (front ++ back) =
      if trimEnd back = [] then trimEnd front else front ++ trimEnd back := by
  unfold trimEnd
  rw [List.reverse_append, List.dropWhile_append]
  cases h : back.reverse.dropWhile isBlank with
  | nil => simp
  | cons c rest => simp

/-- Blank characters at the end are trimmed. -/
theorem trimEnd_append_of_blank {front blanks : List Char} (blank : IsBlankText blanks) :
    trimEnd (front ++ blanks) = trimEnd front := by
  rw [trimEnd_append, if_pos (trimEnd_eq_nil_iff.2 blank)]

/-- What trimming leaves of a text depends on its last part through the trimmed last part only. -/
theorem trimEnd_append_congr (front : List Char) {back other : List Char}
    (same : trimEnd back = trimEnd other) : trimEnd (front ++ back) = trimEnd (front ++ other) := by
  rw [trimEnd_append, trimEnd_append, same]

/-- A text that ends in a character that is not blank is left as it is. -/
theorem trimEnd_concat {front : List Char} {last : Char} (ink : isBlank last = false) :
    trimEnd (front ++ [last]) = front ++ [last] :=
  List.rdropWhile_concat_neg _ _ _ (by simp [ink])

/-- A text without blank characters is left as it is. -/
theorem trimEnd_eq_self {text : List Char} (ink : ∀ c ∈ text, isBlank c = false) :
    trimEnd text = text := by
  refine List.rdropWhile_eq_self_iff.2 fun nonempty => ?_
  simp [ink _ (List.getLast_mem nonempty)]

/-- Trimming an end twice is trimming it once. -/
theorem trimEnd_trimEnd (text : List Char) : trimEnd (trimEnd text) = trimEnd text :=
  List.rdropWhile_idempotent _ _

/-- The first character of a text stays when it is not blank. -/
theorem trimEnd_cons {c : Char} (ink : isBlank c = false) (text : List Char) :
    trimEnd (c :: text) = c :: trimEnd text := by
  have single : trimEnd [c] = [c] := trimEnd_eq_self (by simp [ink])
  rw [← List.singleton_append, trimEnd_append, single]
  split
  · rename_i none_left
    rw [none_left]
  · rfl

/-! ## Trimming both ends -/

/-- Blank characters at the front are trimmed. -/
theorem dropWhile_append_of_blank {blanks : List Char} (blank : IsBlankText blanks)
    (text : List Char) : (blanks ++ text).dropWhile isBlank = text.dropWhile isBlank := by
  rw [List.dropWhile_append, List.dropWhile_eq_nil_iff.2 blank]
  rfl

/-- The two ends are trimmed independently of each other. -/
theorem trimEnd_dropWhile (text : List Char) :
    trimEnd (text.dropWhile isBlank) = (trimEnd text).dropWhile isBlank := by
  induction text with
  | nil => rfl
  | cons c rest ih =>
    cases blank : isBlank c with
    | false => simp [trimEnd_cons blank, blank]
    | true =>
      rw [List.dropWhile_cons_of_pos blank, ih, ← List.singleton_append, trimEnd_append]
      split
      · rename_i none_left
        have cleared : trimEnd [c] = [] := trimEnd_eq_nil_iff.2 (by simpa [IsBlankText] using blank)
        rw [none_left, cleared]
      · rw [List.singleton_append, List.dropWhile_cons_of_pos blank]

/-- Blank characters at the front do not matter for a trimmed text. -/
theorem trim_append_of_blank {blanks : List Char} (blank : IsBlankText blanks)
    (text : List Char) : trim (blanks ++ text) = trim text := by
  rw [trim, trim, dropWhile_append_of_blank blank]

/-- A text whose first character is not blank is trimmed at its end only. -/
theorem trim_cons {c : Char} (ink : isBlank c = false) (text : List Char) :
    trim (c :: text) = trimEnd (c :: text) := by
  rw [trim, List.dropWhile_cons_of_neg (by simp [ink])]

/-- Texts that agree once their ends are trimmed agree once they are trimmed. -/
theorem trim_congr {text other : List Char} (same : trimEnd text = trimEnd other) :
    trim text = trim other := by
  rw [trim, trim, trimEnd_dropWhile, trimEnd_dropWhile, same]

/-! ## What is not blank -/

/-- The characters of two texts that are not blank follow each other. -/
theorem inked_append (front back : List Char) :
    inked (front ++ back) = inked front ++ inked back :=
  List.filter_append ..

/-- Exactly a blank text has no other characters. -/
theorem inked_eq_nil_iff {text : List Char} : inked text = [] ↔ IsBlankText text := by
  rw [inked, List.filter_eq_nil_iff, IsBlankText]
  simp

/-- A blank text has no other characters. -/
theorem inked_eq_nil {text : List Char} (blank : IsBlankText text) : inked text = [] :=
  inked_eq_nil_iff.2 blank

/-- Trimming an end removes blank characters only. -/
theorem inked_trimEnd (text : List Char) : inked (trimEnd text) = inked text := by
  obtain ⟨blanks, whole, blank⟩ := trimEnd_append_blanks text
  conv_rhs => rw [whole, inked_append, inked_eq_nil blank, List.append_nil]

/-- Passing over a run of blank characters loses no other character. -/
theorem inked_dropWhile {isDropped : Char → Bool} (blank : ∀ c, isDropped c → isBlank c = true)
    (text : List Char) : inked (text.dropWhile isDropped) = inked text := by
  have cleared : inked (text.takeWhile isDropped) = [] :=
    inked_eq_nil fun c member => blank c (List.mem_takeWhile_imp member)
  have whole : text.takeWhile isDropped ++ text.dropWhile isDropped = text :=
    List.takeWhile_append_dropWhile
  conv_rhs => rw [← whole, inked_append, cleared, List.nil_append]

/-- Trimming removes blank characters only. -/
theorem inked_trim (text : List Char) : inked (trim text) = inked text := by
  rw [trim, inked_trimEnd, inked_dropWhile fun _ blank => blank]

end SqlLayout.Text
