import Mathlib.Algebra.Order.BigOperators.Group.List
import Mathlib.Algebra.Order.Group.Nat
import SqlLayout.Proofs.Conservation

/-!
# Texts under two indent sizes

Which pieces a layout has does not depend on the indent size, and trimming takes away those without ink at
its two ends. So two sizes give one text exactly if none of the pieces in between indents its line
(`format_resized_eq_iff`): every indentation there is wider under the greater size, and nothing is narrower.
-/

namespace SqlLayout

open Text

/-- Whether a piece is written in blank characters only. -/
def Piece.isBlank (letterCase : KeywordCase) : Piece → Bool
  | .word token => (token.shown letterCase).toList.all Text.isBlank
  | _ => true

/-- The pieces from the first with ink to the last. -/
def inkedPieces (letterCase : KeywordCase) (pieces : List Piece) : List Piece :=
  (pieces.dropWhile (Piece.isBlank letterCase)).rdropWhile (Piece.isBlank letterCase)

/-- Whether a piece indents its line. -/
def Piece.indents : Piece → Bool
  | .indent level => decide (0 < level)
  | _ => false

/-- Whether a layout indents a line between its first ink and its last. -/
def Indents (letterCase : KeywordCase) (pieces : List Piece) : Prop :=
  ∃ piece ∈ inkedPieces letterCase pieces, piece.indents = true

/-- Whether a layout indents a line can be decided. -/
instance (letterCase : KeywordCase) (pieces : List Piece) : Decidable (Indents letterCase pieces) :=
  inferInstanceAs (Decidable (∃ piece ∈ inkedPieces letterCase pieces, piece.indents = true))

/-- The same options with another indent size. -/
def Options.resized (options : Options) (size : Int) : Options :=
  { options with indentSize := size }

section Sizes

variable {options : Options} {pieces : List Piece}

/-! ## Where trimming stops -/

/-- A piece is written in blank characters exactly if it says so. -/
theorem Piece.isBlank_iff (options : Options) (piece : Piece) :
    piece.isBlank options.keywordCase = true ↔ IsBlankText (piece.text options) := by
  cases piece with
  | word token => exact List.all_eq_true
  | newline => exact ⟨fun _ c member => by rw [List.mem_singleton.1 member]; decide, fun _ => rfl⟩
  | indent level => exact ⟨fun _ c member => by rw [List.eq_of_mem_replicate member]; decide, fun _ => rfl⟩
  | space => exact ⟨fun _ c member => by rw [List.mem_singleton.1 member]; decide, fun _ => rfl⟩

/-- Pieces that are blank are written in blank characters. -/
theorem isBlankText_writtenText (blank : ∀ piece ∈ pieces, piece.isBlank options.keywordCase = true) :
    IsBlankText (writtenText options pieces) := by
  intro c member
  obtain ⟨piece, inside, written⟩ := List.mem_flatMap.1 member
  exact (piece.isBlank_iff options).1 (blank piece inside) c written

/-- The trimmed text is that of the pieces from the first with ink to the last. -/
theorem trim_inkedPieces (options : Options) (pieces : List Piece) :
    trim (writtenText options (inkedPieces options.keywordCase pieces)) =
      trim (writtenText options pieces) := by
  let blank := Piece.isBlank options.keywordCase
  have front : pieces = pieces.takeWhile blank ++ pieces.dropWhile blank :=
    List.takeWhile_append_dropWhile.symm
  have back : pieces.dropWhile blank =
      inkedPieces options.keywordCase pieces ++ (pieces.dropWhile blank).rtakeWhile blank :=
    List.rdropWhile_append_rtakeWhile.symm
  have before : IsBlankText (writtenText options (pieces.takeWhile blank)) :=
    isBlankText_writtenText fun _ member => List.mem_takeWhile_imp member
  have behind : IsBlankText (writtenText options ((pieces.dropWhile blank).rtakeWhile blank)) :=
    isBlankText_writtenText fun _ member => List.mem_rtakeWhile_imp member
  conv_rhs => rw [front, writtenText_append, trim_append_of_blank before, back, writtenText_append]
  exact (trim_congr (trimEnd_append_of_blank behind)).symm

/-- A blank piece between the first ink and the last stands between two pieces with ink. -/
theorem exists_between {letterCase : KeywordCase} {piece : Piece}
    (member : piece ∈ inkedPieces letterCase pieces) (blank : piece.isBlank letterCase = true) :
    ∃ first inside last, inkedPieces letterCase pieces = first :: (inside ++ [last]) ∧
      first.isBlank letterCase = false ∧ last.isBlank letterCase = false ∧ piece ∈ inside := by
  have nonempty : inkedPieces letterCase pieces ≠ [] := List.ne_nil_of_mem member
  have lastInk := List.rdropWhile_last_not _ _ nonempty
  obtain ⟨others, whole⟩ := List.rdropWhile_prefix (Piece.isBlank letterCase)
    (pieces.dropWhile (Piece.isBlank letterCase))
  obtain ⟨first, rest, split⟩ := List.exists_cons_of_ne_nil nonempty
  have firstInk : first.isBlank letterCase = false := by
    rw [← inkedPieces, split, List.cons_append] at whole
    have front := List.head?_dropWhile_not (Piece.isBlank letterCase) pieces
    rw [← whole] at front
    simpa using front
  have inRest : piece ∈ rest := by
    rw [split] at member
    refine (List.mem_cons.1 member).resolve_left fun same => ?_
    rw [← same, blank] at firstInk
    cases firstInk
  obtain ⟨inside, last, rfl⟩ := (List.eq_nil_or_concat' rest).resolve_left (List.ne_nil_of_mem inRest)
  have ends : (inkedPieces letterCase pieces).getLast nonempty = last := by simp [split]
  have ink : last.isBlank letterCase = false := by
    rw [← ends]
    exact Bool.eq_false_iff.2 lastInk
  refine ⟨first, inside, last, split, firstInk, ink, ?_⟩
  refine (List.mem_append.1 inRest).resolve_right fun same => ?_
  rw [← List.mem_singleton.1 same, blank] at ink
  cases ink

/-- Between two pieces with ink everything is kept by trimming. -/
theorem trim_between {first last : Piece} {inside : List Piece}
    (front : first.isBlank options.keywordCase = false) (back : last.isBlank options.keywordCase = false) :
    trim (writtenText options (first :: (inside ++ [last]))) =
      (first.text options).dropWhile isBlank ++
        (writtenText options inside ++ trimEnd (last.text options)) := by
  have frontInk : ¬(first.text options).dropWhile isBlank = [] := by
    rw [List.dropWhile_eq_nil_iff, ← IsBlankText, ← first.isBlank_iff, front]
    exact Bool.false_ne_true
  have backInk : ¬trimEnd (last.text options) = [] := by
    rw [trimEnd_eq_nil_iff, ← last.isBlank_iff, back]
    exact Bool.false_ne_true
  have written : writtenText options (first :: (inside ++ [last])) =
      first.text options ++ (writtenText options inside ++ last.text options) := by
    simp [writtenText]
  rw [written, trim, List.dropWhile_append, if_neg (by simpa using frontInk), ← List.append_assoc,
    trimEnd_append, if_neg backInk, List.append_assoc]

/-! ## What an indent size decides -/

/-- No indentation is narrower under a greater size. -/
theorem Piece.length_text_le {size greater : Int} (positive : 0 < size) (less : size ≤ greater)
    (piece : Piece) :
    (piece.text (options.resized size)).length ≤ (piece.text (options.resized greater)).length := by
  cases piece with
  | indent level =>
    simp only [Piece.text, Options.resized, indentation, List.length_replicate]
    by_cases grounded : 0 ≤ level
    · exact Int.toNat_le_toNat (Int.mul_le_mul_of_nonneg_right less grounded)
    · have none : size * level ≤ 0 := Int.mul_nonpos_of_nonneg_of_nonpos positive.le (by omega)
      omega
  | _ => exact Nat.le_refl _

/-- A piece that indents its line is an indentation of some levels. -/
theorem Piece.eq_indent (piece : Piece) (indents : piece.indents = true) :
    ∃ level, piece = .indent level ∧ 0 < level := by
  cases piece with
  | indent level => exact ⟨level, rfl, of_decide_eq_true indents⟩
  | _ => cases indents

/-- An indentation is wider under a greater size. -/
theorem Piece.length_text_lt {size greater : Int} (positive : 0 < size) (less : size < greater)
    {piece : Piece} (indents : piece.indents = true) :
    (piece.text (options.resized size)).length < (piece.text (options.resized greater)).length := by
  obtain ⟨level, rfl, indented⟩ := piece.eq_indent indents
  simp only [Piece.text, Options.resized, indentation, List.length_replicate]
  have wider : size * level < greater * level := Int.mul_lt_mul_of_pos_right less indented
  have some : 0 < size * level := Int.mul_pos positive indented
  omega

/-- Pieces with an indentation among them are written longer under a greater size. -/
theorem length_writtenText_lt (options : Options) {size greater : Int} (positive : 0 < size)
    (less : size < greater) {piece : Piece} (indents : piece.indents = true) (member : piece ∈ pieces) :
    (writtenText (options.resized size) pieces).length <
      (writtenText (options.resized greater) pieces).length := by
  simp only [writtenText, List.length_flatMap]
  exact List.sum_lt_sum _ _ (fun piece _ => piece.length_text_le positive less.le)
    ⟨piece, member, Piece.length_text_lt positive less indents⟩

/-- Pieces without an indentation among them are written alike under all sizes. -/
theorem writtenText_resized {size : Int} (positive : 0 < size) (default : 0 < options.indentSize)
    (flat : ∀ piece ∈ pieces, piece.indents = false) :
    writtenText (options.resized size) pieces = writtenText options pieces := by
  refine List.flatMap_congr fun piece member => ?_
  cases piece with
  | indent level =>
    have grounded : level ≤ 0 := Int.not_lt.1 (of_decide_eq_false (flat _ member))
    have none {size : Int} (positive : 0 < size) : (size * level).toNat = 0 :=
      Int.toNat_of_nonpos (Int.mul_nonpos_of_nonneg_of_nonpos positive.le grounded)
    simp only [Piece.text, Options.resized, indentation, none positive, none default]
  | _ => rfl

/-- A layout that indents a line in between is trimmed to different texts under two sizes. -/
theorem trim_ne_of_indents {size greater : Int} (positive : 0 < size) (less : size < greater)
    (indents : Indents options.keywordCase pieces) :
    trim (writtenText (options.resized size) pieces) ≠
      trim (writtenText (options.resized greater) pieces) := by
  obtain ⟨piece, member, indents⟩ := indents
  have blank : piece.isBlank options.keywordCase = true := by
    obtain ⟨level, rfl, -⟩ := piece.eq_indent indents
    rfl
  obtain ⟨first, inside, last, whole, front, back, within⟩ := exists_between member blank
  have text (size : Int) : trim (writtenText (options.resized size) pieces) =
      (first.text (options.resized size)).dropWhile isBlank ++
        (writtenText (options.resized size) inside ++ trimEnd (last.text (options.resized size))) := by
    rw [← trim_inkedPieces, Options.resized, whole]
    exact trim_between front back
  -- A piece with ink is a token, and tokens are written alike under all sizes.
  have token {piece : Piece} (ink : piece.isBlank options.keywordCase = false) :
      piece.text (options.resized size) = piece.text (options.resized greater) := by
    cases piece with
    | word token => rfl
    | _ => cases ink
  have longer := length_writtenText_lt options positive less indents within
  intro same
  have lengths := congrArg List.length ((text size).symm.trans (same.trans (text greater)))
  rw [token front, token back] at lengths
  simp only [List.length_append] at lengths
  omega

end Sizes

/-- Two indent sizes give a source one text exactly if its layout indents no line between the first ink and
the last. -/
theorem format_resized_eq_iff {options : Options} {size : Int} (positive : 0 < size)
    (default : 0 < options.indentSize) (differ : size ≠ options.indentSize) (source : String) :
    format (options.resized size) source = format options source ↔
      ¬Indents options.keywordCase (pieces options.commaPosition (fuse (tokenize source))) := by
  have texts : format (options.resized size) source = format options source ↔
      trim (writtenText (options.resized size) (pieces options.commaPosition (fuse (tokenize source)))) =
        trim (writtenText options (pieces options.commaPosition (fuse (tokenize source)))) := by
    rw [format, format, render, render, finished, finished, String.ofList_inj, List.append_left_inj]
    rfl
  have back : options.resized options.indentSize = options := rfl
  rw [texts]
  constructor
  · intro same indents
    rcases Int.lt_or_gt_of_ne differ with less | greater
    · exact trim_ne_of_indents positive less indents (by rw [back]; exact same)
    · exact trim_ne_of_indents default greater indents (by rw [back]; exact same.symm)
  · intro flat
    rw [← trim_inkedPieces options, ← trim_inkedPieces (options.resized size)]
    refine congrArg trim (writtenText_resized positive default fun piece member => ?_)
    exact Bool.eq_false_iff.2 fun indents => flat ⟨piece, member, indents⟩

end SqlLayout
