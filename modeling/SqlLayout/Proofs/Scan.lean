import SqlLayout.Proofs.Trimming
import SqlLayout.Token.Lexer

/-!
# Scans

A lexeme goes on behind its first character in one of six ways. Each of them looks at one character
behind the text it takes: a scan that ended before some text takes the same text before any other
that starts alike or with a character that stops it (`Scan.split_again`). A scan of a shortened
text and a line feed ends on one of the two sides of the line feed (`Scan.split_shortened`).
-/

namespace SqlLayout

open Text

/-! ## Classes of characters -/

/-- Blank characters beyond ASCII. -/
def wideBlanks : List Nat :=
  (blankRanges.filter (128 ≤ ·.1)).flatMap fun range => List.range' range.1 (range.2 + 1 - range.1)

/-- No blank character beyond ASCII is a letter or a numeral. -/
theorem wideBlanks_no_words :
    wideBlanks.all (fun code => !letterRanges.has code && !numeralRanges.has code) = true := by
  decide +kernel

/-- No blank character of ASCII belongs to a word. -/
theorem asciiBlanks_no_words : ∀ code < 128,
    isBlank (Char.ofNat code) = true → isWordChar (Char.ofNat code) = false := by
  decide

/-- A blank character beyond ASCII is listed. -/
theorem mem_wideBlanks {c : Char} (blank : isBlank c = true) (wide : 128 ≤ c.toNat) :
    c.toNat ∈ wideBlanks := by
  simp only [isBlank, Ranges.has, List.any_eq_true, Bool.and_eq_true, decide_eq_true_eq] at blank
  obtain ⟨range, listed, low, high⟩ := blank
  refine List.mem_flatMap.2 ⟨range, List.mem_filter.2 ⟨listed, ?_⟩, ?_⟩
  · have apart : ∀ range ∈ blankRanges, range.2 < 128 ∨ 128 ≤ range.1 := by decide
    have := apart range listed
    exact decide_eq_true (by omega)
  · rw [List.mem_range'_1]
    omega

/-- A blank character belongs to no word. -/
theorem isWordChar_of_isBlank {c : Char} (blank : isBlank c = true) : isWordChar c = false := by
  by_cases narrow : c.toNat < 128
  · have listed := asciiBlanks_no_words c.toNat narrow
    rw [Char.ofNat_toNat] at listed
    exact listed blank
  · have listed := List.all_eq_true.1 wideBlanks_no_words _ (mem_wideBlanks blank (by omega))
    have different : c ≠ '_' := fun same => narrow (by rw [same]; decide)
    simp only [Bool.and_eq_true, Bool.not_eq_true'] at listed
    simp [isWordChar, isLetter, isNumeral, narrow, listed, different]

/-- Spaces and tabs are blank. -/
theorem isBlank_of_isGap {c : Char} (gap : isGap c = true) : isBlank c = true := by
  simp only [isGap, Bool.or_eq_true, beq_iff_eq] at gap
  rcases gap with rfl | rfl <;> rfl

/-- Characters that end a source line are blank. -/
theorem isBlank_of_isLineEnd {c : Char} (lineEnd : isLineEnd c = true) : isBlank c = true := by
  simp only [isLineEnd, Bool.or_eq_true, beq_iff_eq] at lineEnd
  rcases lineEnd with rfl | rfl <;> rfl

/-- Whether a character may go on a number. -/
def isNumberChar (c : Char) : Bool :=
  isDigit c || c == '.' || c == 'e' || c == 'E' || c == '+' || c == '-'

/-- A character of a number is not blank. -/
theorem isBlank_of_isNumberChar {c : Char} (inNumber : isNumberChar c = true) :
    isBlank c = false := by
  simp only [isNumberChar, Bool.or_eq_true, beq_iff_eq] at inNumber
  rcases inNumber with ((((digit | rfl) | rfl) | rfl) | rfl) | rfl
  · simp only [isDigit, Bool.and_eq_true, decide_eq_true_eq] at digit
    have low : 48 ≤ c.toNat := digit.1
    have high : c.toNat ≤ 57 := digit.2
    simp [isBlank, Ranges.has, blankRanges]
    omega
  all_goals rfl

/-! ## Scans -/

/-- How a lexeme goes on behind its first character. -/
inductive Scan where
  /-- As long as the characters are in a class. -/
  | run (inClass : Char → Bool)
  /-- For a number of characters. -/
  | take (count : Nat)
  /-- Through the next occurrence of a character. -/
  | through (stop : Char)
  /-- Behind one more character, through the next occurrence of two characters. -/
  | pair (first second : Char)
  /-- Through an apostrophe that no other follows, apart from doubled ones. -/
  | string
  /-- Through the digits, the dots and the exponent of a number. -/
  | number

namespace Scan

/-- The part of a text that a scan takes, and what is behind it. -/
def split : Scan → List Char → List Char × List Char
  | .run inClass, source => splitWhile inClass source
  | .take count, source => (source.take count, source.drop count)
  | .through stop, source => SqlLayout.through stop source
  | .pair first second, source =>
    (source.take 1 ++ (throughPair first second (source.drop 1)).1,
      (throughPair first second (source.drop 1)).2)
  | .string, source => throughString source
  | .number, source => splitNumber source

/-- Whether a character that a scan has not taken yet ends it. -/
def stopsAt : Scan → Char → Bool
  | .run inClass, c => !inClass c
  | .string, c => c != '\''
  | .number, c => !isNumberChar c
  | _, _ => true

end Scan

/-- The first part of a text through a character is not empty, unless the text is. -/
theorem through_ne_nil (stop c : Char) (source : List Char) :
    (through stop (c :: source)).1 ≠ [] := by
  rw [through]
  split <;> simp

/-- The first part of a text through two characters is not empty, unless the text is. -/
theorem throughPair_ne_nil (first second c : Char) (source : List Char) :
    (throughPair first second (c :: source)).1 ≠ [] := by
  rw [throughPair]
  split <;> simp

/-- A doubled apostrophe closes nothing. -/
theorem throughString_doubled (source : List Char) :
    throughString ('\'' :: '\'' :: source) =
      ('\'' :: '\'' :: (throughString source).1, (throughString source).2) := by
  rw [throughString]

/-- An apostrophe that no other follows closes a string. -/
theorem throughString_closed {source : List Char} (single : source.head? ≠ some '\'') :
    throughString ('\'' :: source) = (['\''], source) := by
  cases source with
  | nil => rfl
  | cons c rest =>
    rw [throughString]
    · rfl
    · intro _ _ same
      exact single (by rw [same]; rfl)

/-- Any other character belongs to the string. -/
theorem throughString_cons {c : Char} (other : c ≠ '\'') (source : List Char) :
    throughString (c :: source) = (c :: (throughString source).1, (throughString source).2) := by
  rw [throughString, if_neg other]
  rintro rest same
  cases same
  exact absurd rfl other

/-- The first part of a string is not empty, unless the text is. -/
theorem throughString_ne_nil (c : Char) (source : List Char) :
    (throughString (c :: source)).1 ≠ [] := by
  by_cases quote : c = '\''
  · subst quote
    by_cases single : source.head? = some '\''
    · obtain ⟨rest, rfl⟩ : ∃ rest, source = '\'' :: rest := by
        cases source with
        | nil => simp at single
        | cons d rest => exact ⟨rest, by simpa using single⟩
      simp [throughString_doubled]
    · simp [throughString_closed single]
  · simp [throughString_cons quote]

/-! ## Scanning again before another text -/

/-- What is behind a run starts outside the class. -/
theorem splitWhile_ended {inClass : Char → Bool} {tail rest : List Char}
    (h : splitWhile inClass (tail ++ rest) = (tail, rest)) {d : Char}
    (next : rest.head? = some d) : inClass d = false := by
  have dropped : (tail ++ rest).dropWhile inClass = rest := congrArg Prod.snd h
  rw [← dropped] at next
  have outside := List.head?_dropWhile_not inClass (tail ++ rest)
  rw [next] at outside
  simpa using outside

/-- A run that ended is a run before any text that starts alike or outside the class. -/
theorem splitWhile_again {inClass : Char → Bool} {tail rest other : List Char}
    (h : splitWhile inClass (tail ++ rest) = (tail, rest))
    (halts : ∀ d ∈ other.head?, rest.head? = some d ∨ inClass d = false) :
    splitWhile inClass (tail ++ other) = (tail, other) := by
  have taken : (tail ++ rest).takeWhile inClass = tail := congrArg Prod.fst h
  have inside : ∀ c ∈ tail, inClass c = true := by
    intro c member
    rw [← taken] at member
    exact List.mem_takeWhile_imp member
  have stopped : other.takeWhile inClass = [] ∧ other.dropWhile inClass = other := by
    cases other with
    | nil => simp
    | cons d other =>
      have outside : inClass d = false := (halts d rfl).elim (splitWhile_ended h) id
      simp [outside]
  rw [splitWhile, List.takeWhile_append_of_pos inside, List.dropWhile_append_of_pos inside,
    stopped.1, stopped.2, List.append_nil]

/-- A text through a character ends there whatever follows. -/
theorem through_again {stop : Char} {tail rest : List Char} (ended : rest ≠ [])
    (h : through stop (tail ++ rest) = (tail, rest)) (other : List Char) :
    through stop (tail ++ other) = (tail, other) := by
  induction tail with
  | nil =>
    obtain ⟨c, rest, rfl⟩ := List.exists_cons_of_ne_nil ended
    exact absurd (congrArg Prod.fst h) (through_ne_nil stop c rest)
  | cons c tail ih =>
    rw [List.cons_append, through] at h ⊢
    split at h
    · rename_i found
      simp only [Prod.mk.injEq, List.cons.injEq, true_and] at h
      rw [if_pos found, ← h.1]
      rfl
    · rename_i missed
      simp only [Prod.mk.injEq, List.cons.injEq, true_and] at h
      rw [if_neg missed, ih (Prod.ext h.1 h.2)]

/-- A text through two characters ends there whatever follows. -/
theorem throughPair_again {first second : Char} {tail rest : List Char} (ended : rest ≠ [])
    (h : throughPair first second (tail ++ rest) = (tail, rest)) (other : List Char) :
    throughPair first second (tail ++ other) = (tail, other) := by
  induction tail with
  | nil =>
    obtain ⟨c, rest, rfl⟩ := List.exists_cons_of_ne_nil ended
    exact absurd (congrArg Prod.fst h) (throughPair_ne_nil first second c rest)
  | cons c tail ih =>
    rw [List.cons_append, throughPair] at h ⊢
    split at h
    · rename_i found
      simp only [Prod.mk.injEq, List.cons.injEq, true_and] at h
      rw [if_pos ⟨found.1, by rw [← h.1]; rfl⟩, ← h.1]
      rfl
    · rename_i missed
      simp only [Prod.mk.injEq, List.cons.injEq, true_and] at h
      have again := ih (Prod.ext h.1 h.2)
      have nonempty : tail ≠ [] := by
        rintro rfl
        obtain ⟨d, rest, rfl⟩ := List.exists_cons_of_ne_nil ended
        exact throughPair_ne_nil first second d rest h.1
      obtain ⟨d, tail, rfl⟩ := List.exists_cons_of_ne_nil nonempty
      rw [if_neg (by simpa using missed), again]

/-- A string that was closed ends there unless another apostrophe follows. -/
theorem throughString_again {rest other : List Char} (ended : rest ≠ [])
    (halts : ∀ d ∈ other.head?, rest.head? = some d ∨ d ≠ '\'') : ∀ {tail : List Char},
    throughString (tail ++ rest) = (tail, rest) → throughString (tail ++ other) = (tail, other)
  | [], h => by
    obtain ⟨c, rest, rfl⟩ := List.exists_cons_of_ne_nil ended
    exact absurd (congrArg Prod.fst h) (throughString_ne_nil c rest)
  | [c], h => by
    by_cases quote : c = '\''
    · subst quote
      have single : rest.head? ≠ some '\'' := by
        intro doubled
        obtain ⟨d, rest, rfl⟩ := List.exists_cons_of_ne_nil ended
        obtain rfl : d = '\'' := by simpa using doubled
        rw [List.singleton_append, throughString_doubled] at h
        simp at h
      refine throughString_closed fun doubled => ?_
      rcases halts _ doubled with same | different
      · exact single same
      · exact different rfl
    · rw [List.singleton_append, throughString_cons quote] at h ⊢
      simp only [Prod.mk.injEq, List.cons.injEq, true_and] at h
      have again : throughString ([] ++ other) = ([], other) :=
        throughString_again ended halts (Prod.ext h.1 h.2)
      rw [List.nil_append] at again
      rw [again]
  | c :: d :: tail, h => by
    by_cases quote : c = '\''
    · subst quote
      by_cases doubled : d = '\''
      · subst doubled
        rw [List.cons_append, List.cons_append, throughString_doubled] at h ⊢
        simp only [Prod.mk.injEq, List.cons.injEq, true_and] at h
        rw [throughString_again ended halts (Prod.ext h.1 h.2)]
      · rw [List.cons_append, throughString_closed (by simpa using doubled)] at h
        simp at h
    · rw [List.cons_append, throughString_cons quote] at h ⊢
      simp only [Prod.mk.injEq, List.cons.injEq, true_and] at h
      have again : throughString (d :: tail ++ other) = (d :: tail, other) :=
        throughString_again ended halts (Prod.ext h.1 h.2)
      rw [again]

/-! ## Numbers -/

/-- The sign of an exponent is read again before a text that does not start with one. -/
theorem splitSign_again {tail rest other : List Char} (h : splitSign (tail ++ rest) = (tail, rest))
    (halts : ∀ d ∈ other.head?, rest.head? = some d ∨ isNumberChar d = false) :
    splitSign (tail ++ other) = (tail, other) := by
  cases tail with
  | nil =>
    cases other with
    | nil => rfl
    | cons d other =>
      have noSign : d ≠ '+' ∧ d ≠ '-' := by
        rcases halts d rfl with same | stop
        · obtain ⟨rest, rfl⟩ := List.head?_eq_some_iff.1 same
          constructor <;> rintro rfl <;> simp [splitSign] at h
        · constructor <;> rintro rfl <;> exact absurd stop (by decide)
      rw [List.nil_append, splitSign]
      · exact fun _ same => noSign.1 (by cases same; rfl)
      · exact fun _ same => noSign.2 (by cases same; rfl)
  | cons c tail =>
    have sign : (c = '+' ∨ c = '-') ∧ tail = [] := by
      rw [List.cons_append] at h
      unfold splitSign at h
      split at h <;> simp_all
    obtain ⟨rfl | rfl, rfl⟩ := sign <;> rfl

/-- Heads of two texts behind a common part agree, or the part is empty. -/
theorem head?_append_halts {stops : Char → Prop} {front rest other : List Char}
    (halts : ∀ d ∈ other.head?, rest.head? = some d ∨ stops d) :
    ∀ d ∈ (front ++ other).head?, (front ++ rest).head? = some d ∨ stops d := by
  cases front with
  | nil => exact halts
  | cons c front => exact fun d same => Or.inl same

/-- An exponent is read again before a text that does not go on with it. -/
theorem splitExponent_again {tail rest other : List Char}
    (h : splitExponent (tail ++ rest) = (tail, rest))
    (halts : ∀ d ∈ other.head?, rest.head? = some d ∨ isNumberChar d = false) :
    splitExponent (tail ++ other) = (tail, other) := by
  cases tail with
  | nil =>
    cases other with
    | nil => rfl
    | cons d other =>
      have noMark : ¬(d = 'e' ∨ d = 'E') := by
        rcases halts d rfl with same | stop
        · obtain ⟨rest, rfl⟩ := List.head?_eq_some_iff.1 same
          intro mark
          simp [splitExponent, mark] at h
        · rintro (rfl | rfl) <;> exact absurd stop (by decide)
      rw [List.nil_append, splitExponent, if_neg noMark]
  | cons c tail =>
    rw [List.cons_append, splitExponent] at h ⊢
    by_cases mark : c = 'e' ∨ c = 'E'
    · rw [if_pos mark] at h ⊢
      obtain ⟨sign, unsigned, signed⟩ : ∃ sign unsigned,
          splitSign (tail ++ rest) = (sign, unsigned) := ⟨_, _, rfl⟩
      obtain ⟨digits, after, counted⟩ : ∃ digits after,
          splitWhile isDigit unsigned = (digits, after) := ⟨_, _, rfl⟩
      have whole := splitWhile_append isDigit unsigned
      simp only [signed, counted, Prod.mk.injEq, List.cons.injEq, true_and] at h whole
      obtain ⟨rfl, rfl⟩ := h
      rw [← whole] at signed counted
      rw [List.append_assoc] at signed ⊢
      have stops : ∀ d ∈ other.head?, after.head? = some d ∨ isDigit d = false := by
        refine fun d next => (halts d next).imp_right fun stop => ?_
        simp only [isNumberChar, Bool.or_eq_false_iff] at stop
        exact stop.1.1.1.1.1
      simp only [splitSign_again signed (head?_append_halts halts),
        splitWhile_again counted stops]
    · rw [if_neg mark] at h
      simp at h

/-- The text of a number is read again before a text that does not go on with it. -/
theorem splitNumber_again {tail rest other : List Char}
    (h : splitNumber (tail ++ rest) = (tail, rest))
    (halts : ∀ d ∈ other.head?, rest.head? = some d ∨ isNumberChar d = false) :
    splitNumber (tail ++ other) = (tail, other) := by
  obtain ⟨digits, behind, counted⟩ : ∃ digits behind,
      splitWhile (fun c => isDigit c || c == '.') (tail ++ rest) = (digits, behind) := ⟨_, _, rfl⟩
  obtain ⟨exponent, after, raised⟩ : ∃ exponent after,
      splitExponent behind = (exponent, after) := ⟨_, _, rfl⟩
  have whole := splitExponent_append behind
  simp only [splitNumber, counted, raised, Prod.mk.injEq] at h whole ⊢
  obtain ⟨rfl, rfl⟩ := h
  rw [← whole] at counted raised
  rw [List.append_assoc] at counted ⊢
  have stops : ∀ d ∈ (exponent ++ other).head?, (exponent ++ after).head? = some d ∨
      (isDigit d || d == '.') = false := by
    refine head?_append_halts fun d next => (halts d next).imp_right fun stop => ?_
    simp only [isNumberChar, Bool.or_eq_false_iff] at stop ⊢
    exact stop.1.1.1.1
  simp only [splitWhile_again counted stops, splitExponent_again raised halts, and_self]

/-- An exponent consists of characters of numbers. -/
theorem isNumberChar_of_mem_exponent {source : List Char} {c : Char}
    (member : c ∈ (splitExponent source).1) : isNumberChar c = true := by
  cases source with
  | nil => simp [splitExponent] at member
  | cons first source =>
    by_cases mark : first = 'e' ∨ first = 'E'
    · rw [splitExponent, if_pos mark] at member
      rcases List.mem_cons.1 member with rfl | member
      · rcases mark with rfl | rfl <;> rfl
      rcases List.mem_append.1 member with sign | digit
      · unfold splitSign at sign
        split at sign <;> simp_all [isNumberChar]
      · have inClass := List.mem_takeWhile_imp digit
        simp [isNumberChar, inClass]
    · simp [splitExponent, mark] at member

/-- A number consists of characters of numbers. -/
theorem isNumberChar_of_mem_number {source : List Char} {c : Char}
    (member : c ∈ (splitNumber source).1) : isNumberChar c = true := by
  rcases List.mem_append.1 member with digit | exponent
  · have inClass := List.mem_takeWhile_imp digit
    simp only [Bool.or_eq_true] at inClass
    simp only [isNumberChar, Bool.or_eq_true]
    exact Or.inl (Or.inl (Or.inl (Or.inl inClass)))
  · exact isNumberChar_of_mem_exponent exponent


namespace Scan

/-- A scan that ended before some text ends before any text that starts alike, or with a character
at which the scan stops. -/
theorem split_again {scan : Scan} {tail rest other : List Char} (ended : rest ≠ [])
    (h : scan.split (tail ++ rest) = (tail, rest))
    (halts : ∀ d ∈ other.head?, rest.head? = some d ∨ scan.stopsAt d = true) :
    scan.split (tail ++ other) = (tail, other) := by
  cases scan with
  | run inClass =>
    refine splitWhile_again h fun d next => (halts d next).imp_right fun stop => ?_
    simpa [stopsAt] using stop
  | take count =>
    simp only [split, Prod.mk.injEq] at h ⊢
    have full : tail.length = count := by
      have shorter : count < (tail ++ rest).length := by
        by_contra longer
        rw [List.drop_eq_nil_of_le (by omega)] at h
        exact ended h.2.symm
      rw [← h.1, List.length_take]
      omega
    exact ⟨List.take_left' full, List.drop_left' full⟩
  | through stop => exact through_again ended h other
  | pair first second =>
    cases tail with
    | nil =>
      obtain ⟨c, rest, rfl⟩ := List.exists_cons_of_ne_nil ended
      simp [split] at h
    | cons c tail =>
      simp only [split, List.cons_append, List.take_succ_cons, List.take_zero, List.drop_succ_cons,
        List.drop_zero, List.nil_append, Prod.mk.injEq, List.cons.injEq, true_and] at h ⊢
      rw [throughPair_again ended (Prod.ext h.1 h.2) other]
      exact ⟨rfl, rfl⟩
  | string =>
    refine throughString_again ended (fun d next => (halts d next).imp_right fun stop => ?_) h
    simpa [stopsAt] using stop
  | number =>
    refine splitNumber_again h fun d next => (halts d next).imp_right fun stop => ?_
    simpa [stopsAt] using stop

end Scan

/-! ## The last character of a scan -/

/-- A text through a character ends with it, unless the whole text is taken. -/
theorem getLast?_through {stop : Char} {source : List Char} (ended : (through stop source).2 ≠ []) :
    (through stop source).1.getLast? = some stop := by
  induction source with
  | nil => exact absurd rfl ended
  | cons c rest ih =>
    rw [through] at ended ⊢
    split
    · rename_i found
      rw [found]
      rfl
    · rename_i missed
      rw [if_neg missed] at ended
      rw [List.getLast?_cons, ih ended]
      rfl

/-- A text through two characters ends with the second, unless the whole text is taken. -/
theorem getLast?_throughPair {first second : Char} {source : List Char}
    (ended : (throughPair first second source).2 ≠ []) :
    (throughPair first second source).1.getLast? = some second := by
  induction source with
  | nil => exact absurd rfl ended
  | cons c rest ih =>
    rw [throughPair] at ended ⊢
    split
    · rfl
    · rename_i missed
      rw [if_neg missed] at ended
      rw [List.getLast?_cons, ih ended]
      rfl

/-- A string ends with an apostrophe, unless the whole text is taken. -/
theorem getLast?_throughString {source : List Char} (ended : (throughString source).2 ≠ []) :
    (throughString source).1.getLast? = some '\'' := by
  fun_induction throughString source with
  | case1 => exact absurd rfl ended
  | case2 rest ih => rw [List.getLast?_cons, List.getLast?_cons, ih ended]; rfl
  | case3 rest doubled => rfl
  | case4 c rest doubled other ih => rw [List.getLast?_cons, ih ended]; rfl

/-- Whether a scan ends with a character that is not blank once it stops before the end. -/
def Scan.Closes : Scan → Prop
  | .run inClass => ∀ c, inClass c = true → isBlank c = false
  | .take count => count = 0
  | .through stop => isBlank stop = false
  | .pair _ second => isBlank second = false
  | .string => True
  | .number => True

/-- What a scan takes ends with a character that is not blank. -/
theorem Scan.ink_of_split {scan : Scan} (closes : scan.Closes) {source : List Char}
    (ended : (scan.split source).2 ≠ []) :
    ∀ c ∈ (scan.split source).1.getLast?, isBlank c = false := by
  intro c last
  cases scan with
  | run inClass =>
    have member : c ∈ source.takeWhile inClass := List.mem_of_getLast? last
    exact closes c (List.mem_takeWhile_imp member)
  | take count =>
    rw [Closes] at closes
    rw [closes] at last
    cases last
  | through stop =>
    rw [split, getLast?_through ended] at last
    rwa [← Option.some.inj last]
  | pair first second =>
    have behind : (throughPair first second (source.drop 1)).2 ≠ [] := ended
    rw [split, List.getLast?_append, getLast?_throughPair behind] at last
    rwa [← Option.some.inj last]
  | string =>
    rw [split, getLast?_throughString ended] at last
    rw [← Option.some.inj last]
    rfl
  | number =>
    exact isBlank_of_isNumberChar (isNumberChar_of_mem_number (List.mem_of_getLast? last))

/-! ## Scanning a shortened text -/

/-- Two ways in which a scan of a shortened text and a line feed can end: before the line feed, or
behind it. -/
def EndsAround (split : List Char × List Char) (kept : List Char) : Prop :=
  split = (kept, ['\n']) ∨ split = (kept ++ ['\n'], [])

/-- What ends around a line feed does so behind one more character. -/
theorem EndsAround.cons {split : List Char × List Char} {kept : List Char} (c : Char)
    (h : EndsAround split kept) : EndsAround (c :: split.1, split.2) (c :: kept) := by
  rcases h with rfl | rfl
  · exact Or.inl rfl
  · exact Or.inr rfl

/-- A text through a character may be shortened. -/
theorem through_shortened {stop : Char} {rest : List Char} : ∀ {kept lost : List Char},
    through stop (kept ++ lost ++ rest) = (kept ++ lost, rest) →
    EndsAround (through stop (kept ++ ['\n'])) kept
  | [], _, _ => by
    refine Or.inr ?_
    rw [List.nil_append, through]
    split <;> rfl
  | c :: kept, lost, h => by
    rw [List.cons_append, List.cons_append, through] at h
    rw [List.cons_append, through]
    split at h
    · rename_i found
      simp only [Prod.mk.injEq, List.cons.injEq, true_and] at h
      obtain ⟨rfl, rfl⟩ := List.append_eq_nil_iff.1 h.1.symm
      rw [if_pos found]
      exact Or.inl rfl
    · rename_i missed
      simp only [Prod.mk.injEq, List.cons.injEq, true_and] at h
      rw [if_neg missed]
      exact (through_shortened (Prod.ext h.1 h.2)).cons c

/-- A text through two characters may be shortened. -/
theorem throughPair_shortened {first second : Char} (other : second ≠ '\n') {rest : List Char} :
    ∀ {kept lost : List Char},
    throughPair first second (kept ++ lost ++ rest) = (kept ++ lost, rest) →
    EndsAround (throughPair first second (kept ++ ['\n'])) kept
  | [], _, _ => by
    refine Or.inr ?_
    simp [throughPair]
  | [c], _, _ => by
    refine Or.inr ?_
    simp [throughPair, other.symm]
  | c :: d :: kept, lost, h => by
    rw [List.cons_append, List.cons_append, throughPair] at h
    rw [List.cons_append, throughPair]
    split at h
    · rename_i found
      simp only [Prod.mk.injEq, List.cons.injEq, List.cons_append, true_and] at h
      obtain ⟨rfl, rfl⟩ := List.append_eq_nil_iff.1 h.1.2.symm
      rw [if_pos ⟨found.1, by rw [h.1.1]; rfl⟩, h.1.1]
      exact Or.inl rfl
    · rename_i missed
      simp only [Prod.mk.injEq, List.cons.injEq, true_and] at h
      have shortened : EndsAround (throughPair first second (d :: kept ++ ['\n'])) (d :: kept) :=
        throughPair_shortened other (Prod.ext h.1 h.2)
      rw [if_neg (by simpa using missed)]
      exact shortened.cons c

/-- The text of a string may be shortened. -/
theorem throughString_shortened {rest : List Char} : ∀ {kept lost : List Char},
    throughString (kept ++ lost ++ rest) = (kept ++ lost, rest) →
    EndsAround (throughString (kept ++ ['\n'])) kept
  | [], _, _ => Or.inr rfl
  | [c], _, _ => by
    by_cases quote : c = '\''
    · subst quote
      exact Or.inl rfl
    · refine Or.inr ?_
      simp [throughString_cons quote, throughString]
  | c :: d :: kept, lost, h => by
    by_cases quote : c = '\''
    · subst quote
      by_cases doubled : d = '\''
      · subst doubled
        simp only [List.cons_append, throughString_doubled, Prod.mk.injEq, List.cons.injEq,
          true_and] at h ⊢
        exact ((throughString_shortened (Prod.ext h.1 h.2)).cons '\'').cons '\''
      · rw [List.cons_append, List.cons_append, throughString_closed (by simpa using doubled)] at h
        simp at h
    · rw [List.cons_append, List.cons_append, throughString_cons quote] at h
      rw [List.cons_append, throughString_cons quote]
      simp only [Prod.mk.injEq, List.cons.injEq, true_and] at h
      have shortened : EndsAround (throughString (d :: kept ++ ['\n'])) (d :: kept) :=
        throughString_shortened (Prod.ext h.1 h.2)
      exact shortened.cons c

namespace Scan

/-- Whether a scan is one that lexemes use: no delimiter of it is a line feed, and a line feed
ends it where a class or an apostrophe does not. -/
def Breaks : Scan → Prop
  | .pair _ second => second ≠ '\n'
  | scan => scan.stopsAt '\n' = true

/-- The text that a scan takes may be shortened, unless it is a number. -/
theorem split_shortened {scan : Scan} {kept lost rest : List Char} (breaks : scan.Breaks)
    (h : scan.split (kept ++ lost ++ rest) = (kept ++ lost, rest))
    (numeral : scan = .number → lost = []) :
    EndsAround (scan.split (kept ++ ['\n'])) kept := by
  cases scan with
  | run inClass =>
    have inside : ∀ c ∈ kept, inClass c = true := by
      intro c member
      have taken : (kept ++ lost ++ rest).takeWhile inClass = kept ++ lost := congrArg Prod.fst h
      have member : c ∈ kept ++ lost := List.mem_append_left _ member
      rw [← taken] at member
      exact List.mem_takeWhile_imp member
    have outside : inClass '\n' = false := by simpa [Breaks, stopsAt] using breaks
    refine Or.inl ?_
    simp [split, splitWhile, List.takeWhile_append_of_pos inside,
      List.dropWhile_append_of_pos inside, outside]
  | take count =>
    have short : kept.length ≤ count := by
      have taken : (kept ++ lost ++ rest).take count = kept ++ lost := congrArg Prod.fst h
      have := congrArg List.length taken
      simp only [List.length_take, List.length_append] at this
      omega
    rcases Nat.eq_or_lt_of_le short with full | less
    · exact Or.inl (Prod.ext (List.take_left' full) (List.drop_left' full))
    · have all : (kept ++ ['\n']).length ≤ count := by
        rw [List.length_append]
        exact less
      exact Or.inr (Prod.ext (List.take_of_length_le all) (List.drop_eq_nil_of_le all))
  | through stop => exact through_shortened h
  | pair first second =>
    cases kept with
    | nil => exact Or.inr rfl
    | cons c kept =>
      simp only [split, List.cons_append, List.take_succ_cons, List.take_zero, List.drop_succ_cons,
        List.drop_zero, List.nil_append, Prod.mk.injEq, List.cons.injEq, true_and] at h ⊢
      exact (throughPair_shortened breaks (Prod.ext h.1 h.2)).cons c
  | string => exact throughString_shortened h
  | number =>
    obtain rfl := numeral rfl
    rw [List.append_nil] at h
    refine Or.inl (splitNumber_again h fun d next => Or.inr ?_)
    obtain rfl : d = '\n' := by simpa using next.symm
    rfl

end Scan

end SqlLayout
