import Mathlib.Tactic.IntervalCases
import Mathlib.Tactic.SplitIfs
import SqlLayout.Text.Lines
import SqlLayout.Text.Quoted

/-!
# Reading quoted text back

Between quotes every character is written in a form of its own: as itself, behind a backslash, or by two, four
or eight hexadecimal digits that a letter announces. So the first character can be read off a written text, with
what is behind it (`unescape_escaped`), and no form starts with the quote. A quoted text therefore says which
text it is and where it ends (`quotedChars_append_inj`). It stays on one line, since the characters at which a
text breaks into lines are unprintable (`isLineBreak_of_mem_quotedChars`).
-/

namespace SqlLayout.Text

/-! ## Hexadecimal digits -/

/-- The number that a lower-case hexadecimal digit stands for. -/
def hexValue (c : Char) : Nat :=
  if c.isDigit then c.toNat - 48 else c.toNat - 87

/-- The number that hexadecimal digits denote. -/
def ofHexDigits (digits : List Char) : Nat :=
  digits.foldl (fun value c => 16 * value + hexValue c) 0

/-- A digit stands for the number that it was made of. -/
theorem hexValue_digitChar {n : Nat} (small : n < 16) : hexValue n.digitChar = n := by
  interval_cases n <;> rfl

/-- There are as many digits as were asked for. -/
theorem length_hexDigits (width n : Nat) : (hexDigits width n).length = width := by
  induction width generalizing n with
  | zero => rfl
  | succ width ih => rw [hexDigits, List.length_append, ih, List.length_singleton]

/-- The digits of a number denote it if there are enough of them. -/
theorem ofHexDigits_hexDigits {width n : Nat} (fits : n < 16 ^ width) :
    ofHexDigits (hexDigits width n) = n := by
  induction width generalizing n with
  | zero =>
    have none : n = 0 := by simpa using fits
    rw [none]
    rfl
  | succ width ih =>
    have front : n / 16 < 16 ^ width := by
      rw [Nat.pow_succ] at fits
      exact Nat.div_lt_of_lt_mul (by omega)
    have last : hexValue (n % 16).digitChar = n % 16 := hexValue_digitChar (Nat.mod_lt n (by decide))
    have before := ih front
    rw [ofHexDigits] at before ⊢
    rw [hexDigits, List.foldl_append, before, List.foldl_cons, List.foldl_nil, last]
    omega

/-! ## Escapes -/

/-- The character that some hexadecimal digits at the front of a text denote, and what is behind them. -/
def readHex (width : Nat) (text : List Char) : Char × List Char :=
  (Char.ofNat (ofHexDigits (text.take width)), text.drop width)

/-- The character that is written at the front of a text between quotes, and what is behind it. -/
def unescape : List Char → Option (Char × List Char)
  | [] => none
  | '\\' :: 'n' :: rest => some ('\n', rest)
  | '\\' :: 'r' :: rest => some ('\r', rest)
  | '\\' :: 't' :: rest => some ('\t', rest)
  | '\\' :: 'x' :: rest => some (readHex 2 rest)
  | '\\' :: 'u' :: rest => some (readHex 4 rest)
  | '\\' :: 'U' :: rest => some (readHex 8 rest)
  | '\\' :: c :: rest => some (c, rest)
  | c :: rest => some (c, rest)

/-- The digits of a character are read as the character. -/
theorem readHex_hexDigits {width : Nat} {c : Char} (fits : c.toNat < 16 ^ width) (rest : List Char) :
    readHex width (hexDigits width c.toNat ++ rest) = (c, rest) := by
  have length := length_hexDigits width c.toNat
  rw [readHex, List.take_left' length, List.drop_left' length, ofHexDigits_hexDigits fits, Char.ofNat_toNat]

/-- A character that is escaped by digits is read back. -/
theorem unescape_hexEscape (c : Char) (rest : List Char) :
    unescape (hexEscape c ++ rest) = some (c, rest) := by
  unfold hexEscape
  split_ifs with short medium
  · have bound : c.toNat < 16 ^ 2 := short
    exact congrArg some (readHex_hexDigits bound rest)
  · have bound : c.toNat < 16 ^ 4 := medium
    exact congrArg some (readHex_hexDigits bound rest)
  · have bound : c.toNat < 16 ^ 8 := c.val.toNat_lt
    exact congrArg some (readHex_hexDigits bound rest)

/-- A character that is no backslash is read as itself. -/
theorem unescape_cons {c : Char} (plain : c ≠ '\\') (rest : List Char) :
    unescape (c :: rest) = some (c, rest) := by
  rw [unescape]
  all_goals
    intros
    exact plain ‹_›

/-- Whether a character serves as a quote. -/
def IsQuote (c : Char) : Prop :=
  c = '\'' ∨ c = '"'

/-- A text is written between quotes. -/
theorem isQuote_quoteFor (text : List Char) : IsQuote (quoteFor text) := by
  unfold quoteFor
  split
  · exact Or.inr rfl
  · exact Or.inl rfl

/-- A character that is written between quotes is read back. -/
theorem unescape_escaped {quote : Char} (isQuote : IsQuote quote) (c : Char) (rest : List Char) :
    unescape (escaped quote c ++ rest) = some (c, rest) := by
  unfold escaped
  split_ifs with marked newline carriage tab printable
  · rcases marked with rfl | rfl
    · rcases isQuote with rfl | rfl <;> rfl
    · rfl
  · subst newline
    rfl
  · subst carriage
    rfl
  · subst tab
    rfl
  · apply unescape_cons
    exact fun backslash => marked (Or.inr backslash)
  · exact unescape_hexEscape c rest

/-- No character is written with the quote in front. -/
theorem head?_escaped {quote : Char} (isQuote : IsQuote quote) (c : Char) :
    ∃ d rest, escaped quote c = d :: rest ∧ d ≠ quote := by
  have backslash : '\\' ≠ quote := by
    rcases isQuote with rfl | rfl <;> decide
  unfold escaped
  split_ifs with marked newline carriage tab printable
  · exact ⟨_, _, rfl, backslash⟩
  · exact ⟨_, _, rfl, backslash⟩
  · exact ⟨_, _, rfl, backslash⟩
  · exact ⟨_, _, rfl, backslash⟩
  · exact ⟨_, _, rfl, fun same => marked (Or.inl same)⟩
  · unfold hexEscape
    split_ifs
    · exact ⟨_, _, rfl, backslash⟩
    · exact ⟨_, _, rfl, backslash⟩
    · exact ⟨_, _, rfl, backslash⟩

/-! ## Quoted texts -/

/-- What is written before a quote says which text it is. -/
theorem flatMap_escaped_inj {quote : Char} (isQuote : IsQuote quote) {first second rest other : List Char}
    (same : first.flatMap (escaped quote) ++ quote :: rest = second.flatMap (escaped quote) ++ quote :: other) :
    first = second ∧ rest = other := by
  -- No character is written with the quote in front, so both texts end at the same place.
  have ended (c : Char) (text back front : List Char)
      (clash : quote :: back = (escaped quote c ++ text) ++ front) : False := by
    obtain ⟨d, behind, written, apart⟩ := head?_escaped isQuote c
    rw [written] at clash
    exact apart (List.cons.inj clash).1.symm
  induction first generalizing second with
  | nil =>
    cases second with
    | nil => exact ⟨rfl, (List.cons.inj same).2⟩
    | cons c second => exact absurd same (ended c _ _ _)
  | cons c first ih =>
    cases second with
    | nil => exact absurd same.symm (ended c _ _ _)
    | cons d second =>
      rw [List.flatMap_cons, List.flatMap_cons, List.append_assoc, List.append_assoc] at same
      have read := congrArg unescape same
      rw [unescape_escaped isQuote, unescape_escaped isQuote] at read
      obtain ⟨rfl, others⟩ := Prod.mk.inj (Option.some.inj read)
      obtain ⟨rfl, behind⟩ := ih others
      exact ⟨rfl, behind⟩

/-- A quoted text says which text it is and where it ends. -/
theorem quotedChars_append_inj {first second rest other : List Char}
    (same : quotedChars first ++ rest = quotedChars second ++ other) : first = second ∧ rest = other := by
  simp only [quotedChars, List.cons_append, List.append_assoc] at same
  obtain ⟨quote, inner⟩ := List.cons.inj same
  rw [quote] at inner
  exact flatMap_escaped_inj (isQuote_quoteFor second) inner

/-! ## Lines -/

/-- The code points at which a text breaks into lines. -/
def lineBreakCodes : List Nat :=
  [0x0A, 0x0B, 0x0C, 0x0D, 0x1C, 0x1D, 0x1E, 0x85, 0x2028, 0x2029]

/-- A character at which a text breaks into lines is one of ten. -/
theorem mem_lineBreakCodes {c : Char} (lineBreak : isLineBreak c = true) : c.toNat ∈ lineBreakCodes := by
  simp only [isLineBreak, lineBreakRanges, Ranges.has, List.any_cons, List.any_nil, Bool.or_false,
    Bool.or_eq_true, Bool.and_eq_true, decide_eq_true_eq] at lineBreak
  simp only [lineBreakCodes, List.mem_cons, List.not_mem_nil, or_false]
  omega

/-- The characters at which a text breaks into lines are unprintable. -/
theorem isPrintable_of_isLineBreak {c : Char} (lineBreak : isLineBreak c = true) : isPrintable c = false := by
  have known : ∀ code ∈ lineBreakCodes, isPrintable (Char.ofNat code) = false := by decide +kernel
  have found := known c.toNat (mem_lineBreakCodes lineBreak)
  rwa [Char.ofNat_toNat] at found

/-- No hexadecimal digit breaks a line. -/
theorem isLineBreak_of_mem_hexDigits {width n : Nat} {c : Char} (member : c ∈ hexDigits width n) :
    isLineBreak c = false := by
  induction width generalizing n with
  | zero => cases member
  | succ width ih =>
    rcases List.mem_append.1 member with front | last
    · exact ih front
    · have known : ∀ digit < 16, isLineBreak (Nat.digitChar digit) = false := by decide
      rw [List.mem_singleton.1 last]
      exact known _ (Nat.mod_lt n (by decide))

/-- No character is written with a line break. -/
theorem isLineBreak_of_mem_escaped {quote : Char} (isQuote : IsQuote quote) {c d : Char}
    (member : d ∈ escaped quote c) : isLineBreak d = false := by
  have digits (letter : Char) (width : Nat) (plain : isLineBreak letter = false)
      (inside : d ∈ '\\' :: letter :: hexDigits width c.toNat) : isLineBreak d = false := by
    rcases List.mem_cons.1 inside with rfl | behind
    · rfl
    · rcases List.mem_cons.1 behind with rfl | digit
      · exact plain
      · exact isLineBreak_of_mem_hexDigits digit
  have short (letter : Char) (plain : isLineBreak letter = false) (inside : d ∈ ['\\', letter]) :
      isLineBreak d = false := by
    rcases List.mem_cons.1 inside with rfl | behind
    · rfl
    · rw [List.mem_singleton.1 behind]
      exact plain
  unfold escaped at member
  split_ifs at member with marked newline carriage tab printable
  · apply short c _ member
    rcases marked with rfl | rfl
    · rcases isQuote with rfl | rfl <;> rfl
    · rfl
  · exact short _ rfl member
  · exact short _ rfl member
  · exact short _ rfl member
  · rw [List.mem_singleton.1 member]
    by_contra broken
    rw [Bool.not_eq_false] at broken
    rw [isPrintable_of_isLineBreak broken] at printable
    cases printable
  · unfold hexEscape at member
    split_ifs at member
    · exact digits _ _ rfl member
    · exact digits _ _ rfl member
    · exact digits _ _ rfl member

/-- A quoted text stays on one line. -/
theorem isLineBreak_of_mem_quotedChars {text : List Char} {c : Char} (member : c ∈ quotedChars text) :
    isLineBreak c = false := by
  have isQuote := isQuote_quoteFor text
  have quote : isLineBreak (quoteFor text) = false := by
    rcases isQuote with same | same
    · rw [same]
      rfl
    · rw [same]
      rfl
  rw [quotedChars, List.mem_cons, List.mem_append, List.mem_singleton, List.mem_flatMap] at member
  rcases member with rfl | ⟨d, -, written⟩ | rfl
  · exact quote
  · exact isLineBreak_of_mem_escaped isQuote written
  · exact quote

end SqlLayout.Text
