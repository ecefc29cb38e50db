import SqlLayout.Proofs.Coverage

/-!
# The places of tokens are exact

A place counts the lines that end before its offset and the characters behind the last of them. A line
feed ends a line, and so does a carriage return that no line feed follows, so both together end one.
Every span of a token of a source starts and stops at such a place (`tokenize_places`), and never
between a carriage return and its line feed, because no rule ends a lexeme there
(`Lexeme.return_of_read`).
-/

namespace SqlLayout

open Text

/-! ## Lines of a source -/

/-- Whether a line of a source ends with the character at an offset. -/
def EndsLine (source : List Char) (offset : Nat) : Prop :=
  source[offset]? = some '\n' ∨ (source[offset]? = some '\r' ∧ source[offset + 1]? ≠ some '\n')

/-- Whether a line ends at an offset can be decided. -/
instance (source : List Char) (offset : Nat) : Decidable (EndsLine source offset) :=
  inferInstanceAs (Decidable (_ ∨ _))

/-- The offsets at which the lines end that are complete before an offset. -/
def lineEnds (source : List Char) (offset : Nat) : List Nat :=
  (List.range offset).filter (EndsLine source ·)

/-- The offset at which the line of an offset starts: behind the last end of a line before it. -/
def lineOffset (source : List Char) (offset : Nat) : Nat :=
  ((lineEnds source offset).getLast?.map (· + 1)).getD 0

/-- Whether an offset is between a carriage return and the line feed behind it. -/
def PartsLineEnd (source : List Char) (offset : Nat) : Prop :=
  0 < offset ∧ source[offset - 1]? = some '\r' ∧ source[offset]? = some '\n'

/-- The place at an offset of a source. -/
def Position.inSource (source : List Char) (offset : Nat) : Position where
  line := 1 + (lineEnds source offset).length
  column := 1 + (offset - lineOffset source offset)
  offset := offset

/-- Whether a place is where its offset is in a source, and parts no end of a line. -/
structure Position.Exact (place : Position) (source : List Char) : Prop where
  /-- The line is one more than the number of lines that end before. -/
  line : place.line = 1 + (lineEnds source place.offset).length
  /-- The column is one more than the number of characters behind the start of the line. -/
  column : place.column = 1 + (place.offset - lineOffset source place.offset)
  /-- The place is not between a carriage return and its line feed. -/
  whole : ¬PartsLineEnd source place.offset

/-- The place at an offset that parts no end of a line is exact. -/
theorem Position.inSource_exact {source : List Char} {offset : Nat}
    (whole : ¬PartsLineEnd source offset) : (Position.inSource source offset).Exact source :=
  ⟨rfl, rfl, whole⟩

/-- The ends of lines before an offset are those before the last character, and perhaps its own. -/
theorem lineEnds_succ (source : List Char) (offset : Nat) :
    lineEnds source (offset + 1) =
      lineEnds source offset ++ if EndsLine source offset then [offset] else [] := by
  rw [lineEnds, List.range_succ, List.filter_append]
  by_cases ends : EndsLine source offset <;> simp [lineEnds, ends]

/-- A line starts at its offsets or before. -/
theorem lineOffset_le (source : List Char) (offset : Nat) : lineOffset source offset ≤ offset := by
  rw [lineOffset]
  cases last : (lineEnds source offset).getLast? with
  | none => exact Nat.zero_le offset
  | some lineEnd =>
    have member : lineEnd ∈ lineEnds source offset := List.mem_of_getLast? last
    have before : lineEnd < offset := List.mem_range.1 (List.mem_of_mem_filter member)
    exact before

/-- The place behind a character, by whether a line ends with it. -/
theorem Position.inSource_succ (source : List Char) (offset : Nat) :
    inSource source (offset + 1) =
      if EndsLine source offset then (inSource source offset).nextLine
      else (inSource source offset).nextColumn := by
  have start := lineOffset_le source offset
  split
  · rename_i ends
    have last : lineOffset source (offset + 1) = offset + 1 := by
      rw [lineOffset, lineEnds_succ, if_pos ends, List.getLast?_concat]
      rfl
    rw [inSource, inSource, nextLine, lineEnds_succ, if_pos ends, last, List.length_append, Nat.sub_self]
    rfl
  · rename_i going
    have same : lineOffset source (offset + 1) = lineOffset source offset := by
      rw [lineOffset, lineEnds_succ, if_neg going, List.append_nil, lineOffset]
    have column : 1 + (offset + 1 - lineOffset source offset) =
        1 + (offset - lineOffset source offset) + 1 := by omega
    rw [inSource, inSource, nextColumn, lineEnds_succ, if_neg going, List.append_nil, same, column]

/-- What the rest of a source starts with stands there, and the others stand behind it. -/
theorem getElem?_of_drop {source rest : List Char} {c : Char} {offset : Nat}
    (ahead : source.drop offset = c :: rest) :
    source[offset]? = some c ∧ source.drop (offset + 1) = rest := by
  constructor
  · rw [← List.head?_drop, ahead, List.head?_cons]
  · rw [← List.drop_drop, ahead, List.drop_one, List.tail_cons]

section Stretch

variable {source text back : List Char} {offset : Nat} (ahead : source.drop offset = text ++ back)

include ahead

/-- A stretch ends between a carriage return and its line feed exactly when it ends in the one and the
other follows. -/
theorem partsLineEnd_stretch (nonempty : text ≠ []) :
    PartsLineEnd source (offset + text.length) ↔
      text.getLast? = some '\r' ∧ back.head? = some '\n' := by
  have long : 0 < text.length := List.length_pos_of_ne_nil nonempty
  have last : source[offset + text.length - 1]? = text.getLast? := by
    rw [Nat.add_sub_assoc long, ← List.getElem?_drop, ahead,
      List.getElem?_append_left (Nat.sub_lt long Nat.one_pos), List.getLast?_eq_getElem?]
  have next : source[offset + text.length]? = back.head? := by
    rw [← List.head?_drop, ← List.drop_drop, ahead, List.drop_left]
  rw [PartsLineEnd, last, next]
  exact and_iff_right (Nat.add_pos_right offset long)

end Stretch

/-- A line ends with the first character of a stretch as it does within the stretch, unless this ends
between a carriage return and its line feed. -/
theorem endsLine_iff {source rest back : List Char} {c : Char} {offset : Nat}
    (ahead : source.drop offset = c :: rest ++ back)
    (whole : ¬PartsLineEnd source (offset + (c :: rest).length)) :
    EndsLine source offset ↔ c = '\n' ∨ (c = '\r' ∧ rest.head? ≠ some '\n') := by
  obtain ⟨here, behind⟩ := getElem?_of_drop ahead
  have next : source[offset + 1]? = (rest ++ back).head? := by
    rw [← List.head?_drop, behind]
    rfl
  rw [EndsLine, here, next, Option.some.injEq, Option.some.injEq]
  refine or_congr_right (and_congr_right fun isReturn => not_congr ?_)
  cases rest with
  | cons d rest => rfl
  | nil =>
    have apart : back.head? ≠ some '\n' := fun lineFeed =>
      whole ((partsLineEnd_stretch ahead (List.cons_ne_nil c [])).2 ⟨congrArg some isReturn, lineFeed⟩)
    simp [apart]

/-- Behind a stretch is the place of its end, unless it ends between a carriage return and its line
feed. -/
theorem Position.after_inSource {source text back : List Char} {offset : Nat}
    (ahead : source.drop offset = text ++ back)
    (whole : ¬PartsLineEnd source (offset + text.length)) :
    (inSource source offset).after text = inSource source (offset + text.length) := by
  induction text generalizing offset with
  | nil => rfl
  | cons c rest ih =>
    -- Only the last character of the text could be told apart from the source by what follows it.
    have ends := endsLine_iff ahead whole
    have size : offset + (c :: rest).length = offset + 1 + rest.length := by
      rw [List.length_cons]
      omega
    rw [size] at whole ⊢
    rw [← ih (getElem?_of_drop ahead).2 whole, inSource_succ, after]
    by_cases lineEnd : EndsLine source offset
    · rw [if_pos lineEnd, if_pos (ends.1 lineEnd)]
    · rw [if_neg lineEnd, if_neg fun found => lineEnd (ends.2 found)]

/-! ## Lexemes -/

namespace Lexeme

/-- Neither layout nor a comment has a carriage return behind its first character. -/
theorem return_notMem_of_read {c : Char} {kind : Kind} {tail rest : List Char}
    (h : read c (tail ++ rest) = ⟨kind, tail, rest⟩)
    (passed : kind.isLayout = true ∨ kind = .comment) : '\r' ∉ tail := by
  obtain ⟨split, rfl⟩ := rule_of_read h
  have run {inClass : Char → Bool} (scan : (Rule.of c (tail ++ rest).head?).scan = .run inClass)
      (outside : inClass '\r' = false) : '\r' ∉ tail := by
    intro member
    rw [scan] at split
    have taken : (tail ++ rest).takeWhile inClass = tail := congrArg Prod.fst split
    rw [← taken] at member
    rw [List.mem_takeWhile_imp member] at outside
    cases outside
  rcases passed with layout | comment
  · have found := Rule.layout?_of_kind layout
    unfold Rule.layout? at found
    split_ifs at found with gap pair lineEnd
    · exact run (by rw [← Option.some.inj found]) rfl
    · rw [← Option.some.inj found, ← cons_tail_of_head? pair.2] at split
      have taken : ['\n'] = tail := congrArg Prod.fst split
      rw [← taken]
      decide
    · rw [← Option.some.inj found] at split
      have taken : [] = tail := congrArg Prod.fst split
      rw [← taken]
      exact List.not_mem_nil
  · obtain ⟨rfl, next⟩ := (Rule.kind_of c _ tail).2.2 comment
    exact run (by rw [next]; rfl) rfl

/-- No lexeme ends in a carriage return before a line feed. -/
theorem return_of_read {c : Char} {kind : Kind} {tail rest : List Char}
    (h : read c (tail ++ rest) = ⟨kind, tail, rest⟩) (lineFeed : rest.head? = some '\n') :
    (c :: tail).getLast? ≠ some '\r' := by
  intro last
  rcases List.eq_nil_or_concat' tail with rfl | ⟨front, d, rfl⟩
  · obtain rfl : c = '\r' := by simpa using last
    rw [List.nil_append, ← cons_tail_of_head? lineFeed] at h
    cases h
  · obtain rfl : d = '\r' := by
      rw [← List.cons_append, List.getLast?_concat] at last
      exact Option.some.inj last
    have unpassed : ¬(kind.isLayout = true ∨ kind = .comment) :=
      fun passed => return_notMem_of_read h passed List.mem_concat_self
    have visible : kind.isLayout = false := by simpa using fun layout => unpassed (Or.inl layout)
    have plain : kind ≠ .comment := fun comment => unpassed (Or.inr comment)
    have ended : rest ≠ [] := by
      rintro rfl
      cases lineFeed
    have kept := trimEnd_of_read h visible plain ended
    have blank : IsBlankText ['\r'] := by
      rw [IsBlankText, List.forall_mem_singleton]
      rfl
    obtain ⟨blanks, whole, -⟩ := trimEnd_append_blanks front
    rw [← trimEnd_append_of_blank blank, kept] at whole
    have long := congrArg List.length whole
    simp only [List.length_append, List.length_singleton] at long
    omega

end Lexeme

/-! ## Tokens -/

/-- The tokens of the rest of a source stand at exact places, if the rest starts at one. -/
theorem exact_tokensFrom {source rest : List Char} {start : Position}
    (ahead : source.drop start.offset = rest) (placed : start = Position.inSource source start.offset)
    (whole : ¬PartsLineEnd source start.offset) :
    ∀ token ∈ tokensFrom start rest,
      token.span.start.Exact source ∧ token.span.stop.Exact source := by
  have exactStart : start.Exact source := by
    rw [placed]
    exact Position.inSource_exact whole
  fun_induction tokensFrom start rest with
  | case1 start =>
    intro token member
    obtain rfl := List.mem_singleton.1 member
    exact ⟨exactStart, exactStart⟩
  | case2 start c rest lexeme raw stop ih =>
    have split : c :: rest = c :: lexeme.tail ++ lexeme.rest := by
      rw [List.cons_append, Lexeme.tail_append_rest]
    have read : Lexeme.read c (lexeme.tail ++ lexeme.rest) =
        ⟨lexeme.kind, lexeme.tail, lexeme.rest⟩ := by
      rw [Lexeme.tail_append_rest]
      rfl
    have reached : stop.offset = start.offset + (c :: lexeme.tail).length :=
      offset_after start (c :: lexeme.tail)
    have behind : source.drop stop.offset = lexeme.rest := drop_after_read ahead
    rw [split] at ahead
    -- No lexeme ends within the end of a line, so the next one starts at an exact place again.
    have wholeStop : ¬PartsLineEnd source stop.offset := by
      rw [reached, partsLineEnd_stretch ahead (List.cons_ne_nil c lexeme.tail)]
      exact fun cut => Lexeme.return_of_read read cut.2 cut.1
    have placedStop : stop = Position.inSource source stop.offset := by
      rw [reached] at wholeStop ⊢
      rw [← Position.after_inSource ahead wholeStop, ← placed]
    have exactStop : stop.Exact source := by
      rw [placedStop]
      exact Position.inSource_exact wholeStop
    intro token member
    rcases List.mem_cons.1 member with rfl | later
    · exact ⟨exactStart, exactStop⟩
    · exact ih behind placedStop wholeStop exactStop token later

/-- Every token of a source starts and stops at the place of its offset: the line counts the lines that
are complete there, the column the characters behind them, and no place is between a carriage return and
the line feed behind it. -/
theorem tokenize_places (source : String) : ∀ token ∈ tokenize source,
    token.span.start.Exact source.toList ∧ token.span.stop.Exact source.toList :=
  exact_tokensFrom rfl rfl fun cut => absurd cut.1 (Nat.lt_irrefl 0)

/-- A string that spans a carriage return with its line feed ends one line further. -/
theorem tokenize_places_lines :
    ⟨.string, "'a\r\nb'", "'a\r\nb'", ⟨⟨2, 1, 1⟩, ⟨3, 3, 7⟩⟩⟩ ∈ tokenize "\r'a\r\nb'\r\n" ∧
      (⟨2, 1, 1⟩ : Position).Exact "\r'a\r\nb'\r\n".toList ∧
      (⟨3, 3, 7⟩ : Position).Exact "\r'a\r\nb'\r\n".toList := by
  have member : ⟨.string, "'a\r\nb'", "'a\r\nb'", ⟨⟨2, 1, 1⟩, ⟨3, 3, 7⟩⟩⟩ ∈
      tokenize "\r'a\r\nb'\r\n" := by decide +kernel
  exact ⟨member, tokenize_places "\r'a\r\nb'\r\n" _ member⟩

end SqlLayout
