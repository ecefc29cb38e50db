import SqlLayout.Proofs.Lexeme

/-!
# How lexemes are spelled

What the first character of a lexeme says about its kind, and the other way round: a digit starts a
number (`Rule.of_digit`), a blank character that is no layout is an operator (`Rule.of_blank`), and a
keyword is spelled like one of the table (`Rule.kind_of`). Keywords are spelled in ASCII, so their
upper-case and their lower-case spellings are read as the same keyword again
(`Spells.read`).
-/

namespace SqlLayout

open Text

/-! ## First characters -/

/-- The characters that mean something to a rule other than the one for words. -/
def marks : List Char :=
  "-/'\"\x60.$\x7b:@(),;+*%=<>|&^~!".toList

/-- Whether only the rule for words can apply to a character. -/
def isUnmarked (c : Char) : Bool :=
  !(isGap c || isLineEnd c || isDigit c || marks.contains c)

namespace Rule

/-- A character without a meaning of its own starts a word or is an operator. -/
theorem of_unmarked {c : Char} (unmarked : isUnmarked c = true) (next : Option Char) :
    of c next = (word? c).getD ⟨fun _ => .operator, .take 0⟩ := by
  simp only [isUnmarked, Bool.not_eq_true', Bool.or_eq_false_iff, List.contains_eq_mem,
    decide_eq_false_iff_not] at unmarked
  obtain ⟨⟨⟨noGap, noEnd⟩, noDigit⟩, noMark⟩ := unmarked
  have other {d : Char} (mark : d ∈ marks) : c ≠ d := fun same => noMark (same ▸ mark)
  have noReturn : c ≠ '\r' := by
    rintro rfl
    cases noEnd
  have noDouble (d : Char) : isDoubleOperator c d = false := by
    unfold isDoubleOperator
    split <;> first | rfl | exact absurd (by decide) noMark
  have noOperator : isOperator c = false := by
    simp only [isOperator, List.contains_eq_mem, decide_eq_false_iff_not]
    intro operator
    have known : "+-*/%=<>|&^~!".toList.all (· ∈ marks) = true := by decide
    exact noMark (of_decide_eq_true (List.all_eq_true.1 known c operator))
  have noKind : markKind? c = none := by
    unfold markKind?
    split <;> first | rfl | exact absurd (by decide) noMark
  have anyDouble : next.any (isDoubleOperator c) = false := by
    cases next with
    | none => rfl
    | some d => exact noDouble d
  have noLayout : layout? c next = none := by simp [layout?, noGap, noEnd, noReturn]
  have noComment : comment? c next = none := by
    simp [comment?, other (show '-' ∈ marks by decide), other (show '/' ∈ marks by decide)]
  have noQuote : quoted? c = none := by
    simp [quoted?, other (show '\'' ∈ marks by decide), other (show '"' ∈ marks by decide),
      other (show '\x60' ∈ marks by decide)]
  have noNumber : number? c next = none := by
    simp [number?, noDigit, other (show '.' ∈ marks by decide)]
  have noSign : mark? c = none := by simp [mark?, noKind]
  have noSymbol : operator? c next = none := by simp [operator?, anyDouble, noOperator]
  have noHolder : placeholder? c next = none := by
    simp [placeholder?, other (show '$' ∈ marks by decide), other (show '\x7b' ∈ marks by decide),
      other (show ':' ∈ marks by decide), other (show '@' ∈ marks by decide)]
  rw [of, find?, noLayout, noComment, noQuote, noNumber, noSign, noSymbol, noHolder]
  rfl

/-- A blank character that is no layout is an operator. -/
theorem of_blank {c : Char} {next : Option Char} (visible : layout? c next = none)
    (blank : isBlank c = true) : of c next = ⟨fun _ => .operator, .take 0⟩ := by
  have noEnd := isLineEnd_of_layout? visible
  have noGap : isGap c = false := by
    unfold layout? at visible
    split_ifs at visible with gap
    simpa using gap
  have noDigit : isDigit c = false := Bool.eq_false_iff.2 fun digit => by
    have ink := isBlank_of_isNumberChar (show isNumberChar c = true by simp [isNumberChar, digit])
    rw [blank] at ink
    cases ink
  have noMark : c ∉ marks := fun mark => by
    have ink : marks.all (!isBlank ·) = true := by decide
    have known := List.all_eq_true.1 ink c mark
    rw [blank] at known
    cases known
  have noWord : isWordStart c = false := Bool.eq_false_iff.2 fun word => by
    have inWord := isWordChar_of_isWordStart word
    rw [isWordChar_of_isBlank blank] at inWord
    cases inWord
  rw [of_unmarked (by simp [isUnmarked, noGap, noEnd, noDigit, noMark])]
  simp [word?, noWord]

/-- A digit starts a number. -/
theorem of_digit {c : Char} (digit : isDigit c = true) (next : Option Char) :
    of c next = ⟨fun _ => .number, .number⟩ := by
  have listed : c ∈ "0123456789".toList := by
    simp only [isDigit, Bool.and_eq_true, decide_eq_true_eq] at digit
    have small : ∀ code < 128, 48 ≤ code → code ≤ 57 → Char.ofNat code ∈ "0123456789".toList := by
      decide
    have low : 48 ≤ c.toNat := digit.1
    have high : c.toNat ≤ 57 := digit.2
    have found := small c.toNat (by omega) low high
    rwa [Char.ofNat_toNat] at found
  simp only [String.reduceToList, List.mem_cons, List.not_mem_nil, or_false] at listed
  rcases listed with rfl | rfl | rfl | rfl | rfl | rfl | rfl | rfl | rfl | rfl <;> rfl

/-- What the kind of a lexeme says about it: no lexeme is the end of a source, a keyword is a word
that is spelled like one of the table, and a comment starts with two dashes. -/
theorem kind_of (c : Char) (next : Option Char) (tail : List Char) :
    (of c next).kind tail ≠ .eof ∧ ((of c next).kind tail = .keyword →
      upper (String.ofList (c :: tail)) ∈ Keyword.all ∧ (of c next).scan = .run isWordChar) ∧
    ((of c next).kind tail = .comment → c = '-' ∧ next = some '-') := by
  cases starts_of c next with
  | layout found =>
    have layout := isLayout_of_layout? found tail
    refine ⟨fun same => ?_, fun same => ?_, fun same => ?_⟩ <;> rw [same] at layout <;> cases layout
  | comment opens same =>
    rw [same]
    exact ⟨nofun, nofun, fun _ => opens⟩
  | mark found same =>
    rw [same]
    rcases markKind?_eq_some found with ⟨-, rfl⟩ | ⟨-, rfl⟩ | ⟨-, rfl⟩ | ⟨-, rfl⟩ | ⟨-, rfl⟩ <;>
      exact ⟨nofun, nofun, nofun⟩
  | word start same =>
    rw [same]
    dsimp only
    unfold wordKind
    split
    · rename_i listed
      exact ⟨nofun, fun _ => ⟨by simpa using listed, rfl⟩, nofun⟩
    · exact ⟨nofun, nofun, nofun⟩
  | blockComment _ same | string _ same | name _ same | backtick _ same | number same
  | double _ same | operator same | dollars _ same | braced _ same | template _ same
  | named _ same =>
    rw [same]
    exact ⟨nofun, nofun, nofun⟩

/-- Only the rules for layout read layout. -/
theorem layout?_of_kind {c : Char} {next : Option Char} {tail : List Char}
    (layout : ((of c next).kind tail).isLayout = true) :
    layout? c next = some (of c next) := by
  cases h : layout? c next with
  | some rule => rw [of, find?, h]; rfl
  | none =>
    have visible : ((of c next).kind tail).isLayout = false := by
      cases starts_of c next with
      | layout found =>
        rw [h] at found
        cases found
      | mark found same =>
        rw [same]
        rcases markKind?_eq_some found with ⟨-, rfl⟩ | ⟨-, rfl⟩ | ⟨-, rfl⟩ | ⟨-, rfl⟩ | ⟨-, rfl⟩ <;>
          rfl
      | word start same =>
        rw [same]
        rcases wordKind_cases (String.ofList (c :: tail)) with word | word <;>
          simp only [word, Kind.isLayout]
      | comment _ same | blockComment _ same | string _ same | name _ same | backtick _ same
      | number same | double _ same | operator same | dollars _ same | braced _ same
      | template _ same | named _ same =>
        rw [same]
        rfl
    rw [visible] at layout
    cases layout

/-- Layout has spaces, tabs and line ends only. -/
theorem spacing_of_layout {c : Char} {source tail : List Char}
    (layout : ((of c source.head?).kind tail).isLayout = true)
    (split : ((of c source.head?).scan.split source).1 = tail) :
    ∀ d ∈ c :: tail, isGap d = true ∨ isLineEnd d = true := by
  have found := layout?_of_kind layout
  unfold layout? at found
  split_ifs at found with gap pair lineEnd
  · rw [← Option.some.inj found] at split
    rw [← split]
    intro d member
    rcases List.mem_cons.1 member with rfl | inside
    · exact Or.inl gap
    · exact Or.inl (List.mem_takeWhile_imp inside)
  · rw [← Option.some.inj found, ← cons_tail_of_head? pair.2] at split
    rw [← split, pair.1]
    intro d member
    simp [Scan.split] at member
    rcases member with rfl | rfl <;> exact Or.inr rfl
  · rw [← Option.some.inj found] at split
    rw [← split]
    intro d member
    simp [Scan.split] at member
    rw [member]
    exact Or.inr lineEnd

end Rule

/-! ## Keywords -/

/-- Whether a character may stand in the canonical spelling of a keyword. -/
def isKeywordChar (c : Char) : Bool :=
  c.isUpper || c.isDigit || c == '_'

/-- Keywords are spelled in capitals, digits and underscores, with a capital first. -/
theorem keyword_spelling : ∀ word ∈ Keyword.all,
    word.toList.head?.any Char.isUpper = true ∧ word.toList.all isKeywordChar = true := by
  decide +kernel

/-- A character of a keyword is its own capital and that of its small letter, and both belong to
words. -/
theorem keywordChar_facts : ∀ code < 128, isKeywordChar (Char.ofNat code) = true →
    upperChar (Char.ofNat code) = [Char.ofNat code] ∧
    upperChar (Char.ofNat code).toLower = [Char.ofNat code] ∧
    isWordChar (Char.ofNat code) = true ∧ isWordChar (Char.ofNat code).toLower = true := by
  decide

/-- A capital starts words, and so does its small letter. -/
theorem capital_facts : ∀ code < 128, (Char.ofNat code).isUpper = true →
    isUnmarked (Char.ofNat code) = true ∧ isWordStart (Char.ofNat code) = true ∧
    isUnmarked (Char.ofNat code).toLower = true ∧
    isWordStart (Char.ofNat code).toLower = true := by
  decide

/-- Keywords are spelled in ASCII. -/
theorem toNat_of_isKeywordChar {c : Char} (h : isKeywordChar c = true) : c.toNat < 128 := by
  simp only [isKeywordChar, Bool.or_eq_true, beq_iff_eq] at h
  rcases h with (capital | digit) | rfl
  · have range : 65 ≤ c.val ∧ c.val ≤ 90 := of_decide_eq_true capital
    have bound : c.toNat ≤ 90 := range.2
    omega
  · have range : (decide (48 ≤ c.val) && decide (c.val ≤ 57)) = true := digit
    have bound : c.toNat ≤ 57 := of_decide_eq_true (Bool.and_eq_true_iff.1 range).2
    omega
  · decide

/-- Whether a text is a word that spells a keyword. -/
structure Spells (text : List Char) (word : String) : Prop where
  /-- The text starts like a word, and no other rule applies. -/
  start : ∃ c tail, text = c :: tail ∧ isUnmarked c = true ∧ isWordStart c = true ∧
    ∀ d ∈ tail, isWordChar d = true
  /-- The capitals of the text are the keyword. -/
  capitals : upper (String.ofList text) = word
  /-- The word is a keyword. -/
  listed : word ∈ Keyword.all

/-- The character facts of a keyword in the table. -/
theorem facts_of_mem {word : String} (listed : word ∈ Keyword.all) {c : Char}
    (member : c ∈ word.toList) : upperChar c = [c] ∧ upperChar c.toLower = [c] ∧
      isWordChar c = true ∧ isWordChar c.toLower = true := by
  have inKeyword := List.all_eq_true.1 (keyword_spelling word listed).2 c member
  have facts := keywordChar_facts c.toNat (toNat_of_isKeywordChar inKeyword)
  rw [Char.ofNat_toNat] at facts
  exact facts inKeyword

/-- The capitals of a text whose characters stand for single capitals. -/
theorem flatMap_upperChar {text : List Char} {small : Char → Char}
    (single : ∀ c ∈ text, upperChar (small c) = [c]) : (text.map small).flatMap upperChar = text := by
  induction text with
  | nil => rfl
  | cons c rest ih =>
    rw [List.map_cons, List.flatMap_cons, single c List.mem_cons_self,
      ih fun d member => single d (List.mem_cons_of_mem c member)]
    rfl

/-- The upper-case spelling of a keyword is the keyword. -/
theorem upper_of_mem {word : String} (listed : word ∈ Keyword.all) : upper word = word := by
  have capitals : (word.toList.map id).flatMap upperChar = word.toList :=
    flatMap_upperChar fun c member => (facts_of_mem listed member).1
  rw [List.map_id] at capitals
  rw [upper, capitals, String.ofList_toList]

/-- The first character of a keyword. -/
theorem start_of_mem {word : String} (listed : word ∈ Keyword.all) : ∃ c tail,
    word.toList = c :: tail ∧ isUnmarked c = true ∧ isWordStart c = true ∧
      isUnmarked c.toLower = true ∧ isWordStart c.toLower = true := by
  obtain ⟨c, first, capital⟩ := (Option.any_eq_true _ _).1 (keyword_spelling word listed).1
  refine ⟨c, word.toList.tail, (cons_tail_of_head? first).symm, ?_⟩
  have narrow : c.toNat < 128 := toNat_of_isKeywordChar (by simp [isKeywordChar, capital])
  have facts := capital_facts c.toNat narrow
  rw [Char.ofNat_toNat] at facts
  exact facts capital

/-- A keyword spells itself. -/
theorem spells_self {word : String} (listed : word ∈ Keyword.all) : Spells word.toList word := by
  obtain ⟨c, tail, same, unmarked, start, -, -⟩ := start_of_mem listed
  refine ⟨⟨c, tail, same, unmarked, start, fun d member => ?_⟩, ?_, listed⟩
  · exact (facts_of_mem listed (by rw [same]; exact List.mem_cons_of_mem c member)).2.2.1
  · rw [String.ofList_toList, upper_of_mem listed]

/-- The lower-case spelling of a keyword spells it. -/
theorem spells_lower {word : String} (listed : word ∈ Keyword.all) :
    Spells (lower word).toList word := by
  obtain ⟨c, tail, same, -, -, unmarked, start⟩ := start_of_mem listed
  have small : (lower word).toList = word.toList.map Char.toLower := by
    rw [lower, String.toList_ofList]
  refine ⟨⟨c.toLower, tail.map Char.toLower, ?_, unmarked, start, fun d member => ?_⟩, ?_, listed⟩
  · rw [small, same, List.map_cons]
  · obtain ⟨original, found, rfl⟩ := List.mem_map.1 member
    exact (facts_of_mem listed (by rw [same]; exact List.mem_cons_of_mem c found)).2.2.2
  · have capitals := flatMap_upperChar fun c member => (facts_of_mem listed member).2.1
    rw [small, upper, String.toList_ofList, capitals, String.ofList_toList]

/-- A text that spells a keyword is read as this keyword before any text that does not go on with
the word. -/
theorem Spells.read {text other : List Char} {word : String} (spells : Spells text word)
    (ended : ∀ d ∈ other.head?, isWordChar d = false) :
    ∃ c tail, text = c :: tail ∧ Lexeme.read c (tail ++ other) = ⟨.keyword, tail, other⟩ := by
  obtain ⟨c, tail, rfl, unmarked, start, going⟩ := spells.start
  refine ⟨c, tail, rfl, ?_⟩
  have kind : wordKind (String.ofList (c :: tail)) = .keyword := by
    rw [wordKind, spells.capitals, if_pos (by simpa using spells.listed)]
  have whole : splitWhile isWordChar (tail ++ []) = (tail, []) := by
    rw [List.append_nil, splitWhile, List.takeWhile_eq_self_iff.2 going,
      List.dropWhile_eq_nil_iff.2 going]
  have split : splitWhile isWordChar (tail ++ other) = (tail, other) :=
    splitWhile_again whole fun d next => Or.inr (ended d next)
  rw [Lexeme.read_eq, Rule.of_unmarked unmarked, Rule.word?, if_pos start, Option.getD_some,
    Rule.lexeme, Scan.split, split]
  simp only [kind]

end SqlLayout
