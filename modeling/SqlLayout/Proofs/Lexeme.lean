import Mathlib.Tactic.SplitIfs
import SqlLayout.Proofs.Scan

/-!
# Lexemes and what follows them

Which rule reads a lexeme depends on its first character and on the one behind it (`read_eq`), and
where the lexeme ends depends on one more character. Hence a lexeme that ended before some text
is read again before any text that starts alike, or that starts with a character at which lexemes
of its kind halt (`read_again`). A lexeme that loses blank characters at its end still is a lexeme
of its kind, with or without a line feed that follows (`read_trimmed`).
-/

namespace SqlLayout

open Text

/-! ## Rules -/

/-- What reads a lexeme: the kind it gives to the text behind the first character, and how far it
scans. -/
structure Rule where
  /-- The kind of the lexeme, by its text behind the first character. -/
  kind : List Char → Kind
  /-- How the lexeme goes on. -/
  scan : Scan

namespace Rule

/-- The lexeme that a rule reads. -/
def lexeme (rule : Rule) (source : List Char) : Lexeme :=
  ⟨rule.kind (rule.scan.split source).1, rule.scan.split source⟩

/-- The rules for layout, by a first character and the one behind it. -/
def layout? (c : Char) (next : Option Char) : Option Rule :=
  if isGap c then some ⟨fun _ => .space, .run isGap⟩
  else if c = '\r' ∧ next = some '\n' then some ⟨fun _ => .newline, .take 1⟩
  else if isLineEnd c then some ⟨fun _ => .newline, .take 0⟩
  else none

/-- The rules for comments. -/
def comment? (c : Char) (next : Option Char) : Option Rule :=
  if c = '-' ∧ next = some '-' then some ⟨fun _ => .comment, .run (!isLineEnd ·)⟩
  else if c = '/' ∧ next = some '*' then some ⟨fun _ => .blockComment, .pair '*' '/'⟩
  else none

/-- The rules for strings and quoted names. -/
def quoted? (c : Char) : Option Rule :=
  if c = '\'' then some ⟨fun _ => .string, .string⟩
  else if c = '"' then some ⟨fun _ => .identifier, .through '"'⟩
  else if c = '\x60' then some ⟨fun _ => .backtick, .through '\x60'⟩
  else none

/-- The rule for numbers. -/
def number? (c : Char) (next : Option Char) : Option Rule :=
  if isDigit c || (c == '.' && next.any isDigit) then some ⟨fun _ => .number, .number⟩ else none

/-- The rule for punctuation marks. -/
def mark? (c : Char) : Option Rule :=
  (markKind? c).map fun kind => ⟨fun _ => kind, .take 0⟩

/-- The rules for operators. -/
def operator? (c : Char) (next : Option Char) : Option Rule :=
  if next.any (isDoubleOperator c) then some ⟨fun _ => .operator, .take 1⟩
  else if isOperator c then some ⟨fun _ => .operator, .take 0⟩
  else none

/-- The rules for text between dollar signs and for placeholders. -/
def placeholder? (c : Char) (next : Option Char) : Option Rule :=
  if c = '$' ∧ next = some '$' then some ⟨fun _ => .dollarString, .pair '$' '$'⟩
  else if c = '$' ∧ next = some '\x7b' then some ⟨fun _ => .parameter, .through '\x7d'⟩
  else if c = '\x7b' ∧ next = some '\x7b' then some ⟨fun _ => .parameter, .pair '\x7d' '\x7d'⟩
  else if c = ':' ∨ c = '@' then some ⟨fun _ => .parameter, .run isWordChar⟩
  else none

/-- The rule for words. -/
def word? (c : Char) : Option Rule :=
  if isWordStart c then
    some ⟨fun tail => wordKind (String.ofList (c :: tail)), .run isWordChar⟩
  else none

/-- The first rule that applies to a character and the one behind it. -/
def find? (c : Char) (next : Option Char) : Option Rule :=
  (layout? c next).or <| (comment? c next).or <| (quoted? c).or <| (number? c next).or <|
    (mark? c).or <| (operator? c next).or <| (placeholder? c next).or <| word? c

/-- The rule for a character and the one behind it; a character that no other rule applies to is
an operator. -/
def of (c : Char) (next : Option Char) : Rule :=
  (find? c next).getD ⟨fun _ => .operator, .take 0⟩

end Rule

namespace Lexeme

/-- A scan behind one more character, spelled out for a source that starts with it. -/
theorem pair_split {first second d : Char} {source : List Char} (next : source.head? = some d) :
    (Scan.pair first second).split source =
      (d :: (throughPair first second source.tail).1, (throughPair first second source.tail).2) := by
  obtain ⟨rest, rfl⟩ : ∃ rest, source = d :: rest := ⟨_, (cons_tail_of_head? next).symm⟩
  rfl

/-- The first two characters decide how layout is read. -/
theorem layout?_eq (c : Char) (source : List Char) :
    layout? c source = (Rule.layout? c source.head?).map (Rule.lexeme · source) := by
  unfold layout? Rule.layout?
  split_ifs with gap pair lineEnd
  · rfl
  · rw [Option.map_some, Rule.lexeme, ← cons_tail_of_head? pair.2]
    rfl
  · rfl
  · rfl

/-- The first two characters decide how a comment is read. -/
theorem comment?_eq (c : Char) (source : List Char) :
    comment? c source = (Rule.comment? c source.head?).map (Rule.lexeme · source) := by
  unfold comment? Rule.comment?
  split_ifs with line block
  · rfl
  · rw [Option.map_some, Rule.lexeme, pair_split block.2]
  · rfl

/-- The first character decides how a quoted text is read. -/
theorem quoted?_eq (c : Char) (source : List Char) :
    quoted? c source = (Rule.quoted? c).map (Rule.lexeme · source) := by
  unfold quoted? Rule.quoted?
  split_ifs <;> rfl

/-- The first two characters decide whether a number is read. -/
theorem number?_eq (c : Char) (source : List Char) :
    number? c source = (Rule.number? c source.head?).map (Rule.lexeme · source) := by
  unfold number? Rule.number?
  split_ifs <;> rfl

/-- The first character decides whether a punctuation mark is read. -/
theorem mark?_eq (c : Char) (source : List Char) :
    mark? c source = (Rule.mark? c).map (Rule.lexeme · source) := by
  unfold mark? Rule.mark?
  cases markKind? c <;> rfl

/-- The first two characters decide how an operator is read. -/
theorem operator?_eq (c : Char) (source : List Char) :
    operator? c source = (Rule.operator? c source.head?).map (Rule.lexeme · source) := by
  unfold operator? Rule.operator?
  split_ifs
  · rw [Option.map_some, Rule.lexeme, Scan.split, List.drop_one]
  · rfl
  · rfl

/-- The first two characters decide how a placeholder is read. -/
theorem placeholder?_eq (c : Char) (source : List Char) :
    placeholder? c source = (Rule.placeholder? c source.head?).map (Rule.lexeme · source) := by
  unfold placeholder? Rule.placeholder?
  split_ifs with dollars braced template named
  · rw [Option.map_some, Rule.lexeme, pair_split dollars.2]
  · rfl
  · rw [Option.map_some, Rule.lexeme, pair_split template.2]
  · rfl
  · rfl

/-- The first character decides whether a word is read. -/
theorem word?_eq (c : Char) (source : List Char) :
    word? c source = (Rule.word? c).map (Rule.lexeme · source) := by
  unfold word? Rule.word?
  split_ifs
  · rw [Option.map_some, Rule.lexeme, Scan.split, splitWhile]
  · rfl

/-- The first two characters of a source decide how its first lexeme is read. -/
theorem read_eq (c : Char) (source : List Char) :
    read c source = (Rule.of c source.head?).lexeme source := by
  have found : rule? c source = (Rule.find? c source.head?).map (Rule.lexeme · source) := by
    rw [rule?, Rule.find?, layout?_eq, comment?_eq, quoted?_eq, number?_eq, mark?_eq, operator?_eq,
      placeholder?_eq, word?_eq]
    simp only [Option.map_or]
  rw [read, found, Rule.of]
  cases Rule.find? c source.head? <;> rfl

end Lexeme

/-! ## Characters that end a lexeme -/

/-- Whether a character separates lexemes: layout, a parenthesis, a comma or a semicolon. -/
def isBreak (c : Char) : Bool :=
  isGap c || isLineEnd c || c == '(' || c == ')' || c == ',' || c == ';'

/-- Whether a lexeme of a kind ends before a character wherever it meets it. -/
def Kind.haltsAt : Kind → Char → Bool
  | .lparen, _ | .rparen, _ | .comma, _ | .semicolon, _ => true
  | .dot, c => !isDigit c
  | .comment, c => isLineEnd c
  | .number, c => isBreak c
  | _, c => isBreak c || c == '.'

/-- The second character of an operator of two characters. -/
theorem second_of_isDoubleOperator {c d : Char} (h : isDoubleOperator c d = true) :
    d = '=' ∨ d = '>' ∨ d = '|' := by
  unfold isDoubleOperator at h
  split at h <;> simp_all

/-- The characters that separate lexemes, and the dot. -/
theorem break_cases {d : Char} (h : isBreak d = true ∨ d = '.') :
    d = ' ' ∨ d = '\t' ∨ d = '\r' ∨ d = '\n' ∨ d = '(' ∨ d = ')' ∨ d = ',' ∨ d = ';' ∨ d = '.' := by
  simp only [isBreak, isGap, isLineEnd, Bool.or_eq_true, beq_iff_eq] at h
  rcases h with (((((gap | lineEnd) | rfl) | rfl) | rfl) | rfl) | rfl
  · rcases gap with rfl | rfl <;> simp
  · rcases lineEnd with rfl | rfl <;> simp
  all_goals simp

namespace Rule

/-- A character that separates lexemes selects the same rule as the end of the source. -/
theorem of_break {c d : Char} (h : isBreak d = true ∨ d = '.') (visible : isLineEnd c = false) :
    Rule.of c (some d) = Rule.of c none := by
  have noReturn : c ≠ '\r' := by
    rintro rfl
    exact absurd visible (by decide)
  have noDouble : isDoubleOperator c d = false := by
    by_contra double
    rw [Bool.not_eq_false] at double
    have second := second_of_isDoubleOperator double
    rcases break_cases h with rfl | rfl | rfl | rfl | rfl | rfl | rfl | rfl | rfl <;> simp at second
  have noDigit : isDigit d = false := by
    rcases break_cases h with rfl | rfl | rfl | rfl | rfl | rfl | rfl | rfl | rfl <;> rfl
  have others : d ≠ '-' ∧ d ≠ '*' ∧ d ≠ '$' ∧ d ≠ '\x7b' := by
    rcases break_cases h with rfl | rfl | rfl | rfl | rfl | rfl | rfl | rfl | rfl <;> decide
  simp [of, find?, layout?, comment?, number?, operator?, placeholder?, noReturn, noDouble, noDigit,
    others]

/-- What a character and the one behind it start, and the rule that reads it. -/
inductive Starts (c : Char) (next : Option Char) (rule : Rule) : Prop
  /-- Layout. -/
  | layout (found : layout? c next = some rule)
  /-- A comment up to the end of its line. -/
  | comment (opens : c = '-' ∧ next = some '-')
    (same : rule = ⟨fun _ => .comment, .run (!isLineEnd ·)⟩)
  /-- A comment between delimiters. -/
  | blockComment (opens : c = '/' ∧ next = some '*')
    (same : rule = ⟨fun _ => .blockComment, .pair '*' '/'⟩)
  /-- A string. -/
  | string (opens : c = '\'') (same : rule = ⟨fun _ => .string, .string⟩)
  /-- A name in double quotes. -/
  | name (opens : c = '"') (same : rule = ⟨fun _ => .identifier, .through '"'⟩)
  /-- A name in backticks. -/
  | backtick (opens : c = '\x60') (same : rule = ⟨fun _ => .backtick, .through '\x60'⟩)
  /-- A number. -/
  | number (same : rule = ⟨fun _ => .number, .number⟩)
  /-- A punctuation mark. -/
  | mark {kind : Kind} (found : markKind? c = some kind) (same : rule = ⟨fun _ => kind, .take 0⟩)
  /-- An operator of two characters. -/
  | double (second : next.any (isDoubleOperator c) = true)
    (same : rule = ⟨fun _ => .operator, .take 1⟩)
  /-- An operator of one character, or any other character. -/
  | operator (same : rule = ⟨fun _ => .operator, .take 0⟩)
  /-- Text between double dollar signs. -/
  | dollars (opens : c = '$' ∧ next = some '$') (same : rule = ⟨fun _ => .dollarString, .pair '$' '$'⟩)
  /-- A placeholder in braces behind a dollar sign. -/
  | braced (opens : c = '$' ∧ next = some '\x7b')
    (same : rule = ⟨fun _ => .parameter, .through '\x7d'⟩)
  /-- A placeholder in double braces. -/
  | template (opens : c = '\x7b' ∧ next = some '\x7b')
    (same : rule = ⟨fun _ => .parameter, .pair '\x7d' '\x7d'⟩)
  /-- A placeholder with a name. -/
  | named (opens : c = ':' ∨ c = '@') (same : rule = ⟨fun _ => .parameter, .run isWordChar⟩)
  /-- A word. -/
  | word (start : isWordStart c = true)
    (same : rule = ⟨fun tail => wordKind (String.ofList (c :: tail)), .run isWordChar⟩)

/-- The rule for a character and the one behind it reads what they start. -/
theorem starts_of (c : Char) (next : Option Char) : Starts c next (of c next) := by
  unfold of
  cases h : find? c next with
  | none => exact Starts.operator rfl
  | some rule =>
    rw [Option.getD_some]
    simp only [find?, Option.or_eq_some_iff] at h
    rcases h with h | ⟨-, h | ⟨-, h | ⟨-, h | ⟨-, h | ⟨-, h | ⟨-, h | ⟨-, h⟩⟩⟩⟩⟩⟩⟩
    · exact Starts.layout h
    · unfold comment? at h
      split_ifs at h with line block <;> cases h
      · exact Starts.comment line rfl
      · exact Starts.blockComment block rfl
    · unfold quoted? at h
      split_ifs at h with apostrophe quote backtick <;> cases h
      · exact Starts.string apostrophe rfl
      · exact Starts.name quote rfl
      · exact Starts.backtick backtick rfl
    · unfold number? at h
      split_ifs at h
      cases h
      exact Starts.number rfl
    · obtain ⟨kind, found, rfl⟩ := Option.map_eq_some_iff.1 h
      exact Starts.mark found rfl
    · unfold operator? at h
      split_ifs at h with double <;> cases h
      · exact Starts.double double rfl
      · exact Starts.operator rfl
    · unfold placeholder? at h
      split_ifs at h with dollars braced template named <;> cases h
      · exact Starts.dollars dollars rfl
      · exact Starts.braced braced rfl
      · exact Starts.template template rfl
      · exact Starts.named named rfl
    · unfold word? at h
      split_ifs at h with start
      exact Starts.word start (Option.some.inj h).symm

/-- The rules for layout read layout. -/
theorem isLayout_of_layout? {c : Char} {next : Option Char} {rule : Rule}
    (found : layout? c next = some rule) (tail : List Char) : (rule.kind tail).isLayout = true := by
  unfold layout? at found
  split_ifs at found <;> cases found <;> rfl

/-- What the rules have in common. -/
structure Sound (c : Char) (next : Option Char) (rule : Rule) : Prop where
  /-- A line feed may follow a shortened lexeme. -/
  breaks : rule.scan.Breaks
  /-- A lexeme ends where its kind halts. -/
  stops : ∀ tail d, (rule.kind tail).haltsAt d = true → rule.scan.stopsAt d = true
  /-- Only quoted text goes on with a blank character. -/
  front : ∀ d rest, next = some d → isBlank d = true →
    (rule.scan.split (d :: rest)).1 = [] ∨ quoted? c = some rule
  /-- Blank characters at the end of a lexeme do not matter for its kind. -/
  steady : ∀ source kept lost, (rule.scan.split source).1 = kept ++ lost → IsBlankText lost →
    rule.kind (kept ++ lost) = rule.kind kept ∧ (rule.scan = .number → lost = [])

/-- A character that separates lexemes belongs to no number. -/
theorem isNumberChar_of_isBreak {d : Char} (h : isBreak d = true) : isNumberChar d = false := by
  rcases break_cases (Or.inl h) with rfl | rfl | rfl | rfl | rfl | rfl | rfl | rfl | rfl
  case inr.inr.inr.inr.inr.inr.inr.inr => exact absurd h (by decide)
  all_goals rfl

/-- A character that separates lexemes, or a dot, belongs to no word. -/
theorem isWordChar_of_isBreak {d : Char} (h : isBreak d = true ∨ d = '.') :
    isWordChar d = false := by
  rcases break_cases h with rfl | rfl | rfl | rfl | rfl | rfl | rfl | rfl | rfl <;> rfl

/-- A text without blank characters does not end in blank ones. -/
theorem eq_nil_of_no_blanks {text kept lost : List Char} (split : text = kept ++ lost)
    (ink : ∀ c ∈ text, isBlank c = false) (blank : IsBlankText lost) : lost = [] := by
  refine List.eq_nil_iff_forall_not_mem.2 fun c member => ?_
  have found := ink c (by rw [split]; exact List.mem_append_right _ member)
  rw [blank c member] at found
  cases found

/-- A rule that waits for a delimiter behind a second character is sound. -/
theorem sound_delimited (c : Char) {second : Char} (ink : isBlank second = false) (kind : Kind)
    {scan : Scan} (breaks : scan.Breaks) (stops : ∀ d, scan.stopsAt d = true)
    (notNumber : scan ≠ .number) : Sound c (some second) ⟨fun _ => kind, scan⟩ where
  breaks := breaks
  stops := fun _ d _ => stops d
  front := fun d rest same blank => by
    rw [← Option.some.inj same, ink] at blank
    cases blank
  steady := fun _ _ _ _ _ => ⟨rfl, fun number => absurd number notNumber⟩

/-- A rule for quoted text is sound. -/
theorem sound_quoted {c : Char} {next : Option Char} {kind : Kind} {scan : Scan}
    (quoted : quoted? c = some ⟨fun _ => kind, scan⟩) (breaks : scan.Breaks)
    (stops : ∀ d, kind.haltsAt d = true → scan.stopsAt d = true) (notNumber : scan ≠ .number) :
    Sound c next ⟨fun _ => kind, scan⟩ where
  breaks := breaks
  stops := fun _ => stops
  front := fun _ _ _ _ => Or.inr quoted
  steady := fun _ _ _ _ _ => ⟨rfl, fun number => absurd number notNumber⟩

/-- A number does not start with a blank character. -/
theorem splitNumber_blank {d : Char} (blank : isBlank d = true) (rest : List Char) :
    (splitNumber (d :: rest)).1 = [] := by
  cases taken : (splitNumber (d :: rest)).1 with
  | nil => rfl
  | cons first tail =>
    have whole := splitNumber_append (d :: rest)
    rw [taken, List.cons_append, List.cons.injEq] at whole
    have inNumber : isNumberChar first = true :=
      isNumberChar_of_mem_number (by rw [taken]; exact List.mem_cons_self)
    rw [whole.1] at inNumber
    rw [isBlank_of_isNumberChar inNumber] at blank
    cases blank

/-- A rule that takes no further character is sound. -/
theorem sound_take_zero (c : Char) (next : Option Char) (kind : Kind) :
    Sound c next ⟨fun _ => kind, .take 0⟩ where
  breaks := rfl
  stops := fun _ _ _ => rfl
  front := fun _ _ _ _ => Or.inl rfl
  steady := fun _ _ _ _ _ => ⟨rfl, nofun⟩

/-- A rule that takes characters of words is sound. -/
theorem sound_run_word (c : Char) (next : Option Char) (kind : List Char → Kind)
    (halts : ∀ tail d, (kind tail).haltsAt d = true → isBreak d = true ∨ d = '.') :
    Sound c next ⟨kind, .run isWordChar⟩ where
  breaks := rfl
  stops := fun tail d stop => by simp [Scan.stopsAt, isWordChar_of_isBreak (halts tail d stop)]
  front := fun d rest _ blank => by
    simp [Scan.split, splitWhile, isWordChar_of_isBlank blank]
  steady := fun source kept lost split blank => by
    have ink : ∀ c ∈ source.takeWhile isWordChar, isBlank c = false := by
      intro c member
      by_contra blank
      rw [Bool.not_eq_false] at blank
      have word := List.mem_takeWhile_imp member
      rw [isWordChar_of_isBlank blank] at word
      cases word
    rw [eq_nil_of_no_blanks split ink blank, List.append_nil]
    exact ⟨rfl, fun number => by cases number⟩

/-- A bare word is a keyword or a name. -/
theorem wordKind_cases (word : String) : wordKind word = .keyword ∨ wordKind word = .identifier := by
  unfold wordKind
  split
  · exact Or.inl rfl
  · exact Or.inr rfl

/-- Every rule that does not read layout is sound. -/
theorem sound_of {c : Char} {next : Option Char} (visible : layout? c next = none) :
    Sound c next (of c next) := by
  cases starts_of c next with
  | layout found =>
    rw [visible] at found
    cases found
  | comment opens same =>
    rw [same, opens.2]
    exact {
      breaks := rfl
      stops := fun tail d halts => by simpa [Scan.stopsAt, Kind.haltsAt] using halts
      front := fun d rest same blank => by cases same; cases blank
      steady := fun _ _ _ _ _ => ⟨rfl, fun number => by cases number⟩ }
  | blockComment opens same =>
    rw [same, opens.2]
    exact sound_delimited c rfl _ (by simp [Scan.Breaks]) (fun _ => rfl) (by simp)
  | string opens same =>
    rw [same]
    refine sound_quoted (by rw [opens]; rfl) rfl (fun d halts => ?_) (by simp)
    simp only [Kind.haltsAt, Bool.or_eq_true, beq_iff_eq] at halts
    rcases break_cases halts with rfl | rfl | rfl | rfl | rfl | rfl | rfl | rfl | rfl <;> rfl
  | name opens same =>
    rw [same]
    exact sound_quoted (by rw [opens]; rfl) rfl (fun _ _ => rfl) (by simp)
  | backtick opens same =>
    rw [same]
    exact sound_quoted (by rw [opens]; rfl) rfl (fun _ _ => rfl) (by simp)
  | number same =>
    rw [same]
    exact {
      breaks := rfl
      stops := fun tail d halts => by simp [Scan.stopsAt, isNumberChar_of_isBreak halts]
      front := fun d rest _ blank => Or.inl (splitNumber_blank blank rest)
      steady := fun source kept lost split blank => ⟨rfl, fun _ => eq_nil_of_no_blanks split
        (fun c member => isBlank_of_isNumberChar (isNumberChar_of_mem_number member)) blank⟩ }
  | mark found same =>
    rw [same]
    exact sound_take_zero c next _
  | double second same =>
    rw [same]
    refine ⟨rfl, fun _ _ _ => rfl, fun d rest next blank => ?_,
      fun _ _ _ _ _ => ⟨rfl, fun number => by cases number⟩⟩
    rw [next, Option.any_some] at second
    rcases second_of_isDoubleOperator second with rfl | rfl | rfl <;> cases blank
  | operator same =>
    rw [same]
    exact sound_take_zero c next _
  | dollars opens same =>
    rw [same, opens.2]
    exact sound_delimited c rfl _ (by simp [Scan.Breaks]) (fun _ => rfl) (by simp)
  | braced opens same =>
    rw [same, opens.2]
    exact sound_delimited c rfl _ rfl (fun _ => rfl) (by simp)
  | template opens same =>
    rw [same, opens.2]
    exact sound_delimited c rfl _ (by simp [Scan.Breaks]) (fun _ => rfl) (by simp)
  | named opens same =>
    rw [same]
    exact sound_run_word c next _ fun tail d stop => by
      simpa only [Kind.haltsAt, Bool.or_eq_true, beq_iff_eq] using stop
  | word start same =>
    rw [same]
    refine sound_run_word c next _ fun tail d stop => ?_
    rcases wordKind_cases (String.ofList (c :: tail)) with word | word
    all_goals
      rw [word] at stop
      simpa only [Kind.haltsAt, Bool.or_eq_true, beq_iff_eq] using stop

/-! ## Single characters -/

/-- Whether a choice of a rule is the one for a character alone, unless it takes a further
character of the source. -/
def Alone (source : List Char) (chosen alone : Option Rule) : Prop :=
  chosen = alone ∨ ∃ rule, chosen = some rule ∧ (rule.scan.split source).1 ≠ []

/-- Choices in order are those for a character alone, if each is. -/
theorem Alone.or {source : List Char} {first second firstAlone secondAlone : Option Rule}
    (left : Alone source first firstAlone) (right : Alone source second secondAlone) :
    Alone source (first.or second) (firstAlone.or secondAlone) := by
  rcases left with rfl | ⟨rule, rfl, taken⟩
  · rcases right with rfl | ⟨rule, rfl, taken⟩
    · exact Or.inl rfl
    · cases first with
      | none => exact Or.inr ⟨rule, rfl, taken⟩
      | some chosen => exact Or.inl rfl
  · exact Or.inr ⟨rule, rfl, taken⟩

/-- A choice that does not depend on the source. -/
theorem Alone.refl (source : List Char) (chosen : Option Rule) : Alone source chosen chosen :=
  Or.inl rfl

/-- Layout of one character is read as if it stood alone. -/
theorem layout?_alone (c : Char) (source : List Char) :
    Alone source (layout? c source.head?) (layout? c none) := by
  by_cases pair : c = '\r' ∧ source.head? = some '\n'
  · refine Or.inr ⟨⟨fun _ => .newline, .take 1⟩, ?_, ?_⟩
    · rw [layout?, if_neg (by rw [pair.1]; decide), if_pos pair]
    · rw [← cons_tail_of_head? pair.2]
      simp [Scan.split]
  · exact Or.inl (by simp [layout?, pair])

/-- No comment has one character. -/
theorem comment?_alone (c : Char) (source : List Char) :
    Alone source (comment? c source.head?) (comment? c none) := by
  by_cases line : c = '-' ∧ source.head? = some '-'
  · refine Or.inr ⟨⟨fun _ => .comment, .run (!isLineEnd ·)⟩, by simp [comment?, line], ?_⟩
    rw [← cons_tail_of_head? line.2]
    have inside : isLineEnd '-' = false := by decide
    simp [Scan.split, splitWhile, inside]
  by_cases block : c = '/' ∧ source.head? = some '*'
  · refine Or.inr ⟨⟨fun _ => .blockComment, .pair '*' '/'⟩, by simp [comment?, block], ?_⟩
    rw [Lexeme.pair_split block.2]
    simp
  · exact Or.inl (by simp [comment?, line, block])

/-- A number of one character is read as if it stood alone. -/
theorem number?_alone (c : Char) (source : List Char) :
    Alone source (number? c source.head?) (number? c none) := by
  by_cases fraction : isDigit c = false ∧ c = '.' ∧ source.head?.any isDigit
  · refine Or.inr ⟨⟨fun _ => .number, .number⟩, by simp [number?, fraction], ?_⟩
    obtain ⟨d, next, digit⟩ := (Option.any_eq_true _ _).1 fraction.2.2
    rw [← cons_tail_of_head? next]
    simp [Scan.split, splitNumber, splitWhile, digit]
  · refine Or.inl ?_
    cases digit : isDigit c with
    | true => simp [number?, digit]
    | false =>
      have noFraction : (c == '.' && source.head?.any isDigit) = false := by
        simpa [digit] using fraction
      simp [number?, digit, noFraction]

/-- An operator of one character is read as if it stood alone. -/
theorem operator?_alone (c : Char) (source : List Char) :
    Alone source (operator? c source.head?) (operator? c none) := by
  by_cases double : source.head?.any (isDoubleOperator c)
  · refine Or.inr ⟨⟨fun _ => .operator, .take 1⟩, by simp [operator?, double], ?_⟩
    obtain ⟨d, next, -⟩ := (Option.any_eq_true _ _).1 double
    rw [← cons_tail_of_head? next]
    simp [Scan.split]
  · exact Or.inl (by simp [operator?, double])

/-- A placeholder of one character is read as if it stood alone. -/
theorem placeholder?_alone (c : Char) (source : List Char) :
    Alone source (placeholder? c source.head?) (placeholder? c none) := by
  by_cases dollars : c = '$' ∧ source.head? = some '$'
  · refine Or.inr ⟨⟨fun _ => .dollarString, .pair '$' '$'⟩, by simp [placeholder?, dollars], ?_⟩
    rw [Lexeme.pair_split dollars.2]
    simp
  by_cases braced : c = '$' ∧ source.head? = some '\x7b'
  · refine Or.inr ⟨⟨fun _ => .parameter, .through '\x7d'⟩, by simp [placeholder?, braced], ?_⟩
    rw [← cons_tail_of_head? braced.2]
    exact through_ne_nil _ _ _
  by_cases template : c = '\x7b' ∧ source.head? = some '\x7b'
  · refine Or.inr ⟨⟨fun _ => .parameter, .pair '\x7d' '\x7d'⟩, by simp [placeholder?, template], ?_⟩
    rw [Lexeme.pair_split template.2]
    simp
  · exact Or.inl (by simp [placeholder?, dollars, braced, template])

/-- A lexeme of one character is read as if the character stood alone. -/
theorem of_alone {c : Char} {source : List Char}
    (single : ((of c source.head?).scan.split source).1 = []) :
    of c source.head? = of c none := by
  have found : Alone source (find? c source.head?) (find? c none) :=
    (layout?_alone c source).or <| (comment?_alone c source).or <| (Alone.refl _ _).or <|
      (number?_alone c source).or <| (Alone.refl _ _).or <| (operator?_alone c source).or <|
      (placeholder?_alone c source).or (Alone.refl _ _)
  rcases found with same | ⟨rule, chosen, taken⟩
  · rw [of, of, same]
  · rw [of, chosen, Option.getD_some] at single
    exact absurd single taken

/-- A lexeme of the kind of a punctuation mark starts with it. -/
theorem markKind?_of_kind {c : Char} {next : Option Char} {tail : List Char} {kind : Kind}
    (h : (of c next).kind tail = kind) (mark : kind = .lparen ∨ kind = .rparen ∨ kind = .comma ∨
      kind = .semicolon ∨ kind = .dot) : markKind? c = some kind := by
  subst h
  cases starts_of c next with
  | layout found =>
    have layout := isLayout_of_layout? found tail
    rcases mark with mark | mark | mark | mark | mark <;> rw [mark] at layout <;> cases layout
  | mark found same =>
    rw [same]
    exact found
  | word start same =>
    rw [same] at mark
    dsimp only at mark
    rcases wordKind_cases (String.ofList (c :: tail)) with word | word <;> rw [word] at mark <;>
      simp at mark
  | comment _ same | blockComment _ same | string _ same | name _ same | backtick _ same
  | number same | double _ same | operator same | dollars _ same | braced _ same
  | template _ same | named _ same => simp [same] at mark

/-- The characters of the punctuation marks. -/
theorem markKind?_eq_some {c : Char} {kind : Kind} (h : markKind? c = some kind) :
    (c = '(' ∧ kind = .lparen) ∨ (c = ')' ∧ kind = .rparen) ∨ (c = ',' ∧ kind = .comma) ∨
      (c = ';' ∧ kind = .semicolon) ∨ (c = '.' ∧ kind = .dot) := by
  unfold markKind? at h
  split at h <;> simp_all

/-- A kind that halts at a character that separates nothing is that of a punctuation mark. -/
theorem mark_of_haltsAt {kind : Kind} {d : Char} (halts : kind.haltsAt d = true)
    (joined : ¬(isBreak d = true ∨ d = '.')) :
    kind = .lparen ∨ kind = .rparen ∨ kind = .comma ∨ kind = .semicolon ∨ kind = .dot := by
  have noBreak : isBreak d = false := by simpa using fun h => joined (Or.inl h)
  have noEnd : isLineEnd d = false := by
    simp only [isBreak, Bool.or_eq_false_iff] at noBreak
    exact noBreak.1.1.1.1.2
  have noDot : (d == '.') = false := by simpa using fun h => joined (Or.inr h)
  cases kind <;> simp [Kind.haltsAt, noBreak, noEnd, noDot] at halts ⊢

/-- No end of a line is read by the other rules. -/
theorem isLineEnd_of_layout? {c : Char} {next : Option Char} (visible : layout? c next = none) :
    isLineEnd c = false := by
  unfold layout? at visible
  split_ifs at visible with _ _ lineEnd
  simpa using lineEnd

/-- A character at which a lexeme of one character halts does not change how it is read. -/
theorem of_halting {c d : Char} (visible : layout? c none = none)
    (halts : ((of c none).kind []).haltsAt d = true) : of c (some d) = of c none := by
  have sameLine := isLineEnd_of_layout? visible
  by_cases separated : isBreak d = true ∨ d = '.'
  · exact of_break separated sameLine
  · have mark := mark_of_haltsAt halts separated
    obtain ⟨kind, same⟩ : ∃ kind, (of c none).kind [] = kind := ⟨_, rfl⟩
    rw [same] at mark halts
    rcases markKind?_eq_some (markKind?_of_kind same mark) with
      ⟨rfl, rfl⟩ | ⟨rfl, rfl⟩ | ⟨rfl, rfl⟩ | ⟨rfl, rfl⟩ | ⟨rfl, rfl⟩
    case inr.inr.inr.inr =>
      have noDigit : isDigit d = false := by simpa [Kind.haltsAt] using halts
      have noNumber : number? '.' (some d) = number? '.' none := by simp [number?, noDigit]
      rw [of, of, find?, find?, noNumber]
      rfl
    all_goals rfl

/-- How quoted text is read depends on its first character only. -/
theorem of_quoted {c : Char} {rule : Rule} (h : quoted? c = some rule) (next : Option Char) :
    of c next = rule := by
  unfold quoted? at h
  split_ifs at h with apostrophe quote backtick
  · subst apostrophe
    cases h
    rfl
  · subst quote
    cases h
    rfl
  · subst backtick
    cases h
    rfl

/-- Only layout is read by the rules for layout. -/
theorem layout?_eq_none {c : Char} {next : Option Char} {tail : List Char}
    (visible : ((of c next).kind tail).isLayout = false) : layout? c next = none := by
  cases h : layout? c next with
  | none => rfl
  | some rule =>
    have chosen : of c next = rule := by rw [of, find?, h]; rfl
    rw [chosen, isLayout_of_layout? h] at visible
    cases visible

/-- How the rules that do not read layout end: with a character that is not blank, apart from those for
comments and for operators of two characters. -/
theorem closes_of {c : Char} {next : Option Char} (visible : layout? c next = none) :
    (of c next).scan.Closes ∨ (∀ tail, (of c next).kind tail = .comment) ∨
      ((of c next).scan = .take 1 ∧ next.any (isDoubleOperator c) = true) := by
  have word : (Scan.run isWordChar).Closes := by
    intro d inWord
    refine Bool.eq_false_iff.2 fun blank => ?_
    rw [isWordChar_of_isBlank blank] at inWord
    cases inWord
  cases starts_of c next with
  | layout found =>
    rw [visible] at found
    cases found
  | comment _ same => exact Or.inr (Or.inl fun _ => by rw [same])
  | double second same => exact Or.inr (Or.inr ⟨by rw [same], second⟩)
  | number same | string _ same =>
    rw [same]
    exact Or.inl trivial
  | named _ same | word _ same =>
    rw [same]
    exact Or.inl word
  | blockComment _ same | name _ same | backtick _ same | mark _ same | operator same
  | dollars _ same | braced _ same | template _ same =>
    rw [same]
    exact Or.inl rfl

end Rule

namespace Lexeme

/-- What the reading of a lexeme says about its rule. -/
theorem rule_of_read {c : Char} {source tail rest : List Char} {kind : Kind}
    (h : read c source = ⟨kind, tail, rest⟩) :
    (Rule.of c source.head?).scan.split source = (tail, rest) ∧
      (Rule.of c source.head?).kind tail = kind := by
  rw [read_eq, Rule.lexeme, Lexeme.mk.injEq] at h
  refine ⟨h.2, ?_⟩
  rw [← h.1, h.2]

/-- A lexeme that ended before some text is read again before any text that starts alike, or with a
character at which its kind halts. -/
theorem read_again {c : Char} {kind : Kind} {tail rest other : List Char}
    (h : read c (tail ++ rest) = ⟨kind, tail, rest⟩) (visible : kind.isLayout = false)
    (ended : rest ≠ []) (halts : ∀ d ∈ other.head?, rest.head? = some d ∨ kind.haltsAt d = true) :
    read c (tail ++ other) = ⟨kind, tail, other⟩ := by
  obtain ⟨split, rfl⟩ := rule_of_read h
  have unread := Rule.layout?_eq_none visible
  have sound := Rule.sound_of unread
  have sameRule : Rule.of c (tail ++ other).head? = Rule.of c (tail ++ rest).head? := by
    cases tail with
    | cons d tail => rfl
    | nil =>
      have single : Rule.of c rest.head? = Rule.of c none :=
        Rule.of_alone (congrArg Prod.fst split)
      simp only [List.nil_append, single] at visible halts ⊢
      cases other with
      | nil => rfl
      | cons d other =>
        rcases halts d rfl with same | stop
        · rw [← single, same]
          rfl
        · exact Rule.of_halting (Rule.layout?_eq_none visible) stop
  have again : (Rule.of c (tail ++ rest).head?).scan.split (tail ++ other) = (tail, other) :=
    Scan.split_again ended split fun d next => (halts d next).imp_right (sound.stops tail d)
  rw [read_eq, sameRule, Rule.lexeme, again]

/-- A lexeme that ended before some text is read again before any text that starts alike, layout
included. -/
theorem read_alike {c : Char} {kind : Kind} {tail rest other : List Char}
    (h : read c (tail ++ rest) = ⟨kind, tail, rest⟩) (ended : rest ≠ [])
    (same : other.head? = rest.head?) : read c (tail ++ other) = ⟨kind, tail, other⟩ := by
  obtain ⟨split, rfl⟩ := rule_of_read h
  have sameRule : Rule.of c (tail ++ other).head? = Rule.of c (tail ++ rest).head? := by
    rw [List.head?_append, List.head?_append, same]
  have again : (Rule.of c (tail ++ rest).head?).scan.split (tail ++ other) = (tail, other) := by
    refine Scan.split_again ended split fun d next => Or.inl ?_
    rw [← same]
    exact next
  rw [read_eq, sameRule, Rule.lexeme, again]

/-- A lexeme that is neither layout nor a comment has no blank characters at its end, unless it is a
single character or ends its source. -/
theorem trimEnd_of_read {c : Char} {kind : Kind} {tail rest : List Char}
    (h : read c (tail ++ rest) = ⟨kind, tail, rest⟩) (visible : kind.isLayout = false)
    (plain : kind ≠ .comment) (ended : rest ≠ []) : trimEnd tail = tail := by
  obtain ⟨split, rfl⟩ := rule_of_read h
  rcases List.eq_nil_or_concat' tail with rfl | ⟨front, last, rfl⟩
  · rfl
  refine trimEnd_concat ?_
  rcases Rule.closes_of (Rule.layout?_eq_none visible) with closes | comment | ⟨two, double⟩
  · have ink := Scan.ink_of_split closes (by rwa [split])
    rw [split] at ink
    exact ink last (by simp)
  · exact absurd (comment _) plain
  · rw [two] at split
    have taken : (front ++ [last] ++ rest).take 1 = front ++ [last] := congrArg Prod.fst split
    cases front with
    | nil => rcases second_of_isDoubleOperator double with rfl | rfl | rfl <;> rfl
    | cons d front => simp at taken

/-- A lexeme that loses blank characters at its end still is a lexeme of its kind, and a line feed
behind it ends it or belongs to it. -/
theorem read_trimmed {c : Char} {kind : Kind} {kept lost rest : List Char}
    (h : read c (kept ++ lost ++ rest) = ⟨kind, kept ++ lost, rest⟩)
    (visible : kind.isLayout = false) (blank : IsBlankText lost) :
    read c (kept ++ ['\n']) = ⟨kind, kept, ['\n']⟩ ∨
      read c (kept ++ ['\n']) = ⟨kind, kept ++ ['\n'], []⟩ := by
  obtain ⟨split, rfl⟩ := rule_of_read h
  have unread := Rule.layout?_eq_none visible
  have sound := Rule.sound_of unread
  obtain ⟨sameKind, numeral⟩ := sound.steady _ kept lost (congrArg Prod.fst split) blank
  have around := Scan.split_shortened sound.breaks split numeral
  have sameRule : Rule.of c (kept ++ ['\n']).head? = Rule.of c (kept ++ lost ++ rest).head? := by
    cases kept with
    | cons d kept => rfl
    | nil =>
      cases lost with
      | nil =>
        have single : Rule.of c rest.head? = Rule.of c none :=
          Rule.of_alone (congrArg Prod.fst split)
        simp only [List.nil_append, List.append_nil, single]
        exact Rule.of_break (Or.inl rfl) (Rule.isLineEnd_of_layout? unread)
      | cons d lost =>
        rcases sound.front d (lost ++ rest) rfl (blank d List.mem_cons_self) with none | quoted
        · have taken : ((Rule.of c (some d)).scan.split (d :: (lost ++ rest))).1 = d :: lost :=
            congrArg Prod.fst split
          rw [List.nil_append, List.cons_append, List.head?_cons, taken] at none
          cases none
        · rw [Rule.of_quoted quoted]
  rw [read_eq, sameRule, Rule.lexeme, sameKind]
  rcases around with ended | ended
  · exact Or.inl (by rw [ended])
  · refine Or.inr ?_
    have lineFeed : IsBlankText ['\n'] := by simp [IsBlankText]; rfl
    have longer := (sound.steady _ kept ['\n'] (congrArg Prod.fst ended) lineFeed).1
    rw [ended, longer]

end Lexeme

end SqlLayout
