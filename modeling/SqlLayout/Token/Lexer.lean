import SqlLayout.Keyword
import SqlLayout.Text.Spelling
import SqlLayout.Text.Word
import SqlLayout.Token

/-!
# Reading tokens

The source is cut into lexemes from the left; the first character decides the rule, and a rule
that waits for a delimiter takes the rest of the source when the delimiter is missing. Every
rule splits the text behind the first character in two (`Lexeme.tail_append_rest`), so no
character is lost and every step makes progress.
-/

namespace SqlLayout

open Text

/-- A text up to and including the first occurrence of a character, and what is behind it. -/
def through (stop : Char) : List Char → List Char × List Char
  | [] => ([], [])
  | c :: rest =>
    if c = stop then ([c], rest)
    else (c :: (through stop rest).1, (through stop rest).2)

/-- A text up to and including the first occurrence of two characters, and what is behind
them. -/
def throughPair (first second : Char) : List Char → List Char × List Char
  | [] => ([], [])
  | c :: rest =>
    if c = first ∧ rest.head? = some second then ([c, second], rest.tail)
    else (c :: (throughPair first second rest).1, (throughPair first second rest).2)

/-- The text behind an opening apostrophe up to and including the closing one, where a doubled
apostrophe closes nothing, and what is behind it. -/
def throughString : List Char → List Char × List Char
  | [] => ([], [])
  | '\'' :: '\'' :: rest =>
    ('\'' :: '\'' :: (throughString rest).1, (throughString rest).2)
  | c :: rest =>
    if c = '\'' then ([c], rest)
    else (c :: (throughString rest).1, (throughString rest).2)

/-- The longest part of a text in a class of characters, and what is behind it. -/
def splitWhile (inClass : Char → Bool) (text : List Char) : List Char × List Char :=
  (text.takeWhile inClass, text.dropWhile inClass)

/-- The sign that may follow the mark of an exponent, and what is behind it. -/
def splitSign : List Char → List Char × List Char
  | '+' :: rest => (['+'], rest)
  | '-' :: rest => (['-'], rest)
  | rest => ([], rest)

/-- The exponent that may follow the digits of a number, and what is behind it. -/
def splitExponent : List Char → List Char × List Char
  | [] => ([], [])
  | c :: rest =>
    if c = 'e' ∨ c = 'E' then
      let (sign, unsigned) := splitSign rest
      let (digits, after) := splitWhile isDigit unsigned
      (c :: (sign ++ digits), after)
    else ([], c :: rest)

/-- The text of a number behind its first character, and what is behind it. -/
def splitNumber (text : List Char) : List Char × List Char :=
  let (digits, rest) := splitWhile (fun c => isDigit c || c == '.') text
  let (exponent, after) := splitExponent rest
  (digits ++ exponent, after)

/-- Whether a character is a space or a tab. -/
def isGap (c : Char) : Bool := c == ' ' || c == '\t'

/-- Whether a character ends a source line. -/
def isLineEnd (c : Char) : Bool := c == '\r' || c == '\n'

/-- The punctuation marks that are tokens of their own. -/
def markKind? : Char → Option Kind
  | '(' => some .lparen
  | ')' => some .rparen
  | ',' => some .comma
  | ';' => some .semicolon
  | '.' => some .dot
  | _ => none

/-- The operators of two characters. -/
def isDoubleOperator : Char → Char → Bool
  | '!', '=' | '<', '>' | '>', '=' | '<', '=' | '|', '|' | '-', '>' => true
  | _, _ => false

/-- The operators of one character. -/
def isOperator (c : Char) : Bool :=
  "+-*/%=<>|&^~!".toList.contains c

/-- The kind of a bare word: keywords are recognised in any letter case. -/
def wordKind (word : String) : Kind :=
  if Keyword.all.contains (upper word) then .keyword else .identifier

/-- What a source starts with, behind its first character. -/
structure Lexeme where
  /-- The kind of the lexeme. -/
  kind : Kind
  /-- The rest of the lexeme and the rest of the source. -/
  parts : List Char × List Char

namespace Lexeme

/-- The characters of the lexeme behind its first. -/
def tail (lexeme : Lexeme) : List Char := lexeme.parts.1

/-- The source behind the lexeme. -/
def rest (lexeme : Lexeme) : List Char := lexeme.parts.2

/-- Spaces and tabs, or one end of a line. -/
def layout? (c : Char) (source : List Char) : Option Lexeme :=
  if isGap c then some ⟨.space, splitWhile isGap source⟩
  else if c = '\r' ∧ source.head? = some '\n' then some ⟨.newline, (['\n'], source.tail)⟩
  else if isLineEnd c then some ⟨.newline, ([], source)⟩
  else none

/-- A comment of either form. -/
def comment? (c : Char) (source : List Char) : Option Lexeme :=
  if c = '-' ∧ source.head? = some '-' then
    some ⟨.comment, splitWhile (fun d => !isLineEnd d) source⟩
  else if c = '/' ∧ source.head? = some '*' then
    some ⟨.blockComment, '*' :: (throughPair '*' '/' source.tail).1,
      (throughPair '*' '/' source.tail).2⟩
  else none

/-- A string or a quoted name. -/
def quoted? (c : Char) (source : List Char) : Option Lexeme :=
  if c = '\'' then some ⟨.string, throughString source⟩
  else if c = '"' then some ⟨.identifier, through '"' source⟩
  else if c = '\x60' then some ⟨.backtick, through '\x60' source⟩
  else none

/-- A number. -/
def number? (c : Char) (source : List Char) : Option Lexeme :=
  if isDigit c || (c == '.' && source.head?.any isDigit) then some ⟨.number, splitNumber source⟩
  else none

/-- A punctuation mark. -/
def mark? (c : Char) (source : List Char) : Option Lexeme :=
  (markKind? c).map fun kind => ⟨kind, [], source⟩

/-- An operator, of two characters where possible. -/
def operator? (c : Char) (source : List Char) : Option Lexeme :=
  if source.head?.any (isDoubleOperator c) then some ⟨.operator, source.take 1, source.tail⟩
  else if isOperator c then some ⟨.operator, [], source⟩
  else none

/-- Text between double dollar signs, or a placeholder of any form. -/
def placeholder? (c : Char) (source : List Char) : Option Lexeme :=
  if c = '$' ∧ source.head? = some '$' then
    some ⟨.dollarString, '$' :: (throughPair '$' '$' source.tail).1,
      (throughPair '$' '$' source.tail).2⟩
  else if c = '$' ∧ source.head? = some '\x7b' then some ⟨.parameter, through '\x7d' source⟩
  else if c = '\x7b' ∧ source.head? = some '\x7b' then
    some ⟨.parameter, '\x7b' :: (throughPair '\x7d' '\x7d' source.tail).1,
      (throughPair '\x7d' '\x7d' source.tail).2⟩
  else if c = ':' ∨ c = '@' then some ⟨.parameter, splitWhile isWordChar source⟩
  else none

/-- A keyword or a bare name. -/
def word? (c : Char) (source : List Char) : Option Lexeme :=
  if isWordStart c then
    some ⟨wordKind (String.ofList (c :: source.takeWhile isWordChar)), splitWhile isWordChar source⟩
  else none

/-- The first rule that applies to a character and the source behind it. -/
def rule? (c : Char) (source : List Char) : Option Lexeme :=
  (layout? c source).or <| (comment? c source).or <| (quoted? c source).or <|
    (number? c source).or <| (mark? c source).or <| (operator? c source).or <|
    (placeholder? c source).or <| word? c source

/-- The lexeme that starts with a character, given the source behind that character. A character
that no rule applies to is an operator. -/
def read (c : Char) (source : List Char) : Lexeme :=
  (rule? c source).getD ⟨.operator, [], source⟩

end Lexeme

/-! ## Nothing is lost -/

/-- Text through a character splits the source. -/
theorem through_append (stop : Char) (source : List Char) :
    (through stop source).1 ++ (through stop source).2 = source := by
  fun_induction through stop source <;> simp_all

/-- Text through a pair of characters splits the source. -/
theorem throughPair_append (first second : Char) (source : List Char) :
    (throughPair first second source).1 ++ (throughPair first second source).2 = source := by
  fun_induction throughPair first second source with
  | case1 => rfl
  | case2 c rest found =>
    obtain ⟨_, next⟩ := found
    cases rest <;> simp_all
  | case3 => simp_all

/-- The text of a string splits the source. -/
theorem throughString_append (source : List Char) :
    (throughString source).1 ++ (throughString source).2 = source := by
  fun_induction throughString source <;> simp_all

/-- A run of a class splits the source. -/
theorem splitWhile_append (inClass : Char → Bool) (source : List Char) :
    (splitWhile inClass source).1 ++ (splitWhile inClass source).2 = source :=
  List.takeWhile_append_dropWhile

/-- A sign splits the source. -/
theorem splitSign_append (source : List Char) :
    (splitSign source).1 ++ (splitSign source).2 = source := by
  fun_cases splitSign source <;> rfl

/-- An exponent splits the source. -/
theorem splitExponent_append (source : List Char) :
    (splitExponent source).1 ++ (splitExponent source).2 = source := by
  cases source with
  | nil => rfl
  | cons c rest =>
    by_cases mark : c = 'e' ∨ c = 'E'
    · have sign := splitSign_append rest
      have digits := splitWhile_append isDigit (splitSign rest).2
      simp [splitExponent, mark, digits, sign]
    · simp [splitExponent, mark]

/-- The text of a number splits the source. -/
theorem splitNumber_append (source : List Char) :
    (splitNumber source).1 ++ (splitNumber source).2 = source := by
  have digits := splitWhile_append (fun c => isDigit c || c == '.') source
  have exponent := splitExponent_append (splitWhile (fun c => isDigit c || c == '.') source).2
  simp [splitNumber, exponent, digits]

/-- A list is its first element, when known, before its tail. -/
theorem cons_tail_of_head? {source : List Char} {c : Char} (h : source.head? = some c) :
    c :: source.tail = source := by
  cases source <;> simp_all

/-- Whether two texts make up a source. -/
def Splits (source : List Char) (parts : List Char × List Char) : Prop :=
  parts.1 ++ parts.2 = source

/-- A known first character can be put back before a split of the rest. -/
theorem Splits.behind {source : List Char} {first : Char} {parts : List Char × List Char}
    (h : source.head? = some first) (splits : Splits source.tail parts) :
    Splits source (first :: parts.1, parts.2) := by
  unfold Splits at splits ⊢
  rw [List.cons_append, splits, cons_tail_of_head? h]

namespace Lexeme

/-- Layout splits the source. -/
theorem layout?_splits {c : Char} {source : List Char} {lexeme : Lexeme}
    (h : layout? c source = some lexeme) : Splits source lexeme.parts := by
  unfold layout? at h
  split at h
  · cases h
    exact splitWhile_append _ _
  split at h
  · rename_i _ crlf
    cases h
    exact cons_tail_of_head? crlf.2
  split at h
  · cases h
    rfl
  · cases h

/-- A comment splits the source. -/
theorem comment?_splits {c : Char} {source : List Char} {lexeme : Lexeme}
    (h : comment? c source = some lexeme) : Splits source lexeme.parts := by
  unfold comment? at h
  split at h
  · cases h
    exact splitWhile_append _ _
  split at h
  · rename_i _ opened
    cases h
    exact Splits.behind opened.2 (throughPair_append _ _ _)
  · cases h

/-- A string or a quoted name splits the source. -/
theorem quoted?_splits {c : Char} {source : List Char} {lexeme : Lexeme}
    (h : quoted? c source = some lexeme) : Splits source lexeme.parts := by
  unfold quoted? at h
  split at h
  · cases h
    exact throughString_append _
  split at h
  · cases h
    exact through_append _ _
  split at h
  · cases h
    exact through_append _ _
  · cases h

/-- A number splits the source. -/
theorem number?_splits {c : Char} {source : List Char} {lexeme : Lexeme}
    (h : number? c source = some lexeme) : Splits source lexeme.parts := by
  unfold number? at h
  split at h
  · cases h
    exact splitNumber_append _
  · cases h

/-- A punctuation mark splits the source. -/
theorem mark?_splits {c : Char} {source : List Char} {lexeme : Lexeme}
    (h : mark? c source = some lexeme) : Splits source lexeme.parts := by
  obtain ⟨_, _, rfl⟩ := Option.map_eq_some_iff.1 h
  rfl

/-- An operator splits the source. -/
theorem operator?_splits {c : Char} {source : List Char} {lexeme : Lexeme}
    (h : operator? c source = some lexeme) : Splits source lexeme.parts := by
  unfold operator? at h
  split at h
  · cases h
    cases source <;> rfl
  split at h
  · cases h
    rfl
  · cases h

/-- A placeholder splits the source. -/
theorem placeholder?_splits {c : Char} {source : List Char} {lexeme : Lexeme}
    (h : placeholder? c source = some lexeme) : Splits source lexeme.parts := by
  unfold placeholder? at h
  split at h
  · rename_i opened
    cases h
    exact Splits.behind opened.2 (throughPair_append _ _ _)
  split at h
  · cases h
    exact through_append _ _
  split at h
  · rename_i _ _ opened
    cases h
    exact Splits.behind opened.2 (throughPair_append _ _ _)
  split at h
  · cases h
    exact splitWhile_append _ _
  · cases h

/-- A word splits the source. -/
theorem word?_splits {c : Char} {source : List Char} {lexeme : Lexeme}
    (h : word? c source = some lexeme) : Splits source lexeme.parts := by
  unfold word? at h
  split at h
  · rw [← Option.some.inj h]
    exact splitWhile_append _ _
  · exact nomatch h

/-- A lexeme splits the source behind its first character. -/
theorem read_splits (c : Char) (source : List Char) :
    Splits source (read c source).parts := by
  unfold read
  cases h : rule? c source with
  | none => rfl
  | some lexeme =>
    simp only [rule?, Option.or_eq_some_iff] at h
    rcases h with h | ⟨-, h | ⟨-, h | ⟨-, h | ⟨-, h | ⟨-, h | ⟨-, h | ⟨-, h⟩⟩⟩⟩⟩⟩⟩
    · exact layout?_splits h
    · exact comment?_splits h
    · exact quoted?_splits h
    · exact number?_splits h
    · exact mark?_splits h
    · exact operator?_splits h
    · exact placeholder?_splits h
    · exact word?_splits h

end Lexeme

/-- The rest of a lexeme and the rest of the source make up the source behind the first
character. -/
theorem Lexeme.tail_append_rest (c : Char) (source : List Char) :
    (Lexeme.read c source).tail ++ (Lexeme.read c source).rest = source :=
  Lexeme.read_splits c source

/-- The source gets shorter with every lexeme. -/
theorem Lexeme.length_rest_le (c : Char) (source : List Char) :
    (Lexeme.read c source).rest.length ≤ source.length := by
  have split := congrArg List.length (Lexeme.tail_append_rest c source)
  rw [List.length_append] at split
  omega

/-! ## The tokens of a source -/

/-- The canonical text of a token: the upper-case spelling of a keyword, and any other text
itself. -/
def canonicalText (kind : Kind) (raw : String) : String :=
  if kind = .keyword then upper raw else raw

/-- The tokens of a source that starts at a place, closed by an end token. -/
def tokensFrom (start : Position) : List Char → List Token
  | [] => [⟨.eof, "", "", ⟨start, start⟩⟩]
  | c :: source =>
    let lexeme := Lexeme.read c source
    let raw := String.ofList (c :: lexeme.tail)
    let stop := start.after (c :: lexeme.tail)
    ⟨lexeme.kind, canonicalText lexeme.kind raw, raw, ⟨start, stop⟩⟩ ::
      tokensFrom stop lexeme.rest
termination_by source => source.length
decreasing_by exact Nat.lt_succ_of_le (Lexeme.length_rest_le c source)

/-- The tokens of a source. -/
def tokenize (source : String) : List Token :=
  tokensFrom Position.first source.toList

end SqlLayout
