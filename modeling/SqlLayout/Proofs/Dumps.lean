import SqlLayout.Proofs.Unquoting
import SqlLayout.Token.Dump

/-!
# Token dumps show what they are of

A dump has one line for every token that it shows, and no line breaks off before its end (`lines_dumpTokens`).
The fields of a line can be told apart: no digit is a colon or a space, no name of a kind has a space in it, and
a quoted text says where it ends. So a line says where its token starts, of which kind it is and what its
canonical text is (`dumpLine_append_inj`), and dumps are equal only if they agree in this token by token
(`dump_faithful`).
-/

namespace SqlLayout

open Text

/-! ## What is shown -/

/-- What a dump tells about a token. -/
structure Token.Summary where
  /-- The line where it starts. -/
  line : Nat
  /-- The column where it starts. -/
  column : Nat
  /-- What it is. -/
  kind : Kind
  /-- Its canonical text. -/
  value : String
deriving DecidableEq

/-- What a dump tells about a token. -/
def Token.summary (token : Token) : Token.Summary :=
  ⟨token.span.start.line, token.span.start.column, token.kind, token.value⟩

/-- The tokens that a dump shows. -/
def shownTokens (layout : Bool) (tokens : List Token) : List Token :=
  tokens.filter fun token => layout || !token.isLayout

/-- The line of a token in a dump, up to its end. -/
def Token.dumpText (token : Token) : List Char :=
  token.dumpLine.toList.dropLast

/-! ## The fields of a line -/

/-- A text up to the first occurrence of a character can be told from what is behind it. -/
theorem append_cons_inj {mark : Char} {first second rest other : List Char} (whole : mark ∉ first)
    (entire : mark ∉ second) (same : first ++ mark :: rest = second ++ mark :: other) :
    first = second ∧ rest = other := by
  induction first generalizing second with
  | nil =>
    cases second with
    | nil => exact ⟨rfl, (List.cons.inj same).2⟩
    | cons c second =>
      have front : mark = c := (List.cons.inj same).1
      exact absurd List.mem_cons_self (front ▸ entire)
  | cons c first ih =>
    cases second with
    | nil =>
      have front : c = mark := (List.cons.inj same).1
      exact absurd List.mem_cons_self (front ▸ whole)
    | cons d second =>
      obtain ⟨rfl, behind⟩ := List.cons.inj same
      obtain ⟨rfl, others⟩ := ih (fun member => whole (List.mem_cons_of_mem c member))
        (fun member => entire (List.mem_cons_of_mem c member)) behind
      exact ⟨rfl, others⟩

/-- A text padded to a width, with a space behind it, has spaces behind it. -/
theorem toList_padRight (width : Nat) (text : String) (rest : List Char) :
    (padRight width text).toList ++ ' ' :: rest =
      text.toList ++ ' ' :: (List.replicate (width - text.toList.length) ' ' ++ rest) := by
  have spaces (count : Nat) :
      List.replicate count ' ' ++ ' ' :: rest = ' ' :: (List.replicate count ' ' ++ rest) := by
    rw [← List.cons_append, ← List.replicate_succ, List.replicate_succ', List.append_assoc]
    rfl
  rw [padRight, String.toList_append, String.toList_ofList, List.append_assoc, spaces, String.length_toList]

/-- A padded text without spaces can be told from what is behind it. -/
theorem padRight_inj {width : Nat} {first second : String} {rest other : List Char}
    (whole : ' ' ∉ first.toList) (entire : ' ' ∉ second.toList)
    (same : (padRight width first).toList ++ ' ' :: rest = (padRight width second).toList ++ ' ' :: other) :
    first = second ∧ rest = other := by
  rw [toList_padRight, toList_padRight] at same
  obtain ⟨text, padded⟩ := append_cons_inj whole entire same
  obtain rfl := String.toList_inj.1 text
  exact ⟨rfl, List.append_cancel_left padded⟩

/-- A numeral has digits only. -/
theorem isDigit_of_mem_repr {n : Nat} {c : Char} (member : c ∈ (Nat.repr n).toList) : c.isDigit = true := by
  rw [Nat.toList_repr] at member
  exact Nat.isDigit_of_mem_toDigits (by decide) (by decide) member

/-- A character that is no digit is in no numeral. -/
theorem notMem_repr {c : Char} (other : c.isDigit = false) (n : Nat) : c ∉ (Nat.repr n).toList := by
  intro member
  rw [isDigit_of_mem_repr member] at other
  cases other

/-- A numeral says which number it is of. -/
theorem repr_inj {first second : Nat} (same : Nat.repr first = Nat.repr second) : first = second := by
  have digits : Nat.toDigits 10 first = Nat.toDigits 10 second := by
    rw [← Nat.toList_repr, ← Nat.toList_repr, same]
  have read := congrArg (Nat.ofDigitChars 10 · 0) digits
  simpa only [Nat.ofDigitChars_ten_toDigits] using read

namespace Kind

/-- The kinds. -/
def all : List Kind :=
  [.keyword, .identifier, .backtick, .parameter, .number, .string, .dollarString, .comma, .lparen, .rparen,
    .semicolon, .dot, .operator, .comment, .blockComment, .space, .newline, .eof]

/-- The kind that has a name is the one whose name it is. -/
theorem find?_name (kind : Kind) : all.find? (·.name == kind.name) = some kind := by
  cases kind <;> decide +kernel

/-- No two kinds have the same name. -/
theorem name_inj {first second : Kind} (same : first.name = second.name) : first = second := by
  have found := find?_name first
  rw [same, find?_name second] at found
  exact (Option.some.inj found).symm

/-- A name of a kind has no space in it, and does not break a line. -/
theorem name_plain (kind : Kind) :
    ' ' ∉ kind.name.toList ∧ ∀ c ∈ kind.name.toList, isLineBreak c = false := by
  have plain : (kind.name.toList.all fun c => c != ' ' && !isLineBreak c) = true := by
    cases kind <;> decide +kernel
  rw [List.all_eq_true] at plain
  constructor
  · intro member
    exact absurd (plain ' ' member) (by decide)
  · intro c member
    simpa using (Bool.and_eq_true_iff.1 (plain c member)).2

end Kind

/-! ## Lines of a dump -/

/-- The line of a token, field by field. -/
theorem toList_dumpLine (token : Token) :
    token.dumpLine.toList = (Nat.repr token.span.start.line).toList ++ ':' ::
      ((padRight 4 (Nat.repr token.span.start.column)).toList ++ ' ' ::
        ((padRight 14 token.kind.name).toList ++ ' ' :: (quotedChars token.value.toList ++ ['\n']))) := by
  simp [Token.dumpLine, quoted]

/-- A line of a dump says what it tells about its token, and where it ends. -/
theorem dumpLine_append_inj {first second : Token} {rest other : List Char}
    (same : first.dumpLine.toList ++ rest = second.dumpLine.toList ++ other) :
    first.summary = second.summary ∧ rest = other := by
  simp only [toList_dumpLine, List.append_assoc, List.cons_append] at same
  obtain ⟨line, behindLine⟩ := append_cons_inj (notMem_repr rfl _) (notMem_repr rfl _) same
  obtain ⟨column, behindColumn⟩ := padRight_inj (notMem_repr rfl _) (notMem_repr rfl _) behindLine
  obtain ⟨name, behindName⟩ := padRight_inj first.kind.name_plain.1 second.kind.name_plain.1 behindColumn
  obtain ⟨value, behind⟩ := quotedChars_append_inj behindName
  rw [Token.summary, Token.summary, repr_inj (String.toList_inj.1 line), repr_inj column, Kind.name_inj name,
    String.toList_inj.1 value]
  exact ⟨rfl, (List.cons.inj behind).2⟩

/-- A padded text breaks no line if the text does not. -/
theorem isLineBreak_of_mem_padRight {width : Nat} {text : String} {c : Char}
    (plain : ∀ d ∈ text.toList, isLineBreak d = false) (member : c ∈ (padRight width text).toList) :
    isLineBreak c = false := by
  rw [padRight, String.toList_append, String.toList_ofList] at member
  rcases List.mem_append.1 member with inside | padding
  · exact plain c inside
  · rw [List.eq_of_mem_replicate padding]
    rfl

/-- A numeral breaks no line. -/
theorem isLineBreak_of_mem_repr {n : Nat} {c : Char} (member : c ∈ (Nat.repr n).toList) :
    isLineBreak c = false := by
  have digit := isDigit_of_mem_repr member
  by_contra broken
  rw [Bool.not_eq_false] at broken
  have codes : ∀ code ∈ lineBreakCodes, (Char.ofNat code).isDigit = false := by decide
  have other := codes c.toNat (mem_lineBreakCodes broken)
  rw [Char.ofNat_toNat, digit] at other
  cases other

/-- A line of a dump has its end behind it, and nothing breaks it off before. -/
theorem toList_dumpLine_eq (token : Token) :
    token.dumpLine.toList = token.dumpText ++ ['\n'] ∧ ∀ c ∈ token.dumpText, isLineBreak c = false := by
  have fields := toList_dumpLine token
  simp only [← List.cons_append, ← List.append_assoc] at fields
  have text : token.dumpText = token.dumpLine.toList.dropLast := rfl
  rw [fields, List.dropLast_concat] at text
  refine ⟨by rw [fields, text], ?_⟩
  intro c member
  simp only [text, List.cons_append, List.append_assoc, List.mem_append, List.mem_cons] at member
  rcases member with line | rfl | column | rfl | name | rfl | value
  · exact isLineBreak_of_mem_repr line
  · rfl
  · exact isLineBreak_of_mem_padRight (fun d inside => isLineBreak_of_mem_repr inside) column
  · rfl
  · exact isLineBreak_of_mem_padRight token.kind.name_plain.2 name
  · rfl
  · exact isLineBreak_of_mem_quotedChars value

/-- A text without line breaks is a line when a line feed is behind it. -/
theorem lines_line {text : List Char} (plain : ∀ c ∈ text, isLineBreak c = false) (rest : List Char) :
    lines (text ++ '\n' :: rest) = text :: lines rest := by
  induction text with
  | nil =>
    rw [List.nil_append, lines]
    · rfl
    · exact fun _ carriage => nomatch carriage
  | cons c text ih =>
    have inside : isLineBreak c = false := plain c List.mem_cons_self
    rw [List.cons_append, lines, inside, ih fun d member => plain d (List.mem_cons_of_mem c member)]
    · rfl
    · intro _ carriage
      rw [carriage] at inside
      cases inside

/-- A dump is made of the lines of the tokens that it shows. -/
theorem toList_dumpTokens (layout : Bool) (tokens : List Token) :
    (dumpTokens layout tokens).toList =
      (shownTokens layout tokens).flatMap fun token => token.dumpLine.toList := by
  rw [dumpTokens, shownTokens]
  induction tokens.filter fun token => layout || !token.isLayout with
  | nil => rfl
  | cons token others ih =>
    rw [List.map_cons, String.join_cons, String.toList_append, ih, List.flatMap_cons]

/-- A dump breaks into the lines of the tokens that it shows. -/
theorem lines_dumpTokens (layout : Bool) (tokens : List Token) :
    lines (dumpTokens layout tokens).toList = (shownTokens layout tokens).map Token.dumpText := by
  rw [toList_dumpTokens]
  induction shownTokens layout tokens with
  | nil => rfl
  | cons token others ih =>
    have line := toList_dumpLine_eq token
    rw [List.flatMap_cons, line.1, List.append_assoc, List.singleton_append, lines_line line.2, ih,
      List.map_cons]

/-- The lines of tokens, one behind the other, say what they tell about each of them. -/
theorem summaries_of_lines {first second : List Token}
    (same : (first.flatMap fun token => token.dumpLine.toList) =
      second.flatMap fun token => token.dumpLine.toList) :
    first.map Token.summary = second.map Token.summary := by
  have written (token : Token) (rest : List Char) : [] ≠ token.dumpLine.toList ++ rest := by
    rw [(toList_dumpLine_eq token).1]
    simp
  induction first generalizing second with
  | nil =>
    cases second with
    | nil => rfl
    | cons token second =>
      rw [List.flatMap_nil, List.flatMap_cons] at same
      exact absurd same (written token _)
  | cons token first ih =>
    cases second with
    | nil =>
      rw [List.flatMap_nil, List.flatMap_cons] at same
      exact absurd same.symm (written token _)
    | cons other second =>
      rw [List.flatMap_cons, List.flatMap_cons] at same
      obtain ⟨told, behind⟩ := dumpLine_append_inj same
      rw [List.map_cons, List.map_cons, told, ih behind]

/-- The line of a token is made of what a dump tells about it. -/
theorem dumpLine_congr {first second : Token} (same : first.summary = second.summary) :
    first.dumpLine = second.dumpLine := by
  obtain ⟨line, column, kind, value⟩ := Token.Summary.mk.inj same
  rw [Token.dumpLine, Token.dumpLine, line, column, kind, value]

/-- The lines of tokens are made of what they tell about each of them. -/
theorem lines_of_summaries {first second : List Token}
    (same : first.map Token.summary = second.map Token.summary) :
    (first.flatMap fun token => token.dumpLine.toList) = second.flatMap fun token => token.dumpLine.toList := by
  induction first generalizing second with
  | nil =>
    rw [List.map_eq_nil_iff.1 same.symm]
  | cons token first ih =>
    obtain ⟨other, behind, rfl, told, others⟩ := List.map_eq_cons_iff.1 same.symm
    rw [List.flatMap_cons, List.flatMap_cons, dumpLine_congr told, ih others.symm]

/-- Two dumps are equal exactly if they tell the same. -/
theorem dumpTokens_eq_iff {layout otherLayout : Bool} {tokens others : List Token} :
    dumpTokens layout tokens = dumpTokens otherLayout others ↔
      (shownTokens layout tokens).map Token.summary = (shownTokens otherLayout others).map Token.summary := by
  rw [← String.toList_inj, toList_dumpTokens, toList_dumpTokens]
  constructor
  · intro same
    exact summaries_of_lines same
  · intro same
    exact lines_of_summaries same

/-- A dump, with or without layout, of any tokens. It is made of one line for every token that it shows, each
with its end behind it, and it breaks into just these lines, since none of them has a character in it at which
a text breaks. It is equal to a dump of other tokens if and only if the tokens that are shown agree, one by one,
in the line and the column where they start, in their kind and in their canonical text. -/
theorem dump_faithful (layout : Bool) (tokens : List Token) :
    (dumpTokens layout tokens).toList =
        ((shownTokens layout tokens).flatMap fun token => token.dumpText ++ ['\n']) ∧
      lines (dumpTokens layout tokens).toList = (shownTokens layout tokens).map Token.dumpText ∧
      (∀ token : Token, token.dumpText.any isLineBreak = false) ∧
      ∀ (otherLayout : Bool) (others : List Token),
        dumpTokens layout tokens = dumpTokens otherLayout others ↔
          (shownTokens layout tokens).map Token.summary =
            (shownTokens otherLayout others).map Token.summary := by
  refine ⟨?_, lines_dumpTokens layout tokens, ?_, fun _ _ => dumpTokens_eq_iff⟩
  · rw [toList_dumpTokens]
    simp only [fun token => (toList_dumpLine_eq token).1]
  · intro token
    apply List.any_eq_false.2
    intro c member
    rw [(toList_dumpLine_eq token).2 c member]
    exact Bool.false_ne_true

end SqlLayout
