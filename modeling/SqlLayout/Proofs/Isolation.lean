import SqlLayout.Proofs.Terminators

/-!
# Tokens out of their source

A token does not need the source that it stands in. Its text is read as the same token before any text that
starts with a character at which tokens of its kind halt, and the tokens of that text follow, moved behind it
(`tokenize_isolated`). The token may have been the last one of its source, where nothing told that it was over.
Then a line feed behind it would still end it: only a token that waits for a terminator takes a line feed
(`Terminator.of?_of_newline`), and it waits no more once it has one (`Terminator.not_swallowed`).
-/

namespace SqlLayout

open Text

/-! ## Tokens behind a place -/

/-- Where a place of a source is when the source starts at another place. -/
def Position.behind (start place : Position) : Position where
  line := start.line + (place.line - 1)
  column := if place.line = 1 then start.column + (place.column - 1) else place.column
  offset := start.offset + place.offset

/-- A token when its source starts at a place. -/
def Token.behind (start : Position) (token : Token) : Token :=
  { token with span := ⟨start.behind token.span.start, start.behind token.span.stop⟩ }

/-- Whether a place has a line and a column, which are counted from 1. -/
def Position.Counted (place : Position) : Prop :=
  1 ≤ place.line ∧ 1 ≤ place.column

/-- A text that starts at a place has a place behind it. -/
theorem Position.Counted.after {place : Position} (counted : place.Counted) (text : List Char) :
    (place.after text).Counted := by
  induction text generalizing place with
  | nil => exact counted
  | cons c rest ih =>
    rw [Position.after]
    split
    · apply ih
      exact ⟨Nat.le_add_left 1 _, Nat.le_refl 1⟩
    · apply ih
      exact ⟨counted.1, Nat.le_add_left 1 _⟩

/-- The start of a source is what its places are counted from. -/
theorem Position.behind_first (start : Position) : start.behind .first = start := rfl

/-- The next character moves along with its place. -/
theorem Position.behind_nextColumn (start : Position) {place : Position} (counted : place.Counted) :
    (start.behind place).nextColumn = start.behind place.nextColumn := by
  have column := counted.2
  have offset : start.offset + place.offset + 1 = start.offset + (place.offset + 1) := by omega
  by_cases first : place.line = 1
  · have next : start.column + (place.column - 1) + 1 = start.column + (place.column + 1 - 1) := by omega
    simp only [Position.behind, Position.nextColumn, first, ↓reduceIte, next, offset]
  · simp only [Position.behind, Position.nextColumn, first, ↓reduceIte, offset]

/-- The next line moves along with its place. -/
theorem Position.behind_nextLine (start : Position) {place : Position} (counted : place.Counted) :
    (start.behind place).nextLine = start.behind place.nextLine := by
  have line := counted.1
  have later : place.line + 1 ≠ 1 := by omega
  have next : start.line + (place.line - 1) + 1 = start.line + (place.line + 1 - 1) := by omega
  have offset : start.offset + place.offset + 1 = start.offset + (place.offset + 1) := by omega
  simp only [Position.behind, Position.nextLine, later, ↓reduceIte, next, offset]

/-- The place behind a text moves along with the place before it. -/
theorem Position.behind_after (start : Position) {place : Position} (counted : place.Counted)
    (text : List Char) : (start.behind place).after text = start.behind (place.after text) := by
  induction text generalizing place with
  | nil => rfl
  | cons c rest ih =>
    rw [Position.after, Position.after]
    split
    · rw [Position.behind_nextLine start counted]
      exact ih ⟨Nat.le_add_left 1 _, Nat.le_refl 1⟩
    · rw [Position.behind_nextColumn start counted]
      exact ih ⟨counted.1, Nat.le_add_left 1 _⟩

/-- The tokens of a source move along with its start. -/
theorem tokensFrom_behind (start : Position) {place : Position} (counted : place.Counted)
    (source : List Char) :
    tokensFrom (start.behind place) source = (tokensFrom place source).map (Token.behind start) := by
  fun_induction tokensFrom place source with
  | case1 place =>
    rw [tokensFrom]
    rfl
  | case2 place c source lexeme raw stop ih =>
    rw [tokensFrom, Position.behind_after start counted, ih (counted.after _)]
    rfl

/-- The tokens of a text that starts at a place are its tokens, moved there. -/
theorem tokensFrom_eq (start : Position) (text : String) :
    tokensFrom start text.toList = (tokenize text).map (Token.behind start) := by
  have counted : Position.first.Counted := ⟨Nat.le_refl 1, Nat.le_refl 1⟩
  have moved := tokensFrom_behind start counted text.toList
  rwa [Position.behind_first] at moved

/-! ## Terminators of a token's own text -/

/-- A text that ends with the first place that closes it is no longer than any such place tells. -/
theorem UpTo.length_le {closes : Nat → Prop} {width : Nat} {source text : List Char}
    (reached : UpTo closes width source text) {index : Nat} (closing : closes index) :
    text.length ≤ index + width := by
  cases reached with
  | closed found _ first =>
    have least : found ≤ index := Nat.le_of_not_lt fun before => first index before closing
    rw [List.length_take]
    omega
  | unclosed never => exact absurd closing (never index)

namespace Terminator

variable {terminator : Terminator} {text : List Char} {index : Nat}

/-- A terminator lies in the text that it closes. -/
theorem length_of_closes (closes : terminator.Closes text index) :
    index + terminator.width ≤ text.length := by
  have inside {place : Nat} {c : Char} (found : text[place]? = some c) : place < text.length :=
    (List.getElem?_eq_some_iff.1 found).1
  cases terminator with
  | pair first second => exact inside closes.2.2
  | single stop => exact inside closes.2
  | apostrophe => exact inside closes.2.1
  | lineEnd => exact Nat.le_of_lt (closes.elim inside inside)

/-- A line feed behind a text does not open it again. -/
theorem closes_newline (closes : terminator.Closes text index) :
    terminator.Closes (text ++ ['\n']) index := by
  have kept {place : Nat} {c : Char} (found : text[place]? = some c) :
      (text ++ ['\n'])[place]? = some c := by
    rw [List.getElem?_append_left (List.getElem?_eq_some_iff.1 found).1]
    exact found
  cases terminator with
  | pair first second => exact ⟨closes.1, kept closes.2.1, kept closes.2.2⟩
  | single stop => exact ⟨closes.1, kept closes.2⟩
  | lineEnd => exact closes.imp kept kept
  | apostrophe =>
    obtain ⟨behind, found, single, body⟩ := closes
    have inside : index < text.length := (List.getElem?_eq_some_iff.1 found).1
    refine ⟨behind, kept found, ?_, ?_⟩
    · intro doubled
      by_cases last : index + 1 < text.length
      · rw [List.getElem?_append_left last] at doubled
        exact single doubled
      · have front : index + 1 - text.length = 0 := by omega
        rw [List.getElem?_append_right (Nat.le_of_not_lt last), front] at doubled
        cases doubled
    · rwa [List.take_append_of_le_length (Nat.le_of_lt inside)]

/-- What closes a token can be told without a line feed behind it. -/
theorem of?_newline (kind : Kind) (c : Char) (tail : List Char) :
    of? kind (c :: (tail ++ ['\n'])) = of? kind (c :: tail) := by
  cases kind with
  | parameter =>
    cases tail with
    | nil => simp [of?]
    | cons d rest => rfl
  | _ => rfl

/-- Of the tokens that are no layout, only one that waits for a terminator goes on with a line feed. -/
theorem of?_of_newline {c : Char} {source tail rest : List Char}
    (visible : Rule.layout? c source.head? = none)
    (split : (Rule.of c source.head?).scan.split source = (tail ++ ['\n'], rest)) :
    ∃ terminator, of? ((Rule.of c source.head?).kind (tail ++ ['\n'])) (c :: source) = some terminator ∧
      terminator ≠ .lineEnd := by
  have run {inClass : Char → Bool} (outside : inClass '\n' = false)
      (taken : (Scan.run inClass).split source = (tail ++ ['\n'], rest)) : False := by
    have whole : source.takeWhile inClass = tail ++ ['\n'] := congrArg Prod.fst taken
    have inside : inClass '\n' = true :=
      List.mem_takeWhile_imp (by rw [whole]; exact List.mem_concat_self)
    rw [outside] at inside
    cases inside
  have take {count : Nat} (other : ∀ d ∈ (source.take count).getLast?, d ≠ '\n')
      (taken : (Scan.take count).split source = (tail ++ ['\n'], rest)) : False := by
    have whole : source.take count = tail ++ ['\n'] := congrArg Prod.fst taken
    rw [whole, List.getLast?_concat] at other
    exact other '\n' rfl rfl
  cases Rule.starts_of c source.head? with
  | layout found =>
    rw [visible] at found
    cases found
  | comment _ same =>
    rw [same] at split
    exact absurd split (run rfl)
  | number same =>
    rw [same] at split
    have taken : (splitNumber source).1 = tail ++ ['\n'] := congrArg Prod.fst split
    have inNumber : isNumberChar '\n' = true :=
      isNumberChar_of_mem_number (by rw [taken]; exact List.mem_concat_self)
    cases inNumber
  | mark _ same | operator same =>
    rw [same] at split
    exact absurd split (take nofun)
  | double second same =>
    rw [same] at split
    refine absurd split (take ?_)
    obtain ⟨d, next, closes⟩ := (Option.any_eq_true _ _).1 second
    rw [← cons_tail_of_head? next]
    rcases second_of_isDoubleOperator closes with rfl | rfl | rfl <;> simp
  | named _ same | word _ same =>
    rw [same] at split
    exact absurd split (run (by decide +kernel))
  | name opens same =>
    subst opens
    rw [same]
    exact ⟨_, rfl, nofun⟩
  | braced opens same | template opens same =>
    obtain ⟨rfl, next⟩ := opens
    rw [same, ← cons_tail_of_head? next]
    exact ⟨_, rfl, nofun⟩
  | blockComment _ same | string _ same | backtick _ same | dollars _ same =>
    rw [same]
    exact ⟨_, rfl, nofun⟩

end Terminator

/-- Whether a token that waits for a terminator has one in its own text. The end of a line closes a comment
and does not belong to it. -/
def Token.Terminated (token : Token) : Prop :=
  ∀ terminator ∈ Terminator.of? token.kind token.text,
    terminator = .lineEnd ∨ ∃ index, terminator.Closes token.text index

/-! ## Reading a token alone -/

/-- A token that has its terminator does not take a line feed behind it. -/
theorem Terminator.not_swallowed {c : Char} {kind : Kind} {tail : List Char}
    (terminated : ∀ terminator ∈ of? kind (c :: tail),
      terminator = .lineEnd ∨ ∃ index, terminator.Closes (c :: tail) index)
    (visible : kind.isLayout = false) :
    Lexeme.read c (tail ++ ['\n']) ≠ ⟨kind, tail ++ ['\n'], []⟩ := by
  intro swallowed
  obtain ⟨split, rfl⟩ := Lexeme.rule_of_read swallowed
  obtain ⟨terminator, waits, inner⟩ := of?_of_newline (Rule.layout?_eq_none visible) split
  have ends := ends_of split waits
  rw [of?_newline] at waits
  obtain ⟨index, closes⟩ := (terminated terminator waits).resolve_left inner
  have short := length_of_closes closes
  have long := UpTo.length_le ends (closes_newline closes)
  simp only [List.length_cons, List.length_append] at short long
  omega

/-- A token that has its terminator is read again before any text that starts with a character at which its
kind halts, also if it was the last one of its source. -/
theorem Token.ReadBefore.again {token : Token} {rest other : List Char} (read : token.ReadBefore rest)
    (visible : token.kind.isLayout = false) (terminated : token.Terminated)
    (halts : ∀ d ∈ other.head?, token.kind.haltsAt d = true) : token.ReadBefore other := by
  obtain ⟨c, tail, made, found⟩ := read
  have spelled : token.text = c :: tail := by rw [made, text_ofText]
  have whole : Lexeme.read c (tail ++ [] ++ rest) = ⟨token.kind, tail ++ [], rest⟩ := by
    rwa [List.append_nil]
  -- Before a line feed the token either ends, or it takes the line feed for want of its terminator.
  have before : Lexeme.read c (tail ++ ['\n']) = ⟨token.kind, tail, ['\n']⟩ := by
    rcases Lexeme.read_trimmed whole visible nofun with ended | swallowed
    · exact ended
    · rw [Token.Terminated, spelled] at terminated
      exact absurd swallowed (Terminator.not_swallowed terminated visible)
  exact ⟨c, tail, made, Lexeme.read_again before visible (List.cons_ne_nil _ _)
    fun d next => Or.inr (halts d next)⟩

/-- A token that is no layout and not the end, and that has a terminator if it waits for one, is read from its
own text, whatever source it stands in. Before a text that starts with a character at which its kind halts, it
is read with the same kind, canonical text and spelling, and the tokens of that text follow, moved behind it.
Tokens halt at layout, parentheses, commas, semicolons and dots, a number not at a dot, and a comment only at
the end of its line. -/
theorem tokenize_isolated {source : String} {token : Token} (member : token ∈ tokenize source)
    (visible : token.isLayout = false) (inner : token.kind ≠ .eof) (terminated : token.Terminated)
    (behind : String) (halts : ∀ d ∈ behind.toList.head?, token.kind.haltsAt d = true) :
    let stop := Position.first.after token.text
    tokenize (token.raw ++ behind) =
      ⟨token.kind, token.value, token.raw, ⟨.first, stop⟩⟩ :: (tokenize behind).map (Token.behind stop) := by
  intro stop
  have found : token.unplaced ∈ lexemes source.toList ++ [endToken] := by
    rw [← unplaced_tokenize]
    exact List.mem_map_of_mem member
  have lexed : token.unplaced ∈ lexemes source.toList := by
    apply (List.mem_append.1 found).resolve_right
    intro ended
    exact inner (congrArg Token.kind (List.mem_singleton.1 ended))
  obtain ⟨rest, read⟩ := readBefore_of_mem lexed
  obtain ⟨c, tail, made, again⟩ := read.again visible terminated halts
  have value : token.value = canonicalText token.kind (String.ofList (c :: tail)) :=
    congrArg Token.value made
  have raw : token.raw = String.ofList (c :: tail) := congrArg Token.raw made
  have text : token.text = c :: tail := by rw [Token.text, raw, String.toList_ofList]
  have spelled : (token.raw ++ behind).toList = c :: (tail ++ behind.toList) := by
    rw [String.toList_append, raw, String.toList_ofList, List.cons_append]
  have kind : (Lexeme.read c (tail ++ behind.toList)).kind = token.kind := congrArg Lexeme.kind again
  have own : (Lexeme.read c (tail ++ behind.toList)).tail = tail := congrArg Lexeme.tail again
  have others : (Lexeme.read c (tail ++ behind.toList)).rest = behind.toList := congrArg Lexeme.rest again
  rw [tokenize, spelled, tokensFrom]
  simp only [kind, own, others]
  rw [← raw, ← text, tokensFrom_eq, value, raw]

/-- A string with an apostrophe in it that ends its source is read again before a semicolon. -/
theorem tokenize_isolated_string :
    let token : Token := ⟨.string, "'it''s'", "'it''s'", ⟨⟨1, 5, 4⟩, ⟨1, 12, 11⟩⟩⟩
    token ∈ tokenize "x = 'it''s'" ∧ token.Terminated ∧
      tokenize ("'it''s'" ++ ";\n.5") =
        ⟨.string, "'it''s'", "'it''s'", ⟨⟨1, 1, 0⟩, ⟨1, 8, 7⟩⟩⟩ ::
          (tokenize ";\n.5").map (Token.behind ⟨1, 8, 7⟩) := by
  intro token
  have member : token ∈ tokenize "x = 'it''s'" := by decide +kernel
  have text : token.text = ['\'', 'i', 't', '\'', '\'', 's', '\''] := by decide +kernel
  have stop : Position.first.after token.text = ⟨1, 8, 7⟩ := by
    rw [text]
    decide
  have terminated : token.Terminated := by
    intro terminator waits
    cases waits
    have body : StringBody ['i', 't', '\'', '\'', 's'] :=
      .plain (by decide) (.plain (by decide) (.doubled (.plain (by decide) .nil)))
    rw [text]
    exact Or.inr ⟨6, by decide, by decide, by decide, body⟩
  have halts : ∀ d ∈ ";\n.5".toList.head?, token.kind.haltsAt d = true := by
    intro d front
    cases front
    rfl
  have isolated := tokenize_isolated member rfl (by decide) terminated ";\n.5" halts
  rw [stop] at isolated
  exact ⟨member, terminated, isolated⟩

end SqlLayout
