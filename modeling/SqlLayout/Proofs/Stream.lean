import SqlLayout.Layout.Piece
import SqlLayout.Proofs.Spelling

/-!
# Streams of tokens

The tokens of a source, apart from their places, are its lexemes in order (`unplaced_tokenize`).
A text is settled before a character when it is cut the same way whether or not that character and
more follow (`Settled`). Texts that are settled before one another can be put together and are
read part by part; every lexeme of a source is settled before the characters at which its kind
halts (`settled_of_read`), and so is every spelling of a keyword (`settled_shown`).
-/

namespace SqlLayout

open Text

namespace Token

/-- The token of a kind and a text, without a place. -/
def ofText (kind : Kind) (text : List Char) : Token :=
  ⟨kind, canonicalText kind (String.ofList text), String.ofList text, ⟨.first, .first⟩⟩

/-- A token without its place. -/
def unplaced (token : Token) : Token :=
  { token with span := ⟨.first, .first⟩ }

/-- The characters of a token as the source spells it. -/
def text (token : Token) : List Char :=
  token.raw.toList

/-- The text of a token that was made from it. -/
@[simp] theorem text_ofText (kind : Kind) (text : List Char) : (ofText kind text).text = text :=
  String.toList_ofList

/-- The kind of a token that was made with it. -/
@[simp] theorem kind_ofText (kind : Kind) (text : List Char) : (ofText kind text).kind = kind :=
  rfl

/-- The canonical text of a token that is no keyword is its text. -/
theorem value_ofText {kind : Kind} (plain : kind ≠ .keyword) (text : List Char) :
    (ofText kind text).value = String.ofList text :=
  if_neg plain

/-- The canonical text of a keyword is its upper-case spelling. -/
theorem value_ofText_keyword (text : List Char) :
    (ofText .keyword text).value = upper (String.ofList text) := by
  rw [ofText, canonicalText, if_pos rfl]

end Token

/-- The text of tokens. -/
def rawText (tokens : List Token) : List Char :=
  tokens.flatMap Token.text

/-- The texts of two token lists follow each other. -/
theorem rawText_append (front back : List Token) :
    rawText (front ++ back) = rawText front ++ rawText back :=
  List.flatMap_append

/-- The text of a token comes before that of the tokens behind it. -/
theorem rawText_cons (token : Token) (rest : List Token) :
    rawText (token :: rest) = token.text ++ rawText rest :=
  List.flatMap_cons

/-- The tokens of a source without their places and without the end token. -/
def lexemes : List Char → List Token
  | [] => []
  | c :: source =>
    Token.ofText (Lexeme.read c source).kind (c :: (Lexeme.read c source).tail) ::
      lexemes (Lexeme.read c source).rest
termination_by source => source.length
decreasing_by exact Nat.lt_succ_of_le (Lexeme.length_rest_le c source)

/-- The end of a source, without its place. -/
def endToken : Token := Token.ofText .eof []

/-- The tokens of a source are its lexemes and the end, wherever the source starts. -/
theorem unplaced_tokensFrom (start : Position) (source : List Char) :
    (tokensFrom start source).map Token.unplaced = lexemes source ++ [endToken] := by
  fun_induction tokensFrom start source with
  | case1 => rw [lexemes]; rfl
  | case2 start c source lexeme raw stop ih =>
    rw [List.map_cons, ih, lexemes]
    rfl

/-- The tokens of a source, apart from their places. -/
theorem unplaced_tokenize (source : String) :
    (tokenize source).map Token.unplaced = lexemes source.toList ++ [endToken] :=
  unplaced_tokensFrom _ _

/-- A source that starts with a lexeme has its token first. -/
theorem lexemes_of_read {c : Char} {kind : Kind} {tail rest : List Char}
    (h : Lexeme.read c (tail ++ rest) = ⟨kind, tail, rest⟩) :
    lexemes (c :: (tail ++ rest)) = Token.ofText kind (c :: tail) :: lexemes rest := by
  rw [lexemes, h]
  rfl

/-- The first token of a source is a lexeme, and the rest of its text has the other tokens. -/
theorem read_of_lexemes {source : List Char} {token : Token} {rest : List Token}
    (h : lexemes source = token :: rest) :
    ∃ c tail, token = Token.ofText token.kind (c :: tail) ∧ ∃ behind,
      source = c :: (tail ++ behind) ∧ lexemes behind = rest ∧
      Lexeme.read c (tail ++ behind) = ⟨token.kind, tail, behind⟩ := by
  cases source with
  | nil =>
    rw [lexemes] at h
    cases h
  | cons c source =>
    rw [lexemes, List.cons.injEq] at h
    obtain ⟨rfl, others⟩ := h
    have whole := Lexeme.tail_append_rest c source
    refine ⟨c, (Lexeme.read c source).tail, rfl, (Lexeme.read c source).rest, ?_, others, ?_⟩
    · rw [whole]
    · rw [whole]
      rfl

/-- The tokens of a source spell it. -/
theorem rawText_lexemes (source : List Char) : rawText (lexemes source) = source := by
  fun_induction lexemes source with
  | case1 => rfl
  | case2 c source ih =>
    rw [rawText_cons, ih, Token.text_ofText, List.cons_append, Lexeme.tail_append_rest]

/-- The last tokens of a source are the tokens of their text. -/
theorem lexemes_rawText {source : List Char} {front back : List Token}
    (h : lexemes source = front ++ back) : lexemes (rawText back) = back := by
  induction front generalizing source with
  | nil =>
    rw [List.nil_append] at h
    rw [← h, rawText_lexemes]
  | cons token front ih =>
    obtain ⟨c, tail, -, behind, -, others, -⟩ := read_of_lexemes h
    exact ih others

/-- Whether a token is read from a source that goes on with the given text. -/
def Token.ReadBefore (token : Token) (rest : List Char) : Prop :=
  ∃ c tail, token = Token.ofText token.kind (c :: tail) ∧
    Lexeme.read c (tail ++ rest) = ⟨token.kind, tail, rest⟩

/-- A token of a source is read before the text of the tokens behind it. -/
theorem readBefore_of_split {source : List Char} {front back : List Token} {token : Token}
    (h : lexemes source = front ++ token :: back) : token.ReadBefore (rawText back) := by
  obtain ⟨c, tail, made, behind, -, others, read⟩ := read_of_lexemes (lexemes_rawText h)
  have same : behind = rawText back := by rw [← others, rawText_lexemes]
  exact ⟨c, tail, made, same ▸ read⟩

/-- Every token of a source is read before some text. -/
theorem readBefore_of_mem {source : List Char} {token : Token} (member : token ∈ lexemes source) :
    ∃ rest, token.ReadBefore rest := by
  obtain ⟨front, back, split⟩ := List.append_of_mem member
  exact ⟨rawText back, readBefore_of_split split⟩

/-! ## Settled texts -/

/-- Whether a text is cut into the same tokens when a character and more follow it. -/
def Settled (text : List Char) (d : Char) : Prop :=
  ∀ other, lexemes (text ++ d :: other) = lexemes text ++ lexemes (d :: other)

/-- A text that is settled before the next one is read before it. -/
theorem Settled.append {text other : List Char} {d : Char} (settled : Settled text d)
    (next : other.head? = some d) : lexemes (text ++ other) = lexemes text ++ lexemes other := by
  obtain ⟨rest, rfl⟩ : ∃ rest, other = d :: rest := ⟨_, (cons_tail_of_head? next).symm⟩
  exact settled rest

/-- A text that is one lexeme has one token. -/
theorem lexemes_single {c : Char} {kind : Kind} {tail : List Char}
    (h : Lexeme.read c tail = ⟨kind, tail, []⟩) :
    lexemes (c :: tail) = [Token.ofText kind (c :: tail)] := by
  have read : Lexeme.read c (tail ++ []) = ⟨kind, tail, []⟩ := by rw [List.append_nil, h]
  have first := lexemes_of_read read
  rw [List.append_nil, lexemes] at first
  exact first

/-- A lexeme that is not at the end of its source is one token alone. -/
theorem lexemes_of_read_alone {c : Char} {kind : Kind} {tail rest : List Char}
    (h : Lexeme.read c (tail ++ rest) = ⟨kind, tail, rest⟩) (visible : kind.isLayout = false) :
    lexemes (c :: tail) = [Token.ofText kind (c :: tail)] := by
  cases rest with
  | nil => exact lexemes_single (by rwa [List.append_nil] at h)
  | cons d rest =>
    have alone : Lexeme.read c (tail ++ []) = ⟨kind, tail, []⟩ :=
      Lexeme.read_again h visible (by simp) (by simp)
    exact lexemes_single (by rwa [List.append_nil] at alone)

/-- A lexeme that is not at the end of its source is settled before the characters at which its
kind halts, and before the character that followed it. -/
theorem settled_of_read {c d : Char} {kind : Kind} {tail rest : List Char}
    (h : Lexeme.read c (tail ++ rest) = ⟨kind, tail, rest⟩) (visible : kind.isLayout = false)
    (ended : rest ≠ []) (halts : rest.head? = some d ∨ kind.haltsAt d = true) :
    Settled (c :: tail) d := by
  intro other
  have again : Lexeme.read c (tail ++ d :: other) = ⟨kind, tail, d :: other⟩ :=
    Lexeme.read_again h visible ended (by simpa using halts)
  rw [lexemes_of_read_alone h visible, List.cons_append, lexemes_of_read again]
  rfl

/-- A text that spells a keyword is this keyword, before any text that does not go on with the
word. -/
theorem Spells.lexemes_append {text other : List Char} {word : String} (spells : Spells text word)
    (ended : ∀ d ∈ other.head?, isWordChar d = false) :
    lexemes (text ++ other) = Token.ofText .keyword text :: lexemes other := by
  obtain ⟨c, tail, rfl, found⟩ := spells.read ended
  exact lexemes_of_read found

/-- A text that spells a keyword is one token. -/
theorem Spells.lexemes {text : List Char} {word : String} (spells : Spells text word) :
    lexemes text = [Token.ofText .keyword text] := by
  have alone : SqlLayout.lexemes (text ++ []) = _ := spells.lexemes_append (by simp)
  rw [List.append_nil, SqlLayout.lexemes] at alone
  exact alone

/-- A text that spells a keyword is settled before any character that does not belong to words. -/
theorem Spells.settled {text : List Char} {word : String} (spells : Spells text word) {d : Char}
    (ended : isWordChar d = false) : Settled text d := by
  intro other
  rw [spells.lexemes_append (by simpa using ended), spells.lexemes]
  rfl

/-! ## What a token is -/

namespace Token.ReadBefore

variable {token : Token} {rest : List Char}

/-- No lexeme is the end of a source. -/
theorem kind_ne_eof (read : token.ReadBefore rest) : token.kind ≠ .eof := by
  obtain ⟨c, tail, -, found⟩ := read
  obtain ⟨-, kind⟩ := Lexeme.rule_of_read found
  rw [← kind]
  exact (Rule.kind_of c _ tail).1

/-- The canonical text of a keyword is in the table. -/
theorem listed (read : token.ReadBefore rest) (keyword : token.kind = .keyword) :
    token.value ∈ Keyword.all := by
  obtain ⟨c, tail, made, found⟩ := read
  obtain ⟨-, kind⟩ := Lexeme.rule_of_read found
  rw [made, keyword, value_ofText_keyword]
  exact ((Rule.kind_of c _ tail).2.1 (kind.trans keyword)).1

/-- A keyword goes on with characters of words. -/
theorem isWordChar_of_mem (read : token.ReadBefore rest) (keyword : token.kind = .keyword) :
    ∀ d ∈ token.text.tail, isWordChar d = true := by
  obtain ⟨c, tail, made, found⟩ := read
  obtain ⟨split, kind⟩ := Lexeme.rule_of_read found
  rw [((Rule.kind_of c _ tail).2.1 (kind.trans keyword)).2] at split
  have run : (tail ++ rest).takeWhile isWordChar = tail := congrArg Prod.fst split
  rw [made, text_ofText, List.tail_cons, ← run]
  exact fun d member => List.mem_takeWhile_imp member

/-- A comment starts with two dashes and goes on to the end of its line. -/
theorem comment_text (read : token.ReadBefore rest) (comment : token.kind = .comment) :
    ∃ tail, token.text = '-' :: '-' :: tail ∧ ∀ d ∈ tail, isLineEnd d = false := by
  obtain ⟨c, tail, made, found⟩ := read
  obtain ⟨split, kind⟩ := Lexeme.rule_of_read found
  obtain ⟨rfl, next⟩ := (Rule.kind_of c _ tail).2.2 (kind.trans comment)
  rw [next] at split
  have run : (tail ++ rest).takeWhile (!isLineEnd ·) = tail := congrArg Prod.fst split
  have inLine : ∀ d ∈ tail, isLineEnd d = false := by
    intro d member
    rw [← run] at member
    simpa using List.mem_takeWhile_imp member
  rw [← cons_tail_of_head? next] at run
  cases tail with
  | nil => cases run
  | cons d tail =>
    obtain ⟨rfl, -⟩ := List.cons.inj run
    refine ⟨tail, by rw [made, text_ofText], fun d member => inLine d (List.mem_cons_of_mem _ member)⟩

/-- Layout has spaces, tabs and line ends only. -/
theorem spacing_of_isLayout (read : token.ReadBefore rest) (layout : token.isLayout = true) :
    ∀ d ∈ token.text, isGap d = true ∨ isLineEnd d = true := by
  obtain ⟨c, tail, made, found⟩ := read
  obtain ⟨split, kind⟩ := Lexeme.rule_of_read found
  have spelled : token.text = c :: tail := by rw [made, text_ofText]
  rw [spelled]
  have isLayout : ((Rule.of c (tail ++ rest).head?).kind tail).isLayout = true := by
    rw [kind]
    exact layout
  exact Rule.spacing_of_layout isLayout (congrArg Prod.fst split)

/-- Layout is blank. -/
theorem blank_of_isLayout (read : token.ReadBefore rest) (layout : token.isLayout = true) :
    IsBlankText token.text :=
  fun d member => (read.spacing_of_isLayout layout d member).elim isBlank_of_isGap
    isBlank_of_isLineEnd

/-- The canonical text of a token that is no keyword is what the source spells. -/
theorem value_eq_raw (read : token.ReadBefore rest) (plain : token.kind ≠ .keyword) :
    token.value = token.raw := by
  obtain ⟨c, tail, made, -⟩ := read
  rw [made, value_ofText plain]
  rfl

/-- A token of a source is one token alone. -/
theorem lexemes_text (read : token.ReadBefore rest) (visible : token.kind.isLayout = false) :
    lexemes token.text = [token] := by
  obtain ⟨c, tail, made, found⟩ := read
  have spelled : token.text = c :: tail := by rw [made, text_ofText]
  rw [spelled, lexemes_of_read_alone found visible, ← made]

/-- A token that is not at the end of its source is settled before the characters at which its kind
halts, and before the character that followed it. -/
theorem settled_text (read : token.ReadBefore rest) (visible : token.kind.isLayout = false)
    (ended : rest ≠ []) {d : Char} (halts : rest.head? = some d ∨ token.kind.haltsAt d = true) :
    Settled token.text d := by
  obtain ⟨c, tail, made, found⟩ := read
  rw [made, text_ofText]
  exact settled_of_read found visible ended halts

/-- What the first character of a visible token says about it. -/
theorem first (read : token.ReadBefore rest) (visible : token.kind.isLayout = false) :
    ∃ c tail, token.text = c :: tail ∧ isGap c = false ∧ isLineEnd c = false ∧
      (isBlank c = true → token.kind = .operator ∧ tail = []) ∧
      (isDigit c = true → token.kind = .number) := by
  obtain ⟨c, tail, made, found⟩ := read
  obtain ⟨split, kind⟩ := Lexeme.rule_of_read found
  have spelled : token.text = c :: tail := by rw [made, text_ofText]
  have unread := Rule.layout?_eq_none (by rw [kind]; exact visible)
  have noGap : isGap c = false := by
    unfold Rule.layout? at unread
    split_ifs at unread with gap
    simpa using gap
  refine ⟨c, tail, spelled, noGap, Rule.isLineEnd_of_layout? unread, fun blank => ?_, fun digit => ?_⟩
  · rw [Rule.of_blank unread blank] at split kind
    exact ⟨kind.symm, (congrArg Prod.fst split).symm⟩
  · rw [Rule.of_digit digit] at kind
    exact kind.symm

/-- A visible token that is not blank starts with a character that is not blank. -/
theorem ink_first (read : token.ReadBefore rest) (visible : token.kind.isLayout = false)
    (ink : inked token.text ≠ []) :
    ∃ c tail, token = ofText token.kind (c :: tail) ∧
      Lexeme.read c (tail ++ rest) = ⟨token.kind, tail, rest⟩ ∧ isBlank c = false := by
  obtain ⟨c, tail, spelled, -, -, single, -⟩ := read.first visible
  obtain ⟨c', tail', made, found⟩ := read
  have same : token.text = c' :: tail' := by rw [made, text_ofText]
  obtain ⟨rfl, rfl⟩ := List.cons.inj (spelled.symm.trans same)
  refine ⟨c, tail, made, found, Bool.eq_false_iff.2 fun blank => ink ?_⟩
  rw [spelled, (single blank).2, inked, List.filter_cons_of_neg (by simp [blank])]
  rfl

/-- A punctuation mark is spelled by its character. -/
theorem text_of_mark (read : token.ReadBefore rest) (mark : token.kind = .lparen ∨
      token.kind = .rparen ∨ token.kind = .comma ∨ token.kind = .semicolon ∨ token.kind = .dot) :
    ∃ c tail, token.text = c :: tail ∧ (c = '(' ∧ token.kind = .lparen ∨
      c = ')' ∧ token.kind = .rparen ∨ c = ',' ∧ token.kind = .comma ∨
      c = ';' ∧ token.kind = .semicolon ∨ c = '.' ∧ token.kind = .dot) := by
  obtain ⟨c, tail, made, found⟩ := read
  obtain ⟨-, kind⟩ := Lexeme.rule_of_read found
  have spelled : token.text = c :: tail := by rw [made, text_ofText]
  exact ⟨c, tail, spelled, Rule.markKind?_eq_some (Rule.markKind?_of_kind kind mark)⟩

end Token.ReadBefore

/-! ## Tokens as they are written -/

namespace Token

/-- A token that the source spells as it is shown. -/
def recast (keywordCase : KeywordCase) (token : Token) : Token :=
  { token with raw := token.shown keywordCase }

/-- A keyword is shown in capitals, in small letters or as it is. -/
theorem shown_keyword (keywordCase : KeywordCase) {token : Token} (keyword : token.kind = .keyword) :
    token.shown keywordCase = upper token.value ∨ token.shown keywordCase = lower token.value ∨
      token.shown keywordCase = token.raw := by
  unfold shown
  rw [if_pos keyword]
  split
  · exact Or.inr (Or.inl rfl)
  · exact Or.inr (Or.inr rfl)
  · exact Or.inl rfl

/-- Any other token is shown as it is. -/
theorem shown_plain (keywordCase : KeywordCase) {token : Token} (plain : token.kind ≠ .keyword) :
    token.shown keywordCase = token.value :=
  if_neg plain

namespace ReadBefore

variable {token : Token} {rest : List Char}

/-- A token is shown as it is, or by another spelling of the keyword it is. -/
theorem shown_eq (read : token.ReadBefore rest) (keywordCase : KeywordCase) :
    (token.shown keywordCase = token.raw) ∨
      token.kind = .keyword ∧ Spells (token.shown keywordCase).toList token.value := by
  by_cases keyword : token.kind = .keyword
  · have listed := read.listed keyword
    rcases shown_keyword keywordCase keyword with upper | lower | same
    · rw [upper, upper_of_mem listed]
      exact Or.inr ⟨keyword, spells_self listed⟩
    · rw [lower]
      exact Or.inr ⟨keyword, spells_lower listed⟩
    · exact Or.inl same
  · exact Or.inl ((shown_plain keywordCase keyword).trans (read.value_eq_raw keyword))

/-- A token as it is shown is the same token again, up to the spelling. -/
theorem lexemes_shown (read : token.ReadBefore rest) (visible : token.kind.isLayout = false)
    (keywordCase : KeywordCase) :
    lexemes (token.shown keywordCase).toList = [token.recast keywordCase] := by
  rcases read.shown_eq keywordCase with same | ⟨keyword, spells⟩
  · rw [recast, same]
    exact read.lexemes_text visible
  · have place : token.span = ⟨.first, .first⟩ := by
      obtain ⟨c, tail, made, -⟩ := read
      rw [made]
      rfl
    rw [spells.lexemes, recast, ofText, canonicalText, if_pos rfl, String.ofList_toList, keyword,
      place]
    rw [← spells.capitals, String.ofList_toList]

/-- A token as it is shown is settled where the token is. -/
theorem settled_shown (read : token.ReadBefore rest) (visible : token.kind.isLayout = false)
    (ended : rest ≠ []) {d : Char} (halts : token.kind.haltsAt d = true)
    (keywordCase : KeywordCase) : Settled (token.shown keywordCase).toList d := by
  rcases read.shown_eq keywordCase with same | ⟨keyword, spells⟩
  · rw [same]
    exact read.settled_text visible ended (Or.inr halts)
  · rw [keyword] at halts
    exact spells.settled (Rule.isWordChar_of_isBreak (by simpa [Kind.haltsAt] using halts))

end ReadBefore

end Token

/-! ## Spacing -/

/-- Nothing is dropped before a character outside the class. -/
theorem dropWhile_of_head? {inClass : Char → Bool} {source : List Char}
    (ended : ∀ d ∈ source.head?, inClass d = false) : source.dropWhile inClass = source := by
  cases source with
  | nil => rfl
  | cons d source => rw [List.dropWhile_cons_of_neg (by simp [ended d rfl])]

/-- Spaces and line feeds are read as layout before any text that starts with neither a space nor a
tab. -/
theorem lexemes_spacing {gap : List Char} (spacing : ∀ c ∈ gap, c = ' ' ∨ c = '\n')
    {other : List Char} (ended : ∀ d ∈ other.head?, isGap d = false) :
    ∃ layout, (∀ token ∈ layout, token.isLayout = true) ∧ rawText layout = gap ∧
      lexemes (gap ++ other) = layout ++ lexemes other := by
  suffices read : ∃ layout, (∀ token ∈ layout, token.isLayout = true) ∧
      lexemes (gap ++ other) = layout ++ lexemes other by
    obtain ⟨layout, isLayout, read⟩ := read
    have spelled := congrArg rawText read
    rw [rawText_append, rawText_lexemes, rawText_lexemes] at spelled
    exact ⟨layout, isLayout, (List.append_cancel_right spelled).symm, read⟩
  -- A run of spaces is one token, so the induction is on the length of the gap.
  induction size : gap.length using Nat.strong_induction_on generalizing gap with
  | _ n ih =>
    cases gap with
    | nil => exact ⟨[], by simp, rfl⟩
    | cons c rest =>
      have others : ∀ d ∈ rest, d = ' ' ∨ d = '\n' :=
        fun d member => spacing d (List.mem_cons_of_mem c member)
      rcases spacing c List.mem_cons_self with rfl | rfl
      · have run : (rest ++ other).dropWhile isGap = rest.dropWhile isGap ++ other := by
          rw [List.dropWhile_append]
          split
          · rename_i spaces
            rw [List.isEmpty_iff.1 spaces, List.nil_append]
            exact dropWhile_of_head? ended
          · rfl
        have shorter : (rest.dropWhile isGap).length < n := by
          have bound := (List.dropWhile_sublist isGap (l := rest)).length_le
          rw [List.length_cons] at size
          omega
        obtain ⟨layout, isLayout, read⟩ :=
          ih _ shorter (fun d member => others d ((List.dropWhile_sublist _).mem member)) rfl
        refine ⟨Token.ofText .space (' ' :: (rest ++ other).takeWhile isGap) :: layout, ?_, ?_⟩
        · simpa [Token.isLayout, Kind.isLayout] using isLayout
        · rw [List.cons_append, List.cons_append, ← read, ← run, lexemes]
          rfl
      · obtain ⟨layout, isLayout, read⟩ := ih rest.length (by simp at size; omega) others rfl
        refine ⟨Token.ofText .newline ['\n'] :: layout, ?_, ?_⟩
        · simpa [Token.isLayout, Kind.isLayout] using isLayout
        · rw [List.cons_append, List.cons_append, ← read, lexemes]
          rfl

end SqlLayout
