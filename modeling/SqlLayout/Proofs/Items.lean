import SqlLayout.Proofs.LineHeads

/-!
# Items of a list

Commas outside of all brackets part well-nested tokens into items (`outside`, `itemCount`). The looks
ahead at a selection and at the arguments of a call keep counters of their own, which agree with the
brackets that are open (`selectionCommas_append`, `argumentCommas_append_rparen`). While the tokens are
laid out, every comma between items ends its line and gives back the levels that hold at the start of
the list, so every item but the first begins at the start of a line (`StartsItem.walk`).
-/

namespace SqlLayout

/-! ## Brackets -/

/-- What a token does to the brackets that are open, innermost first. -/
inductive Token.Nests (token : Token) : List Bracket → List Bracket → Prop
  /-- A parenthesis is opened. -/
  | openParen {brackets : List Bracket} (opens : token.kind = .lparen) :
    Nests token brackets (.paren :: brackets)
  /-- A CASE is opened. -/
  | openCase {brackets : List Bracket} (opens : token.isKeyword "CASE" = true) :
    Nests token brackets (.case :: brackets)
  /-- The innermost bracket is a parenthesis and is closed. -/
  | closeParen {brackets : List Bracket} (closes : token.kind = .rparen) :
    Nests token (.paren :: brackets) brackets
  /-- The innermost bracket is a CASE and is closed. -/
  | closeCase {brackets : List Bracket} (closes : token.isKeyword "END" = true) :
    Nests token (.case :: brackets) brackets
  /-- Any other token opens and closes nothing. -/
  | stays {brackets : List Bracket} (noParen : token.kind ≠ .lparen ∧ token.kind ≠ .rparen)
    (noCase : token.isKeyword "CASE" = false ∧ token.isKeyword "END" = false) :
    Nests token brackets brackets

/-- A token that nests does not end the statement, and opens or closes one bracket at most. -/
theorem Token.nests_eq_some {token : Token} {brackets inner : List Bracket}
    (nests : token.nests brackets = some inner) :
    token.kind.endsStatement = false ∧ token.Nests brackets inner := by
  unfold Token.nests at nests
  split_ifs at nests with ends opens openCase closes closeCase
  · exact ⟨by simpa using ends, Option.some.inj nests ▸ Nests.openParen opens⟩
  · exact ⟨by simpa using ends, Option.some.inj nests ▸ Nests.openCase openCase⟩
  · exact ⟨by simpa using ends, Bracket.close_eq_some nests ▸ Nests.closeParen closes⟩
  · exact ⟨by simpa using ends, Bracket.close_eq_some nests ▸ Nests.closeCase closeCase⟩
  · refine ⟨by simpa using ends, Option.some.inj nests ▸ Nests.stays ⟨opens, closes⟩ ?_⟩
    exact ⟨by simpa using openCase, by simpa using closeCase⟩

/-- A token that nests ends neither the source nor the statement. -/
theorem Token.goesOn_of_nests {token : Token} {brackets inner : List Bracket}
    (nests : token.nests brackets = some inner) : token.kind ≠ .eof ∧ token.kind ≠ .semicolon := by
  have goesOn := (nests_eq_some nests).1
  constructor <;> intro kind <;> rw [kind] at goesOn <;> cases goesOn

/-- A token that is neither a parenthesis nor a keyword leaves the brackets alone. -/
theorem Token.nests_plain {token : Token} (goesOn : token.kind.endsStatement = false)
    (noParen : token.kind ≠ .lparen ∧ token.kind ≠ .rparen) (noWord : token.kind ≠ .keyword)
    (brackets : List Bracket) : token.nests brackets = some brackets := by
  simp [Token.nests, goesOn, noParen, Token.isKeyword_of_kind noWord]

/-- Brackets are opened and closed from the left to the right. -/
theorem openBrackets_append (brackets : List Bracket) (front back : List Token) :
    openBrackets brackets (front ++ back) =
      (openBrackets brackets front).bind fun inner => openBrackets inner back := by
  induction front generalizing brackets with
  | nil => rfl
  | cons token front ih =>
    rw [List.cons_append, openBrackets, openBrackets, Option.bind_assoc]
    congr 1
    funext inner
    exact ih inner

/-- Well-nested tokens and one that leaves the brackets alone are well nested together. -/
theorem WellNested.concat {tokens : List Token} (nested : WellNested tokens) {token : Token}
    (plain : token.nests [] = some []) : WellNested (tokens ++ [token]) := by
  rw [WellNested, openBrackets_append, nested, Option.bind_some, openBrackets, plain]
  rfl

/-- Behind a well-nested part of well-nested tokens the next token nests outside of all brackets. -/
theorem WellNested.next {front back : List Token} {token : Token} (nested : WellNested front)
    (whole : WellNested (front ++ token :: back)) :
    ∃ inner, token.nests [] = some inner := by
  rw [WellNested, openBrackets_append, nested, Option.bind_some, openBrackets] at whole
  obtain ⟨inner, here, -⟩ := Option.bind_eq_some_iff.1 whole
  exact ⟨inner, here⟩

/-! ## Commas between items -/

/-- The tokens that stand outside of all brackets, if some brackets are open before them. -/
def outside (brackets : List Bracket) : List Token → List Token
  | [] => []
  | token :: rest =>
    match token.nests brackets with
    | none => []
    | some inner => if brackets = [] then token :: outside inner rest else outside inner rest

/-- The commas that stand outside of all brackets, if some brackets are open before the tokens. -/
def itemCommas (brackets : List Bracket) (tokens : List Token) : Nat :=
  (outside brackets tokens).countP fun token => token.kind == .comma

/-- The number of items that the commas outside of brackets part tokens into. -/
def itemCount (tokens : List Token) : Nat :=
  itemCommas [] tokens + 1

/-- A comma parts items where no bracket is open. -/
theorem itemCommas_cons {token : Token} {brackets inner : List Bracket}
    (nests : token.nests brackets = some inner) (rest : List Token) :
    itemCommas brackets (token :: rest) =
      (if brackets = [] ∧ token.kind = .comma then 1 else 0) + itemCommas inner rest := by
  rw [itemCommas, outside, nests, itemCommas]
  dsimp only
  by_cases free : brackets = []
  · rw [if_pos free, List.countP_cons]
    by_cases comma : token.kind = .comma
    · simp [free, comma, Nat.add_comm]
    · simp [free, comma]
  · simp [free]

/-- What stands outside of all brackets in a list stands there in its parts. -/
theorem outside_append {brackets inner : List Bracket} {front : List Token}
    (opened : openBrackets brackets front = some inner) (back : List Token) :
    outside brackets (front ++ back) = outside brackets front ++ outside inner back := by
  induction front generalizing brackets with
  | nil =>
    rw [Option.some.inj opened]
    rfl
  | cons token front ih =>
    rw [openBrackets] at opened
    obtain ⟨next, here, later⟩ := Option.bind_eq_some_iff.1 opened
    rw [List.cons_append, outside, outside, here]
    dsimp only
    rw [ih later]
    split <;> rfl

/-- Behind a well-nested part of well-nested tokens the next token stands outside of all brackets. -/
theorem WellNested.mem_outside {front back : List Token} {token : Token} (nested : WellNested front)
    (whole : WellNested (front ++ token :: back)) : token ∈ outside [] (front ++ token :: back) := by
  obtain ⟨inner, here⟩ := nested.next whole
  rw [outside_append nested, outside, here]
  exact List.mem_append_right _ List.mem_cons_self

/-! ## Looking ahead at a selection -/

/-- The open CASE expressions that stand in no open parenthesis, if brackets are open, innermost
first. -/
def outerCases : List Bracket → Nat
  | [] => 0
  | bracket :: outer =>
    if bracket = .case ∧ .paren ∉ outer then outerCases outer + 1 else outerCases outer

/-- Some parenthesis is open, or some CASE in none, if any bracket is. -/
theorem outerCases_pos {brackets : List Bracket} (within : brackets ≠ [])
    (noParen : Bracket.paren ∉ brackets) : 0 < outerCases brackets := by
  obtain ⟨bracket, outer, rfl⟩ := List.exists_cons_of_ne_nil within
  have isCase : bracket = .case := by
    cases bracket with
    | paren => exact absurd List.mem_cons_self noParen
    | case => rfl
  have outside : Bracket.paren ∉ outer := fun member => noParen (List.mem_cons_of_mem _ member)
  rw [outerCases, if_pos ⟨isCase, outside⟩]
  exact Nat.succ_pos _

/-- At a token that nests, the look at a selection goes on with the brackets that are open behind it, and
counts the token if it is a comma outside of all brackets. -/
theorem selectionCommas_cons {token : Token} {brackets inner : List Bracket}
    (nests : token.nests brackets = some inner)
    (noClause : brackets = [] → token.isKeywordOf Keyword.clauses = false) (rest : List Token) :
    selectionCommas (brackets.count .paren) (outerCases brackets) (token :: rest) =
      (if brackets = [] ∧ token.kind = .comma then 1 else 0) +
        selectionCommas (inner.count .paren) (outerCases inner) rest := by
  have noEnd := Token.goesOn_of_nests nests
  rw [selectionCommas, if_neg noEnd.1]
  cases (Token.nests_eq_some nests).2 with
  | openParen opens =>
    simp [opens, outerCases]
  | openCase opens =>
    have word := Token.kind_of_isKeyword opens
    simp only [word, opens, reduceCtorEq, and_false, if_false, if_true, Nat.zero_add]
    by_cases within : Bracket.paren ∈ brackets
    · have deep : 0 < brackets.count .paren := List.count_pos_iff.2 within
      simp [deep, outerCases, within]
    · have flat : brackets.count .paren = 0 := List.count_eq_zero.2 within
      simp [flat, outerCases, within]
  | closeParen closes =>
    simp [closes, outerCases]
  | closeCase closes =>
    have word := Token.kind_of_isKeyword closes
    have noCase : token.isKeyword "CASE" = false := by
      simp [Token.isKeyword, Token.value_of_isKeyword closes]
    simp only [word, closes, noCase, reduceCtorEq, and_false, if_false, if_true, Nat.zero_add]
    by_cases within : Bracket.paren ∈ inner
    · have deep : 0 < inner.count .paren := List.count_pos_iff.2 within
      simp [deep, outerCases, within]
    · have flat : inner.count .paren = 0 := List.count_eq_zero.2 within
      simp [flat, outerCases, within]
  | stays noParen noCase =>
    simp only [noParen, noCase, noEnd, if_false, Bool.false_eq_true]
    by_cases free : brackets = []
    · have clause := noClause free
      subst free
      by_cases comma : token.kind = .comma
      · simp [comma, clause, outerCases]
      · simp [comma, clause, outerCases]
    · by_cases within : Bracket.paren ∈ brackets
      · have deep : 0 < brackets.count .paren := List.count_pos_iff.2 within
        simp [free, deep]
      · have flat : brackets.count .paren = 0 := List.count_eq_zero.2 within
        have inCase := outerCases_pos free within
        simp [free, flat, inCase]

/-- The look at a selection counts the commas of tokens that close all open brackets, as far as they
stand outside of these, unless a clause does. -/
theorem selectionCommas_append {brackets : List Bracket} {front : List Token}
    (nested : openBrackets brackets front = some [])
    (noClause : ∀ token ∈ outside brackets front, token.isKeywordOf Keyword.clauses = false)
    (back : List Token) :
    selectionCommas (brackets.count .paren) (outerCases brackets) (front ++ back) =
      itemCommas brackets front + selectionCommas 0 0 back := by
  induction front generalizing brackets with
  | nil =>
    rw [Option.some.inj nested, itemCommas, outside, List.countP_nil, Nat.zero_add]
    rfl
  | cons token rest ih =>
    rw [openBrackets] at nested
    obtain ⟨inner, here, later⟩ := Option.bind_eq_some_iff.1 nested
    rw [outside, here] at noClause
    dsimp only at noClause
    have others : ∀ token ∈ outside inner rest, token.isKeywordOf Keyword.clauses = false := by
      intro other member
      apply noClause
      split
      · exact List.mem_cons_of_mem token member
      · exact member
    have first : brackets = [] → token.isKeywordOf Keyword.clauses = false := by
      intro free
      apply noClause
      rw [if_pos free]
      exact List.mem_cons_self
    rw [List.cons_append, selectionCommas_cons here first, ih later others, itemCommas_cons here,
      Nat.add_assoc]

/-! ## Looking ahead at arguments -/

/-- The look at the arguments of a call counts the commas outside of all brackets up to the parenthesis
that closes the call, if no CASE is among them. -/
theorem argumentCommas_append_rparen {brackets : List Bracket} {front : List Token}
    (nested : openBrackets brackets front = some []) (parens : ∀ bracket ∈ brackets, bracket = .paren)
    (noCase : ∀ token ∈ front, token.isKeyword "CASE" = false) {closing : Token}
    (closes : closing.kind = .rparen) (back : List Token) :
    argumentCommas brackets.length (front ++ closing :: back) = itemCommas brackets front := by
  induction front generalizing brackets with
  | nil =>
    rw [Option.some.inj nested, itemCommas, outside, List.countP_nil]
    simp [argumentCommas, closes]
  | cons token rest ih =>
    rw [openBrackets] at nested
    obtain ⟨inner, here, later⟩ := Option.bind_eq_some_iff.1 nested
    obtain ⟨first, others⟩ := List.forall_mem_cons.1 noCase
    have goesOn (parens : ∀ bracket ∈ inner, bracket = .paren) := ih later parens others
    rw [itemCommas_cons here, List.cons_append, argumentCommas]
    cases (Token.nests_eq_some here).2 with
    | openParen opens =>
      have count := goesOn (List.forall_mem_cons.2 ⟨rfl, parens⟩)
      simpa [opens] using count
    | openCase opens =>
      rw [first] at opens
      cases opens
    | closeParen closes =>
      have count := goesOn (List.forall_mem_cons.1 parens).2
      simpa [closes] using count
    | closeCase closes =>
      have isParen := (List.forall_mem_cons.1 parens).1
      cases isParen
    | stays noParen noKeyword =>
      have count := goesOn parens
      split
      · exact absurd ‹_› noParen.1
      · exact absurd ‹_› noParen.2
      · rename_i comma
        simp [comma, count]
      · rename_i noOpening noClosing other
        have noComma : token.kind ≠ .comma := other
        simp [noComma, count]

/-! ## Where items begin -/

/-- Whether the first token of an item stands behind entries of a list: comments aside, these are none,
or end in a comma outside of all brackets. -/
inductive StartsItem : List Entry → Prop
  /-- The first item begins with the list. -/
  | first : StartsItem []
  /-- Any other item begins behind a comma. -/
  | next {earlier : List Entry} {mark : Entry} (nested : WellNested (earlier.map Entry.token))
    (comma : mark.token.kind = .comma) : StartsItem (earlier ++ [mark])
  /-- Comments before an item do not belong to it. -/
  | comment {front : List Entry} {note : Entry} (starts : StartsItem front)
    (comment : note.token.isComment = true) : StartsItem (front ++ [note])

/-- A comment is neither a parenthesis nor a keyword, and does not end a statement. -/
theorem Token.nests_comment {token : Token} (comment : token.isComment = true)
    (brackets : List Bracket) : token.nests brackets = some brackets := by
  have goesOn : token.kind.endsStatement = false := by
    rw [isComment] at comment
    cases kind : token.kind <;> rw [kind] at comment <;> first | rfl | cases comment
  have other {kind : Kind} (mark : kind.isComment = false) := kind_ne_of_isComment comment mark
  exact nests_plain goesOn ⟨other rfl, other rfl⟩ (other rfl) brackets

/-- What stands before an item is well nested. -/
theorem StartsItem.nested {front : List Entry} (starts : StartsItem front) :
    WellNested (front.map Entry.token) := by
  induction starts with
  | first => rfl
  | next nested comma =>
    rw [List.map_append]
    exact nested.concat (Token.nests_plain (by rw [comma]; rfl) (by simp [comma]) (by simp [comma]) [])
  | comment starts comment ih =>
    rw [List.map_append]
    exact ih.concat (Token.nests_comment comment [])

namespace Entry

variable {commas : CommaPosition} {state : State} {entry : Entry}

/-- A trailing comma outside of an inline parenthesis ends its line. -/
theorem Leaves.lineStart_comma (leaves : entry.Leaves .trailing state)
    (comma : entry.token.kind = .comma) (list : state.top ≠ some .grouping) :
    entry.state.lineStart = true := by
  obtain ⟨following, -, next⟩ := leaves.place
  have placed : state.place .trailing entry.token following =
      State.comma .trailing state entry.token := by
    rw [State.place, comma]
  have apart : (state.top == some .grouping && !state.afterBlock) = false := by
    simp [list]
  rw [next, placed, State.comma, apart]
  rfl

/-- A statement that has begun goes on behind a token that is no semicolon. -/
theorem Leaves.statementStart (leaves : entry.Leaves commas state)
    (begun : state.statementStart = false) (goesOn : entry.token.kind ≠ .semicolon) :
    entry.state.statementStart = false := by
  obtain ⟨following, -, next⟩ := leaves.place
  rw [Bool.eq_false_iff, next]
  intro start
  have before := (State.place_leavesStart goesOn start).before
  rw [begun] at before
  cases before

end Entry

/-- A statement that has begun goes on behind tokens that nest. -/
theorem Walk.statementStart {commas : CommaPosition} {state : State} {entries : List Entry}
    (walk : Walk commas state entries) {brackets rest : List Bracket}
    (nested : openBrackets brackets (entries.map Entry.token) = some rest)
    (begun : state.statementStart = false) : (state.after entries).statementStart = false := by
  induction walk generalizing brackets with
  | done state => exact begun
  | next leaves others ih =>
    rw [List.map_cons, openBrackets] at nested
    obtain ⟨inner, here, later⟩ := Option.bind_eq_some_iff.1 nested
    exact ih later (leaves.statementStart begun (Token.goesOn_of_nests here).2)

/-- Before an item of a list that is no argument list the levels of the list hold, and every item but
the first begins at the start of a line. -/
theorem StartsItem.walk {front : List Entry} (starts : StartsItem front) {state : State}
    (walk : Walk .trailing state front) (list : state.top ≠ some .grouping) :
    (state.after front).frame = state.frame ∧
      (front = [] ∨ (state.after front).lineStart = true) := by
  refine ⟨walk.frame_of_nested starts.nested, ?_⟩
  cases starts with
  | first => exact Or.inl rfl
  | next nested comma =>
    obtain ⟨before, last⟩ := walk.append
    have same := congrArg Frame.constructs (before.frame_of_nested nested)
    right
    rw [State.after_append]
    refine last.head.1.lineStart_comma comma ?_
    rw [State.top, show State.constructs _ = state.constructs from same]
    exact list
  | comment earlier comment =>
    obtain ⟨before, last⟩ := walk.append
    right
    rw [State.after_append, State.after_cons, State.after_nil, last.head.1.comment comment]

/-! ## The first token of an item -/

namespace Token

/-- Whether a token may be the first of an item: it is no comment, and no mark that belongs to the token
before it. -/
def beginsItem (token : Token) : Bool :=
  !token.isComment && token.kind != .comma && token.kind != .dot

/-- The first token of an item is a word, a literal, an operator or an opening parenthesis, and no END. -/
theorem heads_of_beginsItem {token : Token} (begins : token.beginsItem = true)
    (visible : token.isLayout = false) {inner : List Bracket} (nests : token.nests [] = some inner) :
    token.kind.heads = true ∧ token.isKeyword "END" = false := by
  obtain ⟨goesOn, nesting⟩ := nests_eq_some nests
  simp only [beginsItem, Bool.and_eq_true, Bool.not_eq_true', bne_iff_ne] at begins
  obtain ⟨⟨noComment, noComma⟩, noDot⟩ := begins
  have heads (noParen : token.kind ≠ .rparen) : token.kind.heads = true := by
    rw [isComment] at noComment
    rw [isLayout] at visible
    cases kind : token.kind <;>
      simp_all [Kind.heads, Kind.isComment, Kind.isLayout, Kind.endsStatement]
  cases nesting with
  | openParen opens => exact ⟨heads (by simp [opens]), isKeyword_of_kind (by simp [opens]) _⟩
  | openCase opens =>
    exact ⟨heads (by simp [kind_of_isKeyword opens]), by simp [isKeyword, value_of_isKeyword opens]⟩
  | stays noParen noCase => exact ⟨heads noParen.2, noCase.2⟩

end Token

/-- The first token of an item starts a line, at the level of items of the list. For the first item this
has to be due. -/
theorem StartsItem.breaks {front back : List Entry} {first : Entry} (starts : StartsItem front)
    {state : State} (walk : Walk .trailing state (front ++ first :: back))
    (nested : WellNested ((front ++ first :: back).map Entry.token))
    (list : state.top ≠ some .grouping) (begun : state.statementStart = false)
    (due : front = [] → state.HeadDue first.token) (begins : first.token.beginsItem = true)
    (noClause : first.token.isKeywordOf Keyword.clauses = false)
    (branch : first.token.isKeyword "ELSE" = true → state.contentLevel = 1)
    (comment : first.token.isKeyword "COMMENT" = true → state.contentLevel = 0) :
    first.Breaks (state.after front) (state.indentLevel + state.contentLevel) := by
  obtain ⟨before, behind⟩ := walk.append
  have leaves := behind.head.1
  obtain ⟨frame, placed⟩ := starts.walk before list
  rw [List.map_append, List.map_cons] at nested
  obtain ⟨inner, nests⟩ := starts.nested.next nested
  obtain ⟨heads, noEnd⟩ := Token.heads_of_beginsItem begins leaves.visible nests
  have headDue : (state.after front).HeadDue first.token := by
    rcases placed with rfl | lineStart
    · exact due rfl
    · exact Or.inl lineStart
  have line := leaves.breaks_head heads headDue
  -- The levels of the list hold again, so items are indented as they are at its start.
  have level : (state.after front).indentLevel = state.indentLevel := congrArg Frame.level frame
  have content : (state.after front).contentLevel = state.contentLevel := by
    have constructs := congrArg Frame.constructs frame
    dsimp only [State.frame] at constructs
    rw [State.contentLevel, State.top, before.statementStart starts.nested begun, constructs,
      State.contentLevel, State.top, begun]
  have item : (state.after front).headLevel first.token = state.contentLevel := by
    rcases (state.after front).headLevel_item noClause noEnd with same | ⟨isElse, one⟩ | ⟨isComment, zero⟩
    · exact same.trans content
    · exact one.trans (branch isElse).symm
    · exact zero.trans (comment isComment).symm
  rwa [level, item] at line

end SqlLayout
