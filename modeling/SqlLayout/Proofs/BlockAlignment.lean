import SqlLayout.Proofs.Items

/-!
# Items of a block are aligned

A parenthesis around columns, properties or the parts of a longer concatenation ends its line and
indents what follows by a level (`Entry.Leaves.block`). Whatever an item opens it closes again, so
behind every comma the level of the block holds, and its items and the closing parenthesis keep to one
column each (`block_items_aligned`). A concatenation counts its parts ahead, and the count is that of
its items (`Entry.top_concat`).
-/

namespace SqlLayout

namespace Entry

variable {commas : CommaPosition} {state : State} {entry : Entry}

/-- Behind a parenthesis with lines of its own a line begins, a level beyond the column that the
parenthesis remembers. -/
theorem Leaves.block (leaves : entry.Leaves commas state) (opens : entry.token.kind = .lparen)
    (multiline : entry.state.top ≠ some .grouping) :
    ∃ construct outer, entry.state.constructs = construct :: outer ∧
      construct.kind.isMultiline = true ∧
      entry.state.indentLevel = construct.columnLevel + 1 ∧ entry.state.lineStart = true ∧
      entry.state.statementStart = false := by
  obtain ⟨following, step⟩ := leaves.step
  rw [top_openParen step opens] at multiline
  have block : (state.classify following).isMultiline = true := by
    cases kind : state.classify following with
    | grouping => exact absurd (congrArg some kind) multiline
    | _ => rfl
  obtain ⟨-, next⟩ := placed step
  rw [State.place, opens] at next
  rw [next, State.openParen_eq state entry.token rfl rfl rfl]
  exact ⟨_, _, rfl, block, if_pos block, block, rfl⟩

end Entry

/-- The parenthesis that closes a block with well-nested contents starts a line at the column that the
block remembers. -/
theorem Walk.breaks_closing {commas : CommaPosition} {state : State} {inside after : List Entry}
    {closing : Entry} (walk : Walk commas state (inside ++ closing :: after))
    (nested : WellNested (inside.map Entry.token)) (closes : closing.token.kind = .rparen)
    {construct : Construct} {outer : List Construct}
    (innermost : state.constructs = construct :: outer)
    (multiline : construct.kind.isMultiline = true) :
    closing.Breaks (state.after inside) construct.columnLevel := by
  obtain ⟨inner, last⟩ := walk.append
  have constructs := congrArg Frame.constructs (inner.frame_of_nested nested)
  exact last.head.1.closeParen closes (constructs.trans innermost) multiline

/-! ## Concatenations -/

/-- What stands next behind a parenthesis is seen there. -/
theorem nextSignificant_of_walk {commas : CommaPosition} {state : State} {entry : Entry}
    {entries : List Entry} (walk : Walk commas state (entry :: entries)) (ending : List Token) :
    nextSignificant ((entry :: entries).map Entry.token ++ ending) = some entry.token := by
  rw [nextSignificant, skipLayout, List.map_cons, List.cons_append,
    List.dropWhile_cons_of_neg (by simp [walk.head.1.visible])]
  rfl

/-- A parenthesis behind the name of a concatenation has lines of its own exactly if it holds more than
two items, if no columns are due and it holds no clause first and no CASE. -/
theorem top_concat_iff {commas : CommaPosition} {tokens : List Token}
    {earlier inside after : List Entry} {name opening closing : Entry}
    (split : course commas tokens =
      (earlier ++ [name]) ++ opening :: (inside ++ closing :: after))
    (opens : opening.token.kind = .lparen) (closes : closing.token.kind = .rparen)
    (nested : WellNested (inside.map Entry.token))
    (concat : name.token.isKeywordOf Keyword.concats = true)
    (noColumns : (({} : State).after (earlier ++ [name])).awaitsColumns = false)
    (noCase : ∀ entry ∈ inside, entry.token.isKeyword "CASE" = false)
    (noClause : ∀ entry ∈ inside.head?, entry.token.isKeywordOf Keyword.clauses = false) :
    opening.state.top = some .concat ↔ 2 < itemCount (inside.map Entry.token) := by
  obtain ⟨walk, -, inner⟩ := walk_split split
  obtain ⟨ending, -, step⟩ := course_step split
  have last : (({} : State).after (earlier ++ [name])).last = some name.token := by
    obtain ⟨following, -, next⟩ := walk.append.2.head.1.place
    rw [State.after_append, State.after_cons, State.after_nil, next]
  have noQuery : (nextSignificant ((inside ++ closing :: after).map Entry.token ++ ending)).any
      (Token.isKeywordOf Keyword.clauses) = false := by
    cases inside with
    | nil =>
      rw [List.nil_append, nextSignificant_of_walk inner, Option.any_some, Token.isKeywordOf, closes]
      rfl
    | cons entry others =>
      rw [List.cons_append] at inner ⊢
      rw [nextSignificant_of_walk inner, Option.any_some]
      exact noClause entry rfl
  have counted : argumentCount ((inside ++ closing :: after).map Entry.token ++ ending) =
      itemCount (inside.map Entry.token) := by
    have noBracket : ∀ bracket ∈ ([] : List Bracket), bracket = .paren := by simp
    have commas := argumentCommas_append_rparen nested noBracket (by simpa using noCase) closes
      (after.map Entry.token ++ ending)
    rw [argumentCount, itemCount, List.map_append, List.map_cons, List.append_assoc]
    exact congrArg (· + 1) commas
  rw [Entry.top_openParen step opens, State.classify, noQuery, if_neg Bool.false_ne_true, noColumns,
    if_neg Bool.false_ne_true, last, Option.any_some, concat, counted]
  simp

/-! ## Items of a block -/

/-- Where the items of a block and the parenthesis that closes it start lines, if commas are put last. -/
theorem block_spread (options : Options) {tokens : List Token} {before inside after : List Entry}
    {opening closing : Entry}
    (split : course .trailing tokens = before ++ opening :: (inside ++ closing :: after))
    (opens : opening.token.kind = .lparen) (closes : closing.token.kind = .rparen)
    (nested : WellNested (inside.map Entry.token))
    (block : opening.state.top = some .block ∨ opening.state.top = some .concat) :
    ∃ construct outer, opening.state.constructs = construct :: outer ∧
      (∀ front first back, inside = front ++ first :: back → StartsItem front →
        first.token.beginsItem = true → first.token.isKeywordOf Keyword.clauses = false →
        first.token.isKeyword "ELSE" = false →
        HeadsLine options (before ++ opening :: front) first
          (options.indentSize * (construct.columnLevel + 1)).toNat) ∧
      HeadsLine options (before ++ opening :: inside) closing
        (options.indentSize * construct.columnLevel).toNat := by
  obtain ⟨-, leaves, inner⟩ := walk_split split
  have multiline : opening.state.top ≠ some .grouping := by
    rcases block with top | top <;> simp [top]
  obtain ⟨construct, outer, innermost, lines, level, begun, goesOn⟩ := leaves.block opens multiline
  -- Items of a block are at the level of clauses in it, which is a level beyond its column.
  have content : opening.state.contentLevel = 0 := by
    rw [State.contentLevel, goesOn]
    rcases block with top | top <;> rw [top] <;> rfl
  have reached (front : List Entry) :
      ({} : State).after (before ++ opening :: front) = opening.state.after front := by simp
  refine ⟨construct, outer, innermost, ?_, ?_⟩
  · rintro front first back rfl starts item noClause noElse
    have line := starts.breaks inner.append.1 nested multiline goesOn (fun _ => Or.inl begun) item
      noClause (fun isElse => by rw [noElse] at isElse; cases isElse) (fun _ => content)
    have regrouped : course .trailing tokens =
        (before ++ opening :: front) ++ first :: (back ++ closing :: after) := by
      rw [split]
      simp
    rw [content, Int.add_zero, level, ← reached] at line
    exact line.headsLine (walk_split regrouped).1 options
  · have line := inner.breaks_closing nested closes innermost lines
    have regrouped : course .trailing tokens =
        (before ++ opening :: inside) ++ closing :: after := by
      rw [split]
      simp
    rw [← reached] at line
    exact line.headsLine (walk_split regrouped).1 options

/-- Items of a block are aligned. Wherever a parenthesis around columns, properties or the parts of a
concatenation stands, with well-nested contents and commas put last, every item starts a line a level
beyond the column that the block remembers, and the closing parenthesis starts one at that column. And
a parenthesis behind the name of a concatenation, with no columns due, no clause first and no CASE in
it, is spread like this exactly if it holds more than two items. -/
theorem block_items_aligned (options : Options) (tokens : List Token)
    {before inside after : List Entry} {opening closing : Entry}
    (split : course options.commaPosition tokens = before ++ opening :: (inside ++ closing :: after))
    (opens : opening.token.kind = .lparen) (closes : closing.token.kind = .rparen)
    (nested : WellNested (inside.map Entry.token)) :
    (options.commaPosition = .trailing →
      opening.state.top = some .block ∨ opening.state.top = some .concat →
      ∃ construct outer, opening.state.constructs = construct :: outer ∧
        (∀ front first back, inside = front ++ first :: back → StartsItem front →
          first.token.beginsItem = true → first.token.isKeywordOf Keyword.clauses = false →
          first.token.isKeyword "ELSE" = false →
          HeadsLine options (before ++ opening :: front) first
            (options.indentSize * (construct.columnLevel + 1)).toNat) ∧
        HeadsLine options (before ++ opening :: inside) closing
          (options.indentSize * construct.columnLevel).toNat) ∧
    ∀ earlier name, before = earlier ++ [name] →
      name.token.isKeywordOf Keyword.concats = true →
      (({} : State).after before).awaitsColumns = false →
      (∀ entry ∈ inside, entry.token.isKeyword "CASE" = false) →
      (∀ entry ∈ inside.head?, entry.token.isKeywordOf Keyword.clauses = false) →
      (opening.state.top = some .concat ↔ 2 < itemCount (inside.map Entry.token)) := by
  constructor
  · intro trailing block
    rw [trailing] at split
    exact block_spread options split opens closes nested block
  · rintro earlier name rfl concat noColumns noCase noClause
    exact top_concat_iff split opens closes nested concat noColumns noCase noClause

/-- A concatenation of three parts is spread over lines. The last part stands behind a comment and is a
query with lines of its own, which is indented like the other parts. -/
theorem block_items_aligned_concat :
    format {} "select concat(a, f(b, c), -- d\n(select e))" =
      "SELECT CONCAT(\n  a,\n  f(b, c),\n  -- d\n  (\n    SELECT e\n  )\n)\n" ∧
    ∃ before opening front part back closing,
      course .trailing (fuse (tokenize "select concat(a, f(b, c), -- d\n(select e))")) =
        before ++ opening :: (front ++ part :: back ++ [closing]) ∧
      StartsItem front ∧ front.length = 10 ∧ part.token.kind = .lparen ∧
      opening.state.top = some .concat ∧
      HeadsLine {} (before ++ opening :: front) part 2 ∧
      HeadsLine {} (before ++ opening :: (front ++ part :: back)) closing 0 := by
  let entries := course .trailing (fuse (tokenize "select concat(a, f(b, c), -- d\n(select e))"))
  let earlier := entries.take 1
  let name := entries[1]!
  let opening := entries[2]!
  let parts := (entries.drop 3).take 8
  let mark := entries[11]!
  let note := entries[12]!
  let part := entries[13]!
  let back := (entries.drop 14).take 3
  let closing := entries[17]!
  let inside := parts ++ [mark] ++ [note] ++ part :: back
  have facts : (format {} "select concat(a, f(b, c), -- d\n(select e))" =
        "SELECT CONCAT(\n  a,\n  f(b, c),\n  -- d\n  (\n    SELECT e\n  )\n)\n" ∧
      entries = earlier ++ [name] ++ opening :: (inside ++ [closing]) ∧
      opening.token.kind = .lparen ∧ closing.token.kind = .rparen ∧
      WellNested (inside.map Entry.token)) ∧
      (name.token.isKeywordOf Keyword.concats = true ∧
      (({} : State).after (earlier ++ [name])).awaitsColumns = false ∧
      (∀ entry ∈ inside, entry.token.isKeyword "CASE" = false) ∧
      (∀ entry ∈ inside.head?, entry.token.isKeywordOf Keyword.clauses = false) ∧
      2 < itemCount (inside.map Entry.token)) ∧
      (WellNested (parts.map Entry.token) ∧ mark.token.kind = .comma ∧ note.token.isComment = true ∧
      (parts ++ [mark] ++ [note]).length = 10 ∧ part.token.kind = .lparen ∧
      part.token.beginsItem = true ∧ part.token.isKeywordOf Keyword.clauses = false ∧
      part.token.isKeyword "ELSE" = false) ∧
      (lastLine (textBefore {} (earlier ++ [name] ++ opening :: inside) closing)).length = 0 ∧
      (lastLine (textBefore {} (earlier ++ [name] ++ opening :: (parts ++ [mark] ++ [note]))
        part)).length = 2 := by
    decide +kernel
  obtain ⟨⟨text, split, opens, closes, nested⟩, named, item, closingSpaces, partSpaces⟩ := facts
  obtain ⟨concat, noColumns, noCase, noClause, several⟩ := named
  obtain ⟨single, comma, comment, count, kind, begins, plain, noElse⟩ := item
  obtain ⟨spread, counted⟩ := block_items_aligned {} _ split opens closes nested
  have top := (counted earlier name rfl concat noColumns noCase noClause).2 several
  obtain ⟨construct, outer, -, aligned, closed⟩ := spread rfl (Or.inr top)
  have starts := StartsItem.comment (StartsItem.next single comma) comment
  have line := aligned _ part back rfl starts begins plain noElse
  rw [closed, List.length_replicate] at closingSpaces
  rw [line, List.length_replicate] at partSpaces
  rw [closingSpaces] at closed
  rw [partSpaces] at line
  exact ⟨text, earlier ++ [name], opening, parts ++ [mark] ++ [note], part, back, closing, split, starts,
    count, kind, top, line, closed⟩

end SqlLayout
