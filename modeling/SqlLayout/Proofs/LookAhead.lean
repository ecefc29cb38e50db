import Mathlib.Data.List.Infix
import SqlLayout.Proofs.Statement

/-!
# How far a look ahead reaches

The arguments of a call end at the parenthesis that closes it; a selection ends at a clause, at a
semicolon or at the parenthesis around it. Neither look ahead stops at a semicolon inside of a
parenthesis. So what stands behind a semicolon matters for a count exactly when the list that is
counted has not ended before it and a parenthesis is open there (`counts_stop_iff`).
-/

namespace SqlLayout

/-! ## Brackets that are open -/

/-- What a look ahead at a selection has open. -/
structure Depths where
  /-- The open parentheses. -/
  parens : Nat
  /-- The open CASE expressions. -/
  cases : Nat
deriving DecidableEq

/-- Tokens that close everything that is open and then have a comma. -/
def Depths.wayOut (depths : Depths) : List Token :=
  List.replicate depths.parens ⟨.rparen, ")", ")", ⟨.first, .first⟩⟩ ++
    (List.replicate depths.cases ⟨.keyword, "END", "end", ⟨.first, .first⟩⟩ ++
      [⟨.comma, ",", ",", ⟨.first, .first⟩⟩])

/-! ## Arguments -/

/-- Whether tokens close all parentheses that are open before them. -/
def ClosesAll (opened : Nat) (tokens : List Token) : Prop :=
  ∃ inner, inner <+: tokens ∧ openParens opened inner = 0

/-- Whether tokens close all open parentheses can be decided. -/
instance (opened : Nat) (tokens : List Token) : Decidable (ClosesAll opened tokens) :=
  decidable_of_iff (∃ inner ∈ tokens.inits, openParens opened inner = 0)
    (by simp only [List.mem_inits, ClosesAll])

/-- The parenthesis that closes a call ends its arguments. -/
theorem argumentCommas_closed {depth : Nat} {front : List Token}
    (closed : ClosesAll (depth + 1) front) (back : List Token) :
    argumentCommas depth (front ++ back) = argumentCommas depth front := by
  obtain ⟨inner, ⟨behind, rfl⟩, none⟩ := closed
  rw [List.append_assoc, argumentCommas_append none, argumentCommas_append none]

/-- An opening parenthesis is one level deeper. -/
theorem argumentCommas_cons_lparen {token : Token} (opens : token.kind = .lparen) (depth : Nat)
    (rest : List Token) : argumentCommas depth (token :: rest) = argumentCommas (depth + 1) rest := by
  rw [argumentCommas, opens]

/-- A closing parenthesis within the arguments leads back one level. -/
theorem argumentCommas_cons_rparen {token : Token} (closes : token.kind = .rparen) (depth : Nat)
    (rest : List Token) : argumentCommas (depth + 1) (token :: rest) = argumentCommas depth rest := by
  rw [argumentCommas, closes]
  rfl

/-- Any other token keeps the level, and a comma outside of parentheses counts. -/
theorem argumentCommas_cons {token : Token} (noOpening : token.kind ≠ .lparen)
    (noClosing : token.kind ≠ .rparen) (depth : Nat) (rest : List Token) :
    argumentCommas depth (token :: rest) =
      (if token.kind = .comma ∧ depth = 0 then 1 else 0) + argumentCommas depth rest := by
  rw [argumentCommas]
  split
  · contradiction
  · contradiction
  · rename_i comma
    simp [comma]
  · rename_i other
    rw [if_neg fun both => other both.1, Nat.zero_add]

/-- What a token does to the arguments: it closes the call, or they go on at some level behind it, which
changes with the parentheses that are open. -/
theorem argumentCommas_step (depth : Nat) (token : Token) : (depth = 0 ∧ token.kind = .rparen) ∨
    ∃ next gained,
      (∀ rest, argumentCommas depth (token :: rest) = gained + argumentCommas next rest) ∧
      ∀ rest, openParens (depth + 1) (token :: rest) = openParens (next + 1) rest := by
  by_cases opening : token.kind = .lparen
  · refine Or.inr ⟨depth + 1, 0, fun rest => ?_, openParens_cons_lparen opening (depth + 1)⟩
    rw [argumentCommas_cons_lparen opening, Nat.zero_add]
  by_cases closing : token.kind = .rparen
  · cases depth with
    | zero => exact Or.inl ⟨rfl, closing⟩
    | succ depth =>
      refine Or.inr ⟨depth, 0, fun rest => ?_, openParens_cons_rparen closing (depth + 2)⟩
      rw [argumentCommas_cons_rparen closing, Nat.zero_add]
  · exact Or.inr ⟨depth, _, argumentCommas_cons opening closing depth,
      openParens_cons opening closing (depth + 1)⟩

/-- Until the call is closed, its arguments go on. -/
theorem argumentCommas_open {depth : Nat} {front : List Token}
    (going : ¬ClosesAll (depth + 1) front) :
    ∃ deeper, ∀ back, argumentCommas depth (front ++ back) =
      argumentCommas depth front + argumentCommas deeper back := by
  induction front generalizing depth with
  | nil => exact ⟨depth, fun back => (Nat.zero_add _).symm⟩
  | cons token rest ih =>
    rcases argumentCommas_step depth token with ⟨rfl, closing⟩ | ⟨next, gained, counts, opened⟩
    · have closed : openParens (0 + 1) [token] = 0 := openParens_cons_rparen closing 1 []
      exact absurd ⟨[token], List.cons_prefix_cons.2 ⟨rfl, List.nil_prefix⟩, closed⟩ going
    · have later : ¬ClosesAll (next + 1) rest := by
        rintro ⟨inner, first, none⟩
        refine going ⟨token :: inner, List.cons_prefix_cons.2 ⟨rfl, first⟩, ?_⟩
        rw [opened, none]
      obtain ⟨deeper, goesOn⟩ := ih later
      refine ⟨deeper, fun back => ?_⟩
      rw [List.cons_append, counts, goesOn, counts, Nat.add_assoc]

/-- A comma behind the parentheses that are open parts arguments. -/
theorem argumentCommas_wayOut (depth : Nat) : argumentCommas depth (Depths.wayOut ⟨depth, 0⟩) = 1 := by
  rw [Depths.wayOut, List.replicate_zero, List.nil_append]
  induction depth with
  | zero => rfl
  | succ depth ih => rw [List.replicate_succ, List.cons_append, argumentCommas_cons_rparen rfl, ih]

/-! ## Selections -/

namespace Depths

/-- What is open behind a token outside of all parentheses; nothing if the token ends the selection. -/
def nextOutside? (depths : Depths) (token : Token) : Option Depths :=
  if token.kind = .semicolon then none
  else if token.isKeyword "CASE" then some { depths with cases := depths.cases + 1 }
  else if 0 < depths.cases then
    some { depths with cases := if token.isKeyword "END" then depths.cases - 1 else depths.cases }
  else if token.isKeywordOf Keyword.clauses then none
  else some depths

/-- What is open behind a token; nothing if the token ends the selection. -/
def next? (depths : Depths) (token : Token) : Option Depths :=
  if token.kind = .eof then none
  else if token.kind = .lparen then some { depths with parens := depths.parens + 1 }
  else if token.kind = .rparen then
    if depths.parens = 0 then none else some { depths with parens := depths.parens - 1 }
  else if 0 < depths.parens then some depths
  else depths.nextOutside? token

/-- What is open behind tokens; nothing if the selection ends among them. -/
def after? (depths : Depths) (tokens : List Token) : Option Depths :=
  tokens.foldlM next? depths

/-- The commas between items of a selection, from tokens behind which something is open on. -/
def commas (depths : Depths) (tokens : List Token) : Nat :=
  selectionCommas depths.parens depths.cases tokens

/-- What a token adds to the count: a comma outside of all brackets parts two items. -/
def counts (depths : Depths) (token : Token) : Nat :=
  if depths = ⟨0, 0⟩ ∧ token.kind = .comma then 1 else 0

/-- What a selection goes on with behind a token that adds nothing. -/
theorem elim_of_quiet {depths : Depths} {token : Token}
    (quiet : ¬(depths = ⟨0, 0⟩ ∧ token.kind = .comma)) (inner : Depths) (rest : List Token) :
    ((some inner).elim 0 fun inner => depths.counts token + inner.commas rest) =
      inner.commas rest := by
  rw [Option.elim_some, counts, if_neg quiet, Nat.zero_add]

/-- Outside of all parentheses the selection goes on behind a token that does not end it. -/
theorem commas_outside {depths : Depths} {token : Token} (going : token.kind ≠ .eof)
    (noParen : token.kind ≠ .lparen ∧ token.kind ≠ .rparen) (outside : ¬0 < depths.parens)
    (rest : List Token) : depths.commas (token :: rest) =
      (depths.nextOutside? token).elim 0 fun inner => depths.counts token + inner.commas rest := by
  rw [commas, selectionCommas, if_neg going, if_neg noParen.1, if_neg noParen.2, if_neg outside,
    nextOutside?]
  by_cases mark : token.kind = .semicolon
  · rw [if_pos mark, if_pos mark]
    rfl
  rw [if_neg mark, if_neg mark]
  by_cases opensCase : token.isKeyword "CASE" = true
  · have noComma : token.kind ≠ .comma := by simp [Token.kind_of_isKeyword opensCase]
    rw [if_pos opensCase, if_pos opensCase, elim_of_quiet fun both => noComma both.2]
    rfl
  rw [if_neg opensCase, if_neg opensCase]
  by_cases inCase : 0 < depths.cases
  · rw [if_pos inCase, if_pos inCase, elim_of_quiet fun both => by simp [both.1] at inCase]
    rfl
  rw [if_neg inCase, if_neg inCase]
  by_cases clause : token.isKeywordOf Keyword.clauses = true
  · rw [if_pos clause, if_pos clause]
    rfl
  rw [if_neg clause, if_neg clause]
  by_cases comma : token.kind = .comma
  · have free : depths = ⟨0, 0⟩ := by
      obtain ⟨parens, cases⟩ := depths
      obtain rfl : parens = 0 := by simpa using outside
      obtain rfl : cases = 0 := by simpa using inCase
      rfl
    rw [if_pos comma, Option.elim_some, counts, if_pos ⟨free, comma⟩]
    rfl
  · rw [if_neg comma, elim_of_quiet fun both => comma both.2]
    rfl

/-- The selection goes on behind a token that does not end it. -/
theorem commas_cons (depths : Depths) (token : Token) (rest : List Token) :
    depths.commas (token :: rest) =
      (depths.next? token).elim 0 fun inner => depths.counts token + inner.commas rest := by
  rw [next?]
  by_cases eof : token.kind = .eof
  · rw [commas, selectionCommas, if_pos eof, if_pos eof]
    rfl
  by_cases opening : token.kind = .lparen
  · rw [commas, selectionCommas, if_neg eof, if_pos opening, if_neg eof, if_pos opening,
      elim_of_quiet (by simp [opening])]
    rfl
  by_cases closing : token.kind = .rparen
  · rw [commas, selectionCommas, if_neg eof, if_neg opening, if_pos closing, if_neg eof,
      if_neg opening, if_pos closing]
    by_cases none : depths.parens = 0
    · rw [if_pos none, if_pos none]
      rfl
    · rw [if_neg none, if_neg none, elim_of_quiet (by simp [closing])]
      rfl
  rw [if_neg eof, if_neg opening, if_neg closing]
  by_cases deep : 0 < depths.parens
  · rw [commas, selectionCommas, if_neg eof, if_neg opening, if_neg closing, if_pos deep, if_pos deep,
      elim_of_quiet fun both => by simp [both.1] at deep]
    rfl
  · rw [if_neg deep, commas_outside eof ⟨opening, closing⟩ deep]

/-- The selection goes on behind tokens that do not end it. -/
theorem commas_append (depths : Depths) (front back : List Token) :
    depths.commas (front ++ back) =
      depths.commas front + (depths.after? front).elim 0 (Depths.commas · back) := by
  induction front generalizing depths with
  | nil => exact (Nat.zero_add _).symm
  | cons token rest ih =>
    rw [List.cons_append, commas_cons, commas_cons, after?, List.foldlM_cons, Option.bind_eq_bind]
    cases depths.next? token with
    | none => rfl
    | some inner =>
      simp only [Option.elim_some, Option.bind_some, ih inner, Nat.add_assoc]
      rfl

/-- A token changes the open parentheses alike within a selection and elsewhere. -/
theorem parens_of_next? {depths inner : Depths} {token : Token}
    (step : depths.next? token = some inner) (rest : List Token) :
    openParens depths.parens (token :: rest) = openParens inner.parens rest := by
  by_cases opening : token.kind = .lparen
  · have same : { depths with parens := depths.parens + 1 } = inner := by
      simpa [next?, opening] using step
    rw [openParens_cons_lparen opening, ← same]
  by_cases closing : token.kind = .rparen
  · have same : { depths with parens := depths.parens - 1 } = inner := by
      simp only [next?, closing, reduceCtorEq, if_false, if_true] at step
      split at step
      · cases step
      · exact Option.some.inj step
    rw [openParens_cons_rparen closing, ← same]
  · have same : inner.parens = depths.parens := by
      simp only [next?, opening, closing, if_false, nextOutside?] at step
      repeat' split at step
      all_goals cases step
      all_goals rfl
    rw [openParens_cons opening closing, same]

/-- The parentheses that are open behind tokens of a selection are those that they leave open. -/
theorem parens_of_after? {depths inner : Depths} {tokens : List Token}
    (going : depths.after? tokens = some inner) :
    inner.parens = openParens depths.parens tokens := by
  induction tokens generalizing depths with
  | nil =>
    cases going
    rfl
  | cons token rest ih =>
    rw [after?, List.foldlM_cons, Option.bind_eq_bind] at going
    obtain ⟨next, step, later⟩ := Option.bind_eq_some_iff.1 going
    rw [parens_of_next? step]
    exact ih later

/-- A comma behind the brackets that are open parts items. -/
theorem commas_wayOut (depths : Depths) : depths.commas depths.wayOut = 1 := by
  obtain ⟨parens, cases⟩ := depths
  rw [wayOut]
  induction parens with
  | zero =>
    rw [List.replicate_zero, List.nil_append]
    induction cases with
    | zero => decide
    | succ cases ih =>
      have ended : (⟨0, cases + 1⟩ : Depths).next?
          ⟨.keyword, "END", "end", ⟨.first, .first⟩⟩ = some ⟨0, cases⟩ := rfl
      rw [List.replicate_succ, List.cons_append, commas_cons, ended, elim_of_quiet (by simp), ih]
  | succ parens ih =>
    have closed : (⟨parens + 1, cases⟩ : Depths).next?
        ⟨.rparen, ")", ")", ⟨.first, .first⟩⟩ = some ⟨parens, cases⟩ := rfl
    rw [List.replicate_succ, List.cons_append, commas_cons, closed, elim_of_quiet (by simp), ih]

end Depths

/-- Whether a selection ends among the tokens behind its SELECT. -/
def SelectionEnds (tokens : List Token) : Prop :=
  (⟨0, 0⟩ : Depths).after? tokens = none

/-- Whether a selection ends among tokens can be decided. -/
instance (tokens : List Token) : Decidable (SelectionEnds tokens) :=
  inferInstanceAs (Decidable ((⟨0, 0⟩ : Depths).after? tokens = none))

/-! ## At a semicolon -/

section Mark

variable {mark : Token} (isMark : mark.kind = .semicolon) (front : List Token)

include isMark

/-- What is behind a semicolon does not matter for the arguments of a call exactly when the call is
closed before it. -/
theorem argumentCount_stops_iff :
    (∀ back other, argumentCount (front ++ mark :: back) = argumentCount (front ++ mark :: other)) ↔
      ClosesAll 1 front := by
  constructor
  · intro stops
    by_contra going
    obtain ⟨deeper, counted⟩ := argumentCommas_open going
    have passes (back : List Token) :
        argumentCommas deeper (mark :: back) = argumentCommas deeper back := by
      rw [argumentCommas_cons (by simp [isMark]) (by simp [isMark]), isMark, if_neg (by simp),
        Nat.zero_add]
    have none : argumentCommas deeper [] = 0 := rfl
    have same := stops [] (Depths.wayOut ⟨deeper, 0⟩)
    rw [argumentCount, argumentCount, counted, counted, passes, passes, none,
      argumentCommas_wayOut] at same
    omega
  · intro closed back other
    rw [argumentCount, argumentCommas_closed closed, argumentCount, argumentCommas_closed closed]

/-- What is behind a semicolon does not matter for a selection exactly when no parenthesis is open at the
semicolon or the selection has ended before it. -/
theorem selectionCount_stops_iff :
    (∀ back other, selectionCount (front ++ mark :: back) = selectionCount (front ++ mark :: other)) ↔
      openParens 0 front = 0 ∨ SelectionEnds front := by
  have counted (back : List Token) : selectionCount (front ++ mark :: back) =
      (⟨0, 0⟩ : Depths).commas front +
        ((⟨0, 0⟩ : Depths).after? front).elim 0 (Depths.commas · (mark :: back)) + 1 :=
    congrArg (· + 1) (Depths.commas_append ⟨0, 0⟩ front (mark :: back))
  unfold SelectionEnds
  cases reached : (⟨0, 0⟩ : Depths).after? front with
  | none =>
    refine ⟨fun _ => Or.inr rfl, fun _ back other => ?_⟩
    rw [counted, counted, reached]
    rfl
  | some inner =>
    have parens : inner.parens = openParens 0 front := Depths.parens_of_after? reached
    have atMark : inner.next? mark = if 0 < inner.parens then some inner else none := by
      simp [Depths.next?, Depths.nextOutside?, isMark]
    constructor
    · intro stops
      by_contra going
      have deep : 0 < inner.parens := by
        rw [parens]
        exact Nat.pos_of_ne_zero fun closed => going (Or.inl closed)
      have passes (back : List Token) : inner.commas (mark :: back) = inner.commas back := by
        rw [Depths.commas_cons, atMark, if_pos deep, Depths.elim_of_quiet (by simp [isMark])]
      have none : inner.commas [] = 0 := rfl
      have same := stops [] inner.wayOut
      rw [counted, counted, reached, Option.elim_some, Option.elim_some, passes, passes, none,
        Depths.commas_wayOut] at same
      omega
    · rintro (closed | nothing) back other
      · have flat : ¬0 < inner.parens := by omega
        have ends (back : List Token) : inner.commas (mark :: back) = 0 := by
          rw [Depths.commas_cons, atMark, if_neg flat]
          rfl
        rw [counted, counted, reached, Option.elim_some, Option.elim_some, ends, ends]
      · cases nothing

end Mark

/-- A look ahead stops at a semicolon exactly when its list ends there or before: the arguments of a call
do so if the call is closed before the semicolon, and a selection does so if no parenthesis is open at
the semicolon or a clause, another semicolon, a closing parenthesis or the end of the source ends the
selection before it. -/
theorem counts_stop_iff {mark : Token} (isMark : mark.kind = .semicolon) (front : List Token) :
    ((∀ back other,
        argumentCount (front ++ mark :: back) = argumentCount (front ++ mark :: other)) ↔
      ClosesAll 1 front) ∧
    ((∀ back other,
        selectionCount (front ++ mark :: back) = selectionCount (front ++ mark :: other)) ↔
      openParens 0 front = 0 ∨ SelectionEnds front) :=
  ⟨argumentCount_stops_iff isMark front, selectionCount_stops_iff isMark front⟩

/-- Both looks ahead reach over a semicolon inside of a call that is left open. -/
theorem counts_reach_over_semicolon :
    (¬∀ back other,
      argumentCount ((tokenize "a, f(b").dropLast ++ ⟨.semicolon, ";", ";", ⟨.first, .first⟩⟩ :: back) =
        argumentCount ((tokenize "a, f(b").dropLast ++
          ⟨.semicolon, ";", ";", ⟨.first, .first⟩⟩ :: other)) ∧
    ¬∀ back other,
      selectionCount ((tokenize "a, f(b").dropLast ++
          ⟨.semicolon, ";", ";", ⟨.first, .first⟩⟩ :: back) =
        selectionCount ((tokenize "a, f(b").dropLast ++
          ⟨.semicolon, ";", ";", ⟨.first, .first⟩⟩ :: other) := by
  obtain ⟨arguments, selection⟩ :=
    @counts_stop_iff ⟨.semicolon, ";", ";", ⟨.first, .first⟩⟩ rfl (tokenize "a, f(b").dropLast
  exact ⟨fun stops => absurd (arguments.1 stops) (by decide +kernel),
    fun stops => absurd (selection.1 stops) (by decide +kernel)⟩

end SqlLayout
