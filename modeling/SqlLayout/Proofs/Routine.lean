import SqlLayout.Proofs.Fusion

/-!
# Routines given as bare text

A header and its body are a stretch of the tokens (`bodyAt?_split`). Whether a header starts at a token
depends on the next three significant tokens only (`isSome_bodyAt?`), so a token list that fusing
bodies leaves as it is can be told from its significant tokens (`fuseBodies_eq_self_iff`).
-/

namespace SqlLayout

/-- Whether the header of a routine given as bare text starts a list of significant tokens. -/
def startsRoutine : List Token → Bool
  | language :: name :: mark :: first :: _ =>
    language.isKeyword "LANGUAGE" && name.kind.namesLanguage && mark.isKeyword "AS" &&
      !first.kind.isWholeBody
  | _ => false

/-- Whether a list of significant tokens has the header of a routine given as bare text. -/
def hasRoutine : List Token → Bool
  | [] => false
  | token :: rest => startsRoutine (token :: rest) || hasRoutine rest

/-! ## Headers -/

/-- The tokens through the first significant one, if the test accepts it. -/
theorem throughSignificant_eq_some {accepts : Token → Bool} {tokens taken after : List Token}
    (h : throughSignificant accepts tokens = some (taken, after)) :
    ∃ layout token, taken = layout ++ [token] ∧ tokens = taken ++ after ∧
      (∀ gap ∈ layout, gap.isLayout = true) ∧ token.isLayout = false ∧ accepts token = true := by
  unfold throughSignificant at h
  split at h
  · cases h
  rename_i token rest front
  split at h
  · rename_i accepted
    cases h
    refine ⟨_, token, rfl, ?_, fun gap member => List.mem_takeWhile_imp member,
      isLayout_of_skipLayout front, accepted⟩
    rw [List.append_assoc, List.singleton_append, ← front, skipLayout,
      List.takeWhile_append_dropWhile]
  · cases h

/-- The first significant token is missing or refused, or it is accepted. -/
theorem throughSignificant_cases (accepts : Token → Bool) (tokens : List Token) :
    (throughSignificant accepts tokens = none ∧
      ∀ token rest, significant tokens = token :: rest → accepts token = false) ∨
    ∃ taken token after, throughSignificant accepts tokens = some (taken, after) ∧
      significant tokens = token :: significant after ∧ accepts token = true := by
  unfold throughSignificant
  cases h : skipLayout tokens with
  | nil =>
    refine Or.inl ⟨rfl, fun token rest shape => ?_⟩
    rw [← significant_skipLayout, h] at shape
    cases shape
  | cons token rest =>
    have shape := significant_of_skipLayout h
    dsimp only
    cases accepted : accepts token with
    | true => exact Or.inr ⟨_, token, rest, if_pos rfl, shape, accepted⟩
    | false =>
      refine Or.inl ⟨if_neg (by simp), fun other behind same => ?_⟩
      rw [shape, List.cons.injEq] at same
      rw [← same.1, accepted]

/-- The stretch of tokens that is a header. -/
theorem languageHeader?_eq_some {tokens header after : List Token}
    (h : languageHeader? tokens = some (header, after)) :
    ∃ before name between mark first, header = before ++ name :: (between ++ [mark]) ∧
      tokens = header ++ after ∧ (∀ gap ∈ before, gap.isLayout = true) ∧
      (∀ gap ∈ between, gap.isLayout = true) ∧ name.isLayout = false ∧
      name.kind.namesLanguage = true ∧ mark.isKeyword "AS" = true ∧
      (significant after).head? = some first ∧ first.kind.isWholeBody = false := by
  simp only [languageHeader?, Option.bind_eq_bind, Option.bind_eq_some_iff] at h
  obtain ⟨⟨_, afterName⟩, named, ⟨_, afterMark⟩, marked, first, next, whole⟩ := h
  obtain ⟨before, name, rfl, rfl, blank, visible, names⟩ := throughSignificant_eq_some named
  obtain ⟨between, mark, rfl, rfl, blankToo, -, isMark⟩ := throughSignificant_eq_some marked
  split at whole
  · cases whole
  · rename_i bare
    cases whole
    refine ⟨before, name, between, mark, first, by simp, by simp, blank, blankToo, visible, names,
      isMark, ?_, by simpa using bare⟩
    rw [← nextSignificant_eq, next]

/-- Whether a header follows depends on three significant tokens. -/
theorem isSome_languageHeader? (tokens : List Token) :
    (languageHeader? tokens).isSome =
      match significant tokens with
      | name :: mark :: first :: _ =>
        name.kind.namesLanguage && mark.isKeyword "AS" && !first.kind.isWholeBody
      | _ => false := by
  unfold languageHeader?
  rcases throughSignificant_cases (·.kind.namesLanguage) tokens with
    ⟨missing, refused⟩ | ⟨taken, name, afterName, found, shape, names⟩
  · rw [missing]
    split
    · rename_i shape
      simp [refused _ _ shape]
    · rfl
  rw [found, shape]
  rcases throughSignificant_cases (Token.isKeyword "AS") afterName with
    ⟨missing, refused⟩ | ⟨taken, mark, afterMark, found, shape, isMark⟩
  · simp only [Option.bind_eq_bind, Option.bind_some, missing]
    split
    · rename_i shape
      simp [refused _ _ (List.cons.inj shape).2]
    · rfl
  · simp only [Option.bind_eq_bind, Option.bind_some, found, nextSignificant_eq, shape]
    cases significant afterMark with
    | nil => rfl
    | cons first rest => cases whole : first.kind.isWholeBody <;> simp [whole, names, isMark]

/-! ## Headers with their bodies -/

/-- Whether a header starts at a token depends on the next three significant tokens. -/
theorem isSome_bodyAt? (token : Token) (rest : List Token) :
    (bodyAt? token rest).isSome = startsRoutine (token :: significant rest) := by
  unfold bodyAt?
  cases language : token.isKeyword "LANGUAGE" with
  | false =>
    rcases significant rest with - | ⟨name, - | ⟨mark, - | ⟨first, behind⟩⟩⟩
    · rfl
    · rfl
    · rfl
    · simp [startsRoutine, language]
  | true =>
    have header := isSome_languageHeader? rest
    simp only [if_true, Option.isSome_map, header]
    rcases significant rest with - | ⟨name, - | ⟨mark, - | ⟨first, behind⟩⟩⟩
    · rfl
    · rfl
    · rfl
    · simp [startsRoutine, language]

/-- Layout ends no statement. -/
theorem endsStatement_of_isLayout {token : Token} (layout : token.isLayout = true) :
    token.kind.endsStatement = false := by
  rcases kind_of_isLayout layout with kind | kind <;> rw [kind] <;> rfl

/-- The end of the source is no layout. -/
theorem kind_ne_eof_of_isLayout {token : Token} (layout : token.isLayout = true) :
    token.kind ≠ .eof := by
  rcases kind_of_isLayout layout with kind | kind <;> rw [kind] <;> decide

/-- Whether tokens are the header of a routine. -/
structure IsHeader (language : Token) (before : List Token) (name : Token) (between : List Token)
    (mark : Token) : Prop where
  /-- The header starts with `LANGUAGE`. -/
  language : language.isKeyword "LANGUAGE" = true
  /-- Only layout stands before the name. -/
  before : ∀ gap ∈ before, gap.isLayout = true
  /-- A word names the language. -/
  names : name.kind.namesLanguage = true
  /-- Only layout stands behind the name. -/
  between : ∀ gap ∈ between, gap.isLayout = true
  /-- The header ends with `AS`. -/
  mark : mark.isKeyword "AS" = true

namespace IsHeader

variable {language name mark : Token} {before between : List Token}
  (header : IsHeader language before name between mark)

include header

/-- The name is significant. -/
theorem visible : name.isLayout = false := by
  have names := header.names
  rw [Token.isLayout]
  cases kind : name.kind <;> rw [kind] at names <;> first | rfl | cases names

/-- A header has three significant tokens. -/
theorem significant_eq :
    significant (language :: (before ++ name :: (between ++ [mark]))) = [language, name, mark] := by
  have visibleLanguage := Token.isLayout_of_keyword (Token.kind_of_isKeyword header.language)
  have visibleMark := Token.isLayout_of_keyword (Token.kind_of_isKeyword header.mark)
  rw [significant_cons visibleLanguage, significant_append, significant_eq_nil header.before,
    significant_cons header.visible, significant_append, significant_eq_nil header.between,
    significant_cons visibleMark]
  rfl

end IsHeader

/-- The stretch of tokens that is a header with its body, and what is behind it. -/
theorem bodyAt?_eq_some {token : Token} {rest header body after : List Token}
    (h : bodyAt? token rest = some (header, body, after)) :
    ∃ before name between mark, IsHeader token before name between mark ∧
      header = token :: (before ++ name :: (between ++ [mark])) ∧
      rest = before ++ name :: (between ++ [mark]) ++ (body ++ after) ∧
      (∀ inside ∈ body, inside.kind.endsStatement = false) ∧
      ∀ next ∈ after.head?, next.kind.endsStatement = true := by
  unfold bodyAt? at h
  split at h
  · rename_i language
    obtain ⟨⟨behind, text⟩, found, same⟩ := Option.map_eq_some_iff.1 h
    cases same
    obtain ⟨before, name, between, mark, -, rfl, rfl, blank, blankToo, -, names, isMark, -, -⟩ :=
      languageHeader?_eq_some found
    refine ⟨before, name, between, mark, ⟨language, blank, names, blankToo, isMark⟩, rfl, ?_,
      fun inside member => ?_, fun next first => ?_⟩
    · rw [List.takeWhile_append_dropWhile]
    · simpa using List.mem_takeWhile_imp member
    · have stopped := List.head?_dropWhile_not (fun token => !token.kind.endsStatement) text
      rw [Option.mem_def.1 first] at stopped
      simpa using stopped
  · cases h

/-- A header, its body and what is behind them are the tokens from the header on. -/
theorem bodyAt?_split {token : Token} {rest header body after : List Token}
    (h : bodyAt? token rest = some (header, body, after)) :
    token :: rest = header ++ body ++ after := by
  obtain ⟨before, name, between, mark, -, rfl, rfl, -⟩ := bodyAt?_eq_some h
  simp

/-- The first significant token before the end of a statement is the first of all. -/
theorem head?_significant_takeWhile {text : List Token} {first : Token}
    (next : (significant text).head? = some first) (going : first.kind.endsStatement = false) :
    (significant (text.takeWhile (!·.kind.endsStatement))).head? = some first := by
  induction text with
  | nil => cases next
  | cons token rest ih =>
    cases layout : token.isLayout with
    | true =>
      have going' : token.kind.endsStatement = false := by
        unfold Token.isLayout at layout
        cases kind : token.kind <;> rw [kind] at layout <;> first | rfl | cases layout
      rw [significant_cons_layout layout] at next
      rw [List.takeWhile_cons_of_pos (by simp [going']), significant_cons_layout layout, ih next]
    | false =>
      rw [significant_cons layout, List.head?_cons, Option.some.injEq] at next
      subst next
      rw [List.takeWhile_cons_of_pos (by simp [going]), significant_cons layout]
      rfl

/-- A token that ends a statement is a whole body. -/
theorem Kind.endsStatement_of_isWholeBody {kind : Kind} (h : kind.isWholeBody = false) :
    kind.endsStatement = false := by
  cases kind <;> first | rfl | cases h

/-- A body starts with a token that is no whole body, layout aside. -/
theorem bodyAt?_first {token : Token} {rest header body after : List Token}
    (h : bodyAt? token rest = some (header, body, after)) :
    ∃ first, (significant body).head? = some first ∧ first.kind.isWholeBody = false := by
  unfold bodyAt? at h
  split at h
  · obtain ⟨⟨behind, text⟩, found, same⟩ := Option.map_eq_some_iff.1 h
    cases same
    obtain ⟨-, -, -, -, first, -, -, -, -, -, -, -, next, bare⟩ := languageHeader?_eq_some found
    exact ⟨first, head?_significant_takeWhile next (Kind.endsStatement_of_isWholeBody bare), bare⟩
  · cases h

/-- A body has at least one token. -/
theorem bodyAt?_nonempty {token : Token} {rest header body after : List Token}
    (h : bodyAt? token rest = some (header, body, after)) : 0 < body.length := by
  obtain ⟨first, shape, -⟩ := bodyAt?_first h
  refine List.length_pos_iff.2 fun none => ?_
  rw [none] at shape
  cases shape

/-- Whether tokens can be a bare body: none of them ends a statement, and the first significant one is
no whole body. -/
structure Bare (tokens : List Token) : Prop where
  /-- The statement goes on. -/
  going : ∀ token ∈ tokens, token.kind.endsStatement = false
  /-- The first significant token is no whole body. -/
  first : ∃ token, (significant tokens).head? = some token ∧ token.kind.isWholeBody = false

/-- A body is bare. -/
theorem bare_of_bodyAt? {token : Token} {rest header body after : List Token}
    (h : bodyAt? token rest = some (header, body, after)) : Bare body := by
  obtain ⟨-, -, -, -, -, -, -, going, -⟩ := bodyAt?_eq_some h
  exact ⟨going, bodyAt?_first h⟩

/-- A significant token behind layout is found if the test accepts it. -/
theorem throughSignificant_of_layout {accepts : Token → Bool} {layout : List Token} {token : Token}
    (isLayout : ∀ gap ∈ layout, gap.isLayout = true) (visible : token.isLayout = false)
    (accepted : accepts token = true) (rest : List Token) :
    throughSignificant accepts (layout ++ token :: rest) = some (layout ++ [token], rest) := by
  have skipped : skipLayout (layout ++ token :: rest) = token :: rest := by
    rw [skipLayout, List.dropWhile_append_of_pos isLayout,
      List.dropWhile_cons_of_neg (by simp [visible])]
  rw [throughSignificant, skipped]
  simp only [accepted, if_true, List.takeWhile_append_of_pos isLayout,
    List.takeWhile_cons_of_neg (by simp [visible] : ¬token.isLayout = true), List.append_nil]

/-- A header with a bare body behind it starts a routine. -/
theorem bodyAt?_of_bare {language name mark : Token} {before between body after : List Token}
    (header : IsHeader language before name between mark) (bare : Bare body)
    (ended : ∀ next ∈ after.head?, next.kind.endsStatement = true) :
    bodyAt? language (before ++ name :: (between ++ mark :: (body ++ after))) =
      some (language :: (before ++ name :: (between ++ [mark])), body, after) := by
  obtain ⟨first, next, whole⟩ := bare.first
  have visibleMark := Token.isLayout_of_keyword (Token.kind_of_isKeyword header.mark)
  have found : nextSignificant (body ++ after) = some first := by
    rw [nextSignificant_eq, significant_append, List.head?_append, next]
    rfl
  have through : languageHeader? (before ++ name :: (between ++ mark :: (body ++ after))) =
      some (before ++ name :: (between ++ [mark]), body ++ after) := by
    rw [languageHeader?, throughSignificant_of_layout header.before header.visible header.names]
    simp only [Option.bind_eq_bind, Option.bind_some]
    rw [throughSignificant_of_layout header.between visibleMark header.mark]
    simp [found, whole]
  have taken : (body ++ after).takeWhile (!·.kind.endsStatement) = body := by
    rw [List.takeWhile_append_of_pos fun token inside => by simp [bare.going token inside]]
    cases after with
    | nil => simp
    | cons next after => simp [ended next rfl]
  have left : (body ++ after).dropWhile (!·.kind.endsStatement) = after := by
    rw [List.dropWhile_append_of_pos fun token inside => by simp [bare.going token inside]]
    cases after with
    | nil => rfl
    | cons next after => simp [ended next rfl]
  rw [bodyAt?, if_pos header.language, through, Option.map_some]
  simp only [taken, left]

/-- The token that a body becomes. -/
theorem bodyToken_cons (first : Token) (others : List Token) :
    bodyToken (first :: others) =
      if bodyText (first :: others) = "" then none
      else some ⟨.dollarString, bodyText (first :: others), bodyText (first :: others),
        ⟨first.span.start, (others.getLast?.getD first).span.stop⟩⟩ := by
  unfold bodyToken
  rw [List.getLast?_cons, List.head?_cons]

/-- A body that becomes a token is not blank, and the token is verbatim text. -/
theorem bodyToken_eq_some {body : List Token} {token : Token} (made : bodyToken body = some token) :
    ∃ first others, body = first :: others ∧ bodyText body ≠ "" ∧
      token = ⟨.dollarString, bodyText body, bodyText body,
        ⟨first.span.start, (others.getLast?.getD first).span.stop⟩⟩ := by
  cases body with
  | nil => cases made
  | cons first others =>
    rw [bodyToken_cons] at made
    split at made
    · cases made
    · rename_i nonempty
      exact ⟨first, others, rfl, nonempty, (Option.some.inj made).symm⟩

/-- A body is fused with what is behind its header. -/
theorem fuseBodies_cons_some {token : Token} {rest header body after : List Token}
    (found : bodyAt? token rest = some (header, body, after)) :
    fuseBodies (token :: rest) = header ++ (bodyToken body).toList ++ fuseBodies after := by
  rw [fuseBodies]
  split
  · rename_i same
    rw [found] at same
    cases same
    rfl
  · rename_i none
    rw [found] at none
    cases none

/-- A token that starts no header stays. -/
theorem fuseBodies_cons_none {token : Token} {rest : List Token}
    (found : bodyAt? token rest = none) :
    fuseBodies (token :: rest) = token :: fuseBodies rest := by
  rw [fuseBodies]
  split
  · rename_i same
    rw [found] at same
    cases same
  · rfl

/-- A token of the fused list is one of the tokens or was made from a body. -/
theorem mem_fuseBodies {tokens : List Token} {token : Token} (member : token ∈ fuseBodies tokens) :
    token ∈ tokens ∨ ∃ body, bodyToken body = some token := by
  fun_induction fuseBodies tokens with
  | case1 => exact Or.inl member
  | case2 first rest header body after found ih =>
    rw [bodyAt?_split found]
    rcases List.mem_append.1 member with front | later
    · rcases List.mem_append.1 front with inHeader | made
      · exact Or.inl (List.mem_append_left _ (List.mem_append_left _ inHeader))
      · exact Or.inr ⟨body, Option.mem_toList.1 made⟩
    · rcases ih later with inside | made
      · exact Or.inl (List.mem_append_right _ inside)
      · exact Or.inr made
  | case3 first rest found ih =>
    rcases List.mem_cons.1 member with rfl | later
    · exact Or.inl List.mem_cons_self
    · rcases ih later with inside | made
      · exact Or.inl (List.mem_cons_of_mem _ inside)
      · exact Or.inr made

/-- Fusing bodies makes no list longer. -/
theorem length_fuseBodies_le (tokens : List Token) :
    (fuseBodies tokens).length ≤ tokens.length := by
  fun_induction fuseBodies tokens with
  | case1 => exact Nat.le_refl _
  | case2 token rest header body after found ih =>
    have split := congrArg List.length (bodyAt?_split found)
    have nonempty := bodyAt?_nonempty found
    have single : (bodyToken body).toList.length ≤ 1 := by cases bodyToken body <;> simp
    simp only [List.length_append] at split ⊢
    omega
  | case3 token rest found ih => simpa using ih

/-- A body is never the token it is made of. -/
theorem bodyToken_ne {token : Token} {rest header body after : List Token}
    (found : bodyAt? token rest = some (header, body, after)) : (bodyToken body).toList ≠ body := by
  intro same
  obtain ⟨first, shape, bare⟩ := bodyAt?_first found
  cases made : bodyToken body with
  | none =>
    rw [made] at same
    rw [← same] at shape
    cases shape
  | some fused =>
    rw [made] at same
    obtain ⟨_, _, _, _, rfl⟩ := bodyToken_eq_some made
    rw [← same] at shape
    rw [Option.toList_some, significant_cons rfl, List.head?_cons, Option.some.injEq] at shape
    rw [← shape] at bare
    cases bare

/-- Fusing bodies leaves a token list as it is exactly when it has no header before a bare text. -/
theorem fuseBodies_eq_self_iff (tokens : List Token) :
    fuseBodies tokens = tokens ↔ hasRoutine (significant tokens) = false := by
  induction tokens with
  | nil => simp [fuseBodies, significant, hasRoutine]
  | cons token rest ih =>
    have starts := isSome_bodyAt? token rest
    cases found : bodyAt? token rest with
    | some pair =>
      obtain ⟨header, body, after⟩ := pair
      rw [found] at starts
      have split := bodyAt?_split found
      have visible : token.isLayout = false := by
        obtain ⟨_, _, _, _, isHeader, -⟩ := bodyAt?_eq_some found
        exact Token.isLayout_of_keyword (Token.kind_of_isKeyword isHeader.language)
      rw [significant_cons visible, hasRoutine, ← starts, fuseBodies_cons_some found, split]
      simp only [Option.isSome_some, Bool.true_or, Bool.true_eq_false, iff_false]
      intro same
      rw [List.append_assoc, List.append_assoc, List.append_cancel_left_eq] at same
      have shorter := length_fuseBodies_le after
      have sizes := congrArg List.length same
      have single : (bodyToken body).toList.length ≤ 1 := by cases bodyToken body <;> simp
      have nonempty := bodyAt?_nonempty found
      simp only [List.length_append] at sizes
      exact bodyToken_ne found (List.append_inj_left same (by omega))
    | none =>
      rw [found] at starts
      rw [fuseBodies_cons_none found, List.cons.injEq, ih]
      cases layout : token.isLayout with
      | true => rw [significant_cons_layout layout]; simp
      | false => rw [significant_cons layout, hasRoutine, ← starts]; simp

/-! ## The end of the source -/

/-- Whether the end token closes a token list, and stands nowhere else. -/
inductive Closed : List Token → Prop
  /-- The end token alone. -/
  | last {token : Token} (ended : token.kind = .eof) : Closed [token]
  /-- Another token before a closed list. -/
  | cons {token : Token} {rest : List Token} (going : token.kind ≠ .eof) (others : Closed rest) :
    Closed (token :: rest)

namespace Closed

/-- What other tokens stand before does not matter. -/
theorem append_iff {front : List Token} (going : ∀ token ∈ front, token.kind ≠ .eof)
    {back : List Token} : Closed (front ++ back) ↔ Closed back := by
  induction front with
  | nil => rfl
  | cons token front ih =>
    have others := ih fun token member => going token (List.mem_cons_of_mem _ member)
    constructor
    · intro closed
      rw [List.cons_append] at closed
      generalize shape : front ++ back = rest at closed
      cases closed with
      | last ended => exact absurd ended (going token List.mem_cons_self)
      | cons _ closed => rw [← shape] at closed; exact others.1 closed
    · exact fun closed => Closed.cons (going token List.mem_cons_self) (others.2 closed)

end Closed

/-- The end of a source is in no header. -/
theorem kind_of_mem_header {token : Token} {rest header body after : List Token}
    (found : bodyAt? token rest = some (header, body, after)) :
    ∀ part ∈ header ++ body, part.kind ≠ .eof := by
  obtain ⟨before, name, between, mark, isHeader, rfl, -, going, -⟩ := bodyAt?_eq_some found
  have keyword {word : String} {part : Token} (isKeyword : part.isKeyword word = true) :
      part.kind ≠ .eof := by
    rw [Token.kind_of_isKeyword isKeyword]
    decide
  intro part member
  simp only [List.mem_append, List.mem_cons, List.not_mem_nil, or_false] at member
  rcases member with (rfl | early | rfl | late | rfl) | inside
  · exact keyword isHeader.language
  · exact kind_ne_eof_of_isLayout (isHeader.before part early)
  · intro ended
    have names := isHeader.names
    rw [ended] at names
    cases names
  · exact kind_ne_eof_of_isLayout (isHeader.between part late)
  · exact keyword isHeader.mark
  · intro ended
    have open' := going part inside
    rw [ended] at open'
    cases open'

/-- Behind a body of a closed list there is a closed list. -/
theorem Closed.after_body {token : Token} {rest header body after : List Token}
    (found : bodyAt? token rest = some (header, body, after)) (closed : Closed (token :: rest)) :
    Closed after := by
  rw [bodyAt?_split found] at closed
  exact (Closed.append_iff (kind_of_mem_header found)).1 closed

/-- Fusing bodies keeps the end token last. -/
theorem Closed.fuseBodies {tokens : List Token} (closed : Closed tokens) :
    Closed (fuseBodies tokens) := by
  fun_induction SqlLayout.fuseBodies tokens with
  | case1 => exact closed
  | case2 token rest header body after found ih =>
    refine (Closed.append_iff fun part member => ?_).2 (ih (closed.after_body found))
    rcases List.mem_append.1 member with inHeader | made
    · exact kind_of_mem_header found part (List.mem_append_left _ inHeader)
    · obtain ⟨_, _, _, _, rfl⟩ := bodyToken_eq_some (Option.mem_toList.1 made)
      nofun
  | case3 token rest found ih =>
    cases closed with
    | last ended =>
      rw [SqlLayout.fuseBodies]
      exact Closed.last ended
    | cons going others => exact Closed.cons going (ih others)

/-- Fusing keywords keeps the end token last. -/
theorem Closed.fuseKeywords {tokens : List Token} (closed : Closed tokens) :
    Closed (fuseKeywords tokens) := by
  fun_induction SqlLayout.fuseKeywords tokens with
  | case1 => exact closed
  | case2 token rest compound after found ih =>
    obtain ⟨keyword, words, -, parts, spelled, rfl⟩ := compoundAt?_eq_some found
    obtain ⟨taken, rfl, same, -, keywords, -⟩ := phrase?_split spelled
    have going : ∀ part ∈ token :: taken, part.kind ≠ .eof := by
      intro part member ended
      rcases List.mem_cons.1 member with rfl | inside
      · rw [keyword] at ended
        cases ended
      · have visible : part ∈ significant taken := by
          refine List.mem_filter.2 ⟨inside, ?_⟩
          rw [Token.isLayout, ended]
          rfl
        rw [same] at visible
        rw [keywords part visible] at ended
        cases ended
    rw [← List.cons_append] at closed
    exact Closed.cons (fun ended => by cases ended) (ih ((Closed.append_iff going).1 closed))
  | case3 token rest found ih =>
    cases closed with
    | last ended =>
      rw [SqlLayout.fuseKeywords]
      exact Closed.last ended
    | cons going others => exact Closed.cons going (ih others)

end SqlLayout
