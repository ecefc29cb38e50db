import SqlLayout.Proofs.BodyText

/-!
# Bodies of a source

The bare bodies that are fused in a token list, each with whether a semicolon follows it
(`fusedBodies`), and the tokens that a layout writes, each with whether it was made from a body
(`markedWritten`).
-/

namespace SqlLayout

open Text

/-! ## Bodies of a token list -/

/-- The tokens of a list with its bare bodies fused, each with whether it was made from a body. -/
def markBodies : List Token → List (Token × Bool)
  | [] => []
  | token :: rest =>
    match _found : bodyAt? token rest with
    | some (header, body, after) =>
      header.map (·, false) ++ (bodyToken body).toList.map (·, true) ++ markBodies after
    | none => (token, false) :: markBodies rest
termination_by tokens => tokens.length
decreasing_by
  · exact Nat.lt_succ_of_le (length_le_of_bodyAt? _found)
  · exact Nat.lt_succ_self _

/-- The texts of the tokens that were made from bodies, each with whether a semicolon follows. -/
def madeTexts : List (Token × Bool) → List (String × Bool)
  | [] => []
  | (token, made) :: rest =>
    if made then
      (token.value, rest.head?.any fun next => next.1.kind == .semicolon) :: madeTexts rest
    else madeTexts rest

/-- The texts of the bare bodies that are fused in a token list, in order, each with whether a
semicolon follows it. -/
def fusedBodies (tokens : List Token) : List (String × Bool) :=
  madeTexts (markBodies tokens)

/-- A list starts with the tokens of a header and a body. -/
theorem markBodies_cons_some {token : Token} {rest header body after : List Token}
    (found : bodyAt? token rest = some (header, body, after)) :
    markBodies (token :: rest) =
      header.map (·, false) ++ (bodyToken body).toList.map (·, true) ++ markBodies after := by
  rw [markBodies]
  split
  · rename_i same
    rw [found] at same
    cases same
    rfl
  · rename_i none
    rw [found] at none
    cases none

/-- A token that starts no routine is not made from a body. -/
theorem markBodies_cons_none {token : Token} {rest : List Token}
    (found : bodyAt? token rest = none) :
    markBodies (token :: rest) = (token, false) :: markBodies rest := by
  rw [markBodies]
  split
  · rename_i same
    rw [found] at same
    cases same
  · rfl

/-- The marked tokens are those of the list with its bodies fused. -/
theorem fst_markBodies (tokens : List Token) :
    (markBodies tokens).map Prod.fst = fuseBodies tokens := by
  have unmark (made : Bool) (tokens : List Token) : (tokens.map (·, made)).map Prod.fst = tokens := by
    rw [List.map_map]
    exact List.map_id tokens
  fun_induction markBodies tokens with
  | case1 => rw [fuseBodies]; rfl
  | case2 token rest header body after found ih =>
    rw [fuseBodies_cons_some found, List.map_append, List.map_append, unmark, unmark, ih]
  | case3 token rest found ih => rw [fuseBodies_cons_none found, List.map_cons, ih]

/-- The first token is marked first. -/
theorem head?_markBodies (tokens : List Token) :
    (markBodies tokens).head? = tokens.head?.map (·, false) := by
  cases tokens with
  | nil => rw [markBodies]; rfl
  | cons token rest =>
    cases found : bodyAt? token rest with
    | none => rw [markBodies_cons_none found]; rfl
    | some pair =>
      obtain ⟨header, body, after⟩ := pair
      obtain ⟨before, name, between, mark, -, rfl, -⟩ := bodyAt?_eq_some found
      rw [markBodies_cons_some found]
      rfl

/-- Tokens that are not made from bodies have no texts of bodies. -/
theorem madeTexts_append (tokens : List Token) (rest : List (Token × Bool)) :
    madeTexts (tokens.map (·, false) ++ rest) = madeTexts rest := by
  induction tokens with
  | nil => rfl
  | cons token tokens ih => exact ih

/-- Whether the next token is a semicolon. -/
def semicolonAt (tokens : List Token) : Bool :=
  tokens.head?.any fun next => next.kind == .semicolon

/-- A routine adds its body, unless it is blank. -/
theorem fusedBodies_cons_some {token : Token} {rest header body after : List Token}
    (found : bodyAt? token rest = some (header, body, after)) :
    fusedBodies (token :: rest) =
      (bodyToken body).toList.map (fun made => (made.value, semicolonAt after)) ++
        fusedBodies after := by
  rw [fusedBodies, markBodies_cons_some found, List.append_assoc, madeTexts_append]
  cases bodyToken body with
  | none => rfl
  | some made =>
    have next : ((markBodies after).head?.any fun next => next.1.kind == .semicolon) =
        semicolonAt after := by
      rw [head?_markBodies, Option.any_map]
      rfl
    simp only [Option.toList_some, List.map_cons, List.map_nil, List.singleton_append, madeTexts,
      if_true, next]
    rfl

/-- Any other token adds no body. -/
theorem fusedBodies_cons_none {token : Token} {rest : List Token}
    (found : bodyAt? token rest = none) : fusedBodies (token :: rest) = fusedBodies rest := by
  rw [fusedBodies, markBodies_cons_none found]
  rfl

/-- Only a `LANGUAGE` starts a routine. -/
theorem bodyAt?_eq_none {token : Token} (other : token.isKeyword "LANGUAGE" = false)
    (rest : List Token) : bodyAt? token rest = none := by
  rw [bodyAt?, other]
  rfl

/-- Layout is no keyword. -/
theorem isKeyword_of_isLayout {token : Token} (layout : token.isLayout = true) (word : String) :
    token.isKeyword word = false := by
  rcases kind_of_isLayout layout with kind | kind <;> rw [Token.isKeyword, kind] <;> rfl

/-- Layout before a list adds no body. -/
theorem fusedBodies_layout {layout : List Token} (isLayout : ∀ gap ∈ layout, gap.isLayout = true)
    (rest : List Token) : fusedBodies (layout ++ rest) = fusedBodies rest := by
  induction layout with
  | nil => rfl
  | cons gap layout ih =>
    have other := isKeyword_of_isLayout (isLayout gap List.mem_cons_self) "LANGUAGE"
    rw [List.cons_append, fusedBodies_cons_none (bodyAt?_eq_none other _),
      ih fun gap member => isLayout gap (List.mem_cons_of_mem _ member)]

/-- A list without headers of bare bodies has no bodies. -/
theorem fusedBodies_eq_nil {tokens : List Token} (none : hasRoutine (significant tokens) = false) :
    fusedBodies tokens = [] := by
  induction tokens with
  | nil => rw [fusedBodies, markBodies]; rfl
  | cons token rest ih =>
    cases layout : token.isLayout with
    | true =>
      rw [significant_cons_layout layout] at none
      have other := isKeyword_of_isLayout layout "LANGUAGE"
      rw [fusedBodies_cons_none (bodyAt?_eq_none other _), ih none]
    | false =>
      rw [significant_cons layout, hasRoutine, Bool.or_eq_false_iff] at none
      have starts := isSome_bodyAt? token rest
      rw [none.1] at starts
      rw [fusedBodies_cons_none (Option.not_isSome_iff_eq_none.1 (by simp [starts])), ih none.2]

/-- The bodies of a list are the same wherever the tokens stand. -/
theorem fusedBodies_unplaced (tokens : List Token) :
    fusedBodies (tokens.map Token.unplaced) = fusedBodies tokens := by
  fun_induction markBodies tokens with
  | case1 => rfl
  | case2 token rest header body after found ih =>
    have again := faithful_unplaced.bodyAt?_map token rest
    rw [found, Option.map_some] at again
    have next : semicolonAt (after.map Token.unplaced) = semicolonAt after := by
      rw [semicolonAt, List.head?_map, Option.any_map]
      rfl
    rw [List.map_cons, fusedBodies_cons_some again, fusedBodies_cons_some found, ih, next,
      bodyToken_unplaced]
    cases bodyToken body <;> rfl
  | case3 token rest found ih =>
    have again := faithful_unplaced.bodyAt?_map token rest
    rw [found, Option.map_none] at again
    rw [List.map_cons, fusedBodies_cons_none again, fusedBodies_cons_none found, ih]

/-! ## Tokens that are written -/

/-- The tokens that a layout writes, each with whether it was made from a body. -/
def markedWritten (tokens : List Token) : List (Token × Bool) :=
  ((markBodies tokens).takeWhile fun entry => entry.1.kind != .eof).filter
    fun entry => !entry.1.isLayout

/-- The marked tokens that are written are those of the list with its bodies fused. -/
theorem fst_markedWritten (tokens : List Token) :
    (markedWritten tokens).map Prod.fst = written (fuseBodies tokens) := by
  rw [← fst_markBodies, written, List.takeWhile_map, List.filter_map]
  rfl

/-- Layout is not written. -/
theorem markedWritten_cons_layout {token : Token} (layout : token.isLayout = true)
    (rest : List Token) : markedWritten (token :: rest) = markedWritten rest := by
  have other := isKeyword_of_isLayout layout "LANGUAGE"
  have going := kind_ne_eof_of_isLayout layout
  rw [markedWritten, markBodies_cons_none (bodyAt?_eq_none other _),
    List.takeWhile_cons_of_pos (by simpa using going), List.filter_cons_of_neg (by simp [layout])]
  rfl

/-- Nothing is written from the end on. -/
theorem markedWritten_cons_eof {token : Token} (isEnd : token.kind = .eof) (rest : List Token) :
    markedWritten (token :: rest) = [] := by
  have other : token.isKeyword "LANGUAGE" = false := by rw [Token.isKeyword, isEnd]; rfl
  rw [markedWritten, markBodies_cons_none (bodyAt?_eq_none other _),
    List.takeWhile_cons_of_neg (by simp [isEnd])]
  rfl

/-- Any other token that starts no routine is written before the tokens behind it. -/
theorem markedWritten_cons_none {token : Token} {rest : List Token} (visible : token.isLayout = false)
    (going : token.kind ≠ .eof) (found : bodyAt? token rest = none) :
    markedWritten (token :: rest) = (token, false) :: markedWritten rest := by
  rw [markedWritten, markBodies_cons_none found, List.takeWhile_cons_of_pos (by simpa using going),
    List.filter_cons_of_pos (by simp [visible])]
  rfl

/-- A semicolon is written before the tokens behind it. -/
theorem markedWritten_cons_semicolon {token : Token} (semicolon : token.kind = .semicolon)
    (rest : List Token) : markedWritten (token :: rest) = (token, false) :: markedWritten rest := by
  have other : token.isKeyword "LANGUAGE" = false := by rw [Token.isKeyword, semicolon]; rfl
  exact markedWritten_cons_none (by rw [Token.isLayout, semicolon]; rfl)
    (by rw [semicolon]; decide) (bodyAt?_eq_none other rest)

/-- A routine is written as its header and its body, unless the body is blank. -/
theorem markedWritten_cons_some {token : Token} {rest header body after : List Token}
    (found : bodyAt? token rest = some (header, body, after)) :
    markedWritten (token :: rest) = (significant header).map (·, false) ++
      ((bodyToken body).toList.map (·, true) ++ markedWritten after) := by
  have going : ∀ entry ∈ header.map (·, false) ++ (bodyToken body).toList.map (·, true),
      (entry.1.kind != .eof) = true := by
    intro entry member
    rcases List.mem_append.1 member with inHeader | made
    · obtain ⟨part, inside, rfl⟩ := List.mem_map.1 inHeader
      simpa using kind_of_mem_header found part (List.mem_append_left _ inside)
    · obtain ⟨part, inside, rfl⟩ := List.mem_map.1 made
      obtain ⟨_, _, _, _, rfl⟩ := bodyToken_eq_some (Option.mem_toList.1 inside)
      rfl
  have kept : ((bodyToken body).toList.map (·, true)).filter (fun entry => !entry.1.isLayout) =
      (bodyToken body).toList.map (·, true) := by
    refine List.filter_eq_self.2 fun entry member => ?_
    obtain ⟨part, inside, rfl⟩ := List.mem_map.1 member
    obtain ⟨_, _, _, _, rfl⟩ := bodyToken_eq_some (Option.mem_toList.1 inside)
    rfl
  have visible : (header.map (·, false)).filter (fun entry => !entry.1.isLayout) =
      (significant header).map (·, false) := by
    rw [List.filter_map]
    rfl
  rw [markedWritten, markBodies_cons_some found, List.takeWhile_append_of_pos going,
    List.filter_append, List.filter_append, kept, visible, List.append_assoc]
  rfl

/-- The first three tokens that are written are not made from bodies, since a header comes first. -/
theorem take_markedWritten (tokens : List Token) :
    (markedWritten tokens).take 3 = ((written tokens).take 3).map (·, false) := by
  fun_induction markBodies tokens with
  | case1 => rw [markedWritten, markBodies]; rfl
  | case2 token rest header body after found ih =>
    obtain ⟨before, name, between, mark, isHeader, same, -⟩ := bodyAt?_eq_some found
    have going : ∀ part ∈ header, part.kind ≠ .eof := fun part inside =>
      kind_of_mem_header found part (List.mem_append_left _ inside)
    rw [markedWritten_cons_some found, bodyAt?_split found, List.append_assoc, written_append going,
      same, isHeader.significant_eq]
    rfl
  | case3 token rest found ih =>
    cases layout : token.isLayout with
    | true => rw [markedWritten_cons_layout layout, written_cons_layout layout, ih]
    | false =>
      by_cases isEnd : token.kind = .eof
      · rw [markedWritten_cons_eof isEnd, written_cons_eof isEnd]
        rfl
      · rw [markedWritten_cons_none layout isEnd found, written_cons layout isEnd]
        have shorter := congrArg (List.take 2) ih
        rw [List.take_take, ← List.map_take, List.take_take] at shorter
        rw [List.take_succ_cons, List.take_succ_cons, List.map_cons]
        exact congrArg _ shorter

/-- The first token that is written is not made from a body. -/
theorem head?_markedWritten (tokens : List Token) :
    (markedWritten tokens).head? = (written tokens).head?.map (·, false) := by
  have first := congrArg List.head? (take_markedWritten tokens)
  rwa [List.head?_take, List.head?_map, List.head?_take] at first

/-! ## Suffixes of a source -/

/-- A statement ends at a semicolon or at the end of the source. -/
theorem Kind.eq_semicolon {kind : Kind} (ends : kind.endsStatement = true) (going : kind ≠ .eof) :
    kind = .semicolon := by
  cases kind with
  | semicolon => rfl
  | eof => exact absurd rfl going
  | _ => cases ends

section Suffix

variable {source : List Char} {token : Token} {rest : List Token}

/-- A token of a source before the end is one of its lexemes. -/
theorem mem_lexemes_of_suffix {tokens : List Token}
    (suffix : tokens <:+ lexemes source ++ [endToken]) (member : token ∈ tokens)
    (going : token.kind ≠ .eof) : token ∈ lexemes source := by
  rcases List.mem_append.1 (suffix.subset member) with inside | isEnd
  · exact inside
  · rw [List.mem_singleton.1 isEnd] at going
    exact absurd rfl going

/-- The tokens of a source from one on before the end are lexemes and the end. -/
theorem split_of_suffix (suffix : token :: rest <:+ lexemes source ++ [endToken])
    (going : token.kind ≠ .eof) : ∃ before behind,
      rest = behind ++ [endToken] ∧ lexemes source = before ++ token :: behind := by
  obtain ⟨before, split⟩ := suffix
  rcases List.eq_nil_or_concat' rest with rfl | ⟨behind, last, rfl⟩
  · have same := List.append_inj_right' split rfl
    rw [(List.cons.inj same).1] at going
    exact absurd rfl going
  · rw [← List.cons_append, ← List.append_assoc] at split
    have same := List.append_inj_right' split rfl
    have whole := List.append_inj_left' split rfl
    rw [(List.cons.inj same).1]
    exact ⟨before, behind, rfl, whole.symm⟩

/-- Nothing is behind the end of a source. -/
theorem eq_nil_of_suffix (suffix : token :: rest <:+ lexemes source ++ [endToken])
    (isEnd : token.kind = .eof) : rest = [] := by
  obtain ⟨before, split⟩ := suffix
  rcases List.eq_nil_or_concat' rest with rfl | ⟨behind, last, rfl⟩
  · rfl
  · rw [← List.cons_append, ← List.append_assoc] at split
    have inside : token ∈ lexemes source := by
      rw [← List.append_inj_left' split rfl]
      exact List.mem_append_right _ List.mem_cons_self
    obtain ⟨_, read⟩ := readBefore_of_mem inside
    exact absurd isEnd read.kind_ne_eof

/-- A token of a source before the end is read before the tokens behind it. -/
theorem readBefore_of_suffix (suffix : token :: rest <:+ lexemes source ++ [endToken])
    (going : token.kind ≠ .eof) : token.ReadBefore (rawText rest) := by
  obtain ⟨before, behind, rfl, split⟩ := split_of_suffix suffix going
  have none : rawText [endToken] = [] := rfl
  rw [rawText_append, none, List.append_nil]
  exact readBefore_of_split split

/-- A token that is neither layout nor the end has a text. -/
theorem rawText_ne_nil_of_suffix (suffix : rest <:+ lexemes source ++ [endToken])
    (member : token ∈ rest) (visible : token.isLayout = false) (going : token.kind ≠ .eof) :
    rawText rest ≠ [] := by
  obtain ⟨behind, read⟩ := readBefore_of_mem (mem_lexemes_of_suffix suffix member going)
  obtain ⟨c, tail, spelled, -⟩ := read.first visible
  intro none
  have empty := List.flatMap_eq_nil_iff.1 none token member
  rw [spelled] at empty
  cases empty

/-- The tokens behind a routine are a suffix of the source. -/
theorem suffix_after {header body after : List Token}
    (found : bodyAt? token rest = some (header, body, after))
    (suffix : token :: rest <:+ lexemes source ++ [endToken]) :
    after <:+ lexemes source ++ [endToken] := by
  rw [bodyAt?_split found] at suffix
  exact (List.suffix_append _ after).trans suffix

/-- The significant tokens of a source from one on are those that are written and the end. -/
theorem significant_of_suffix (suffix : token :: rest <:+ lexemes source ++ [endToken])
    (going : token.kind ≠ .eof) :
    ∃ last, last.kind = .eof ∧ significant rest = written rest ++ [last] := by
  obtain ⟨before, behind, rfl, split⟩ := split_of_suffix suffix going
  have closed : Closed (behind ++ [endToken]) := by
    refine (Closed.append_iff fun part member => ?_).2 (Closed.last rfl)
    have inside : part ∈ lexemes source := by
      rw [split]
      exact List.mem_append_right _ (List.mem_cons_of_mem _ member)
    obtain ⟨_, read⟩ := readBefore_of_mem inside
    exact read.kind_ne_eof
  exact closed.significant_eq

/-- Behind a body there is the end of the source, or a semicolon. -/
theorem after_cases {header body after : List Token}
    (found : bodyAt? token rest = some (header, body, after))
    (suffix : token :: rest <:+ lexemes source ++ [endToken]) :
    after = [endToken] ∨ ∃ semicolon more, after = semicolon :: more ∧
      semicolon.kind = .semicolon := by
  obtain ⟨_, _, _, _, isHeader, -, -, -, ends⟩ := bodyAt?_eq_some found
  have keyword := Token.kind_of_isKeyword isHeader.language
  have inside : endToken ∈ after := by
    obtain ⟨before, behind, split, -⟩ := split_of_suffix suffix (by rw [keyword]; decide)
    have member : endToken ∈ token :: rest := by
      rw [split]
      simp
    rw [bodyAt?_split found] at member
    refine (List.mem_append.1 member).resolve_left fun inHeader => ?_
    exact kind_of_mem_header found endToken inHeader rfl
  have later := suffix_after found suffix
  cases after with
  | nil => cases inside
  | cons next more =>
    by_cases isEnd : next.kind = .eof
    · rw [eq_nil_of_suffix later isEnd] at inside ⊢
      exact Or.inl (congrArg ([·]) (List.mem_singleton.1 inside).symm)
    · exact Or.inr ⟨next, more, rfl, Kind.eq_semicolon (ends next rfl) isEnd⟩

/-- Behind a body a semicolon is written, or nothing. -/
theorem semicolon_of_written_after {header body after : List Token}
    (found : bodyAt? token rest = some (header, body, after))
    (suffix : token :: rest <:+ lexemes source ++ [endToken]) :
    ∀ next ∈ ((markedWritten after).map Prod.fst).head?, next.kind = .semicolon := by
  intro next first
  rcases after_cases found suffix with rfl | ⟨semicolon, more, rfl, kind⟩
  · rw [markedWritten_cons_eof rfl] at first
    cases first
  · rw [markedWritten_cons_semicolon kind] at first
    rwa [← Option.some.inj first]

end Suffix

end SqlLayout
