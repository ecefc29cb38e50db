import SqlLayout.Proofs.Preservation

/-!
# The text of a body

The text of a body is cut into the tokens that the body has in its source, but for blanks that are
trimmed (`lexemes_bodyText`). So it can be read again between other texts, unless it ends in a
comment: a comment goes on with whatever follows it on its line (`lexemes_comment`).
-/

namespace SqlLayout

open Text State

/-- Tokens before others that have a text have one with them. -/
theorem rawText_append_ne_nil (front : List Token) {back : List Token} (going : rawText back ≠ []) :
    rawText (front ++ back) ≠ [] := by
  rw [rawText_append]
  exact fun none => going (List.append_eq_nil_iff.1 none).2

/-- Tokens before others are read again before any text that starts like the others. -/
theorem lexemes_alike {source : List Char} {front tokens back : List Token}
    (split : lexemes source = front ++ (tokens ++ back)) (nonempty : rawText back ≠ [])
    {other : List Char} (same : other.head? = (rawText back).head?) :
    lexemes (rawText tokens ++ other) = tokens ++ lexemes other := by
  induction tokens generalizing front with
  | nil => rfl
  | cons token tokens ih =>
    have later : lexemes source = (front ++ [token]) ++ (tokens ++ back) := by
      rw [split, List.append_assoc]
      rfl
    obtain ⟨c, tail, made, found⟩ := readBefore_of_split split
    have ended := rawText_append_ne_nil tokens nonempty
    have sameFirst : (rawText tokens ++ other).head? = (rawText (tokens ++ back)).head? := by
      rw [rawText_append, List.head?_append, List.head?_append, same]
    have again := Lexeme.read_alike found ended sameFirst
    have spelled : token.text = c :: tail := by rw [made, Token.text_ofText]
    rw [rawText_cons, spelled, List.append_assoc, List.cons_append, lexemes_of_read again, ← made,
      ih later]
    rfl

/-- Spaces and tabs at the front of a text are one token. -/
theorem lexemes_gap {c : Char} (gap : isGap c = true) (text : List Char) :
    lexemes (c :: text) = Token.ofText .space (c :: text.takeWhile isGap) ::
      lexemes (text.dropWhile isGap) := by
  have read : Lexeme.read c text = ⟨.space, text.takeWhile isGap, text.dropWhile isGap⟩ := by
    simp only [isGap, Bool.or_eq_true, beq_iff_eq] at gap
    rcases gap with rfl | rfl <;> rfl
  rw [lexemes, read]
  rfl

/-- Tokens that are not all blank have a last one that is not blank. -/
theorem exists_last_ink {tokens : List Token} (ink : inked (rawText tokens) ≠ []) :
    ∃ front last back, tokens = front ++ last :: back ∧ inked last.text ≠ [] ∧
      inked (rawText back) = [] := by
  induction tokens with
  | nil => exact absurd rfl ink
  | cons token rest ih =>
    by_cases blank : inked (rawText rest) = []
    · rw [rawText_cons, inked_append, blank, List.append_nil] at ink
      exact ⟨[], token, rest, rfl, ink, blank⟩
    · obtain ⟨front, last, back, rfl, inkLast, blankBack⟩ := ih blank
      exact ⟨token :: front, last, back, rfl, inkLast, blankBack⟩

/-- A body with a text is not blank. -/
theorem ink_of_bodyText {body : List Token} (nonempty : bodyText body ≠ "") :
    inked (bodyText body).toList ≠ [] := by
  intro none
  rw [inked_bodyText] at none
  have cleared : trimEnd (rawText body) = [] := trimEnd_eq_nil_iff.2 (inked_eq_nil_iff.1 none)
  refine nonempty ?_
  change String.ofList ((trimEnd (rawText body)).dropWhile isGap) = ""
  rw [cleared]
  rfl

/-- A body that is not blank has blanks only behind its last token that is not blank. -/
theorem trimEnd_body {body : List Token} (nonempty : bodyText body ≠ "") :
    ∃ pre last trail, body = pre ++ last :: trail ∧ inked last.text ≠ [] ∧
      (bodyText body).toList = (rawText pre ++ trimEnd last.text).dropWhile isGap := by
  have text : bodyText body = String.ofList ((trimEnd (rawText body)).dropWhile isGap) := rfl
  have ink : inked (rawText body) ≠ [] := by
    rw [← inked_bodyText]
    exact ink_of_bodyText nonempty
  obtain ⟨pre, last, trail, rfl, inkLast, blank⟩ := exists_last_ink ink
  refine ⟨pre, last, trail, rfl, inkLast, ?_⟩
  rw [text, String.toList_ofList, rawText_append, rawText_cons, trimEnd_append_ink,
    trimEnd_append_of_blank]
  · exact inked_eq_nil_iff.1 blank
  · rw [inked_append]
    exact fun none => inkLast (List.append_eq_nil_iff.1 none).1

/-- Only a first token of spaces and tabs is lost with the spaces and tabs at the front of a text. -/
theorem lexemes_dropWhile_isGap {pre : List Token} {text : List Char} (ink : inked text ≠ [])
    (noGap : ∀ c ∈ text.head?, isGap c = false)
    (read : ∀ other, lexemes (rawText pre ++ (text ++ other)) = pre ++ lexemes (text ++ other)) :
    ∃ lead core, pre = lead ++ core ∧ (∀ gap ∈ lead, gap.isLayout = true) ∧
      ∀ other, lexemes ((rawText pre ++ text).dropWhile isGap ++ other) =
        core ++ lexemes (text ++ other) := by
  by_cases uncut : ∀ c ∈ (rawText pre ++ text).head?, isGap c = false
  · refine ⟨[], pre, rfl, by simp, fun other => ?_⟩
    rw [dropWhile_of_head? uncut, List.append_assoc, read]
  · obtain ⟨c, rest, spelled, gap⟩ : ∃ c rest, rawText pre ++ text = c :: rest ∧ isGap c = true := by
      cases spelled : rawText pre ++ text with
      | nil => simp [spelled] at uncut
      | cons c rest => exact ⟨c, rest, rfl, by simpa [spelled] using uncut⟩
    have inkRest : rest.dropWhile isGap ≠ [] := by
      intro none
      have blank : inked (c :: rest) = [] := by
        refine inked_eq_nil fun d member => isBlank_of_isGap ?_
        rcases List.mem_cons.1 member with rfl | inside
        · exact gap
        · exact List.dropWhile_eq_nil_iff.1 none d inside
      rw [← spelled, inked_append] at blank
      exact ink (List.append_eq_nil_iff.1 blank).2
    have later (other : List Char) : Token.ofText .space (c :: (rest ++ other).takeWhile isGap) ::
        lexemes (rest.dropWhile isGap ++ other) = pre ++ lexemes (text ++ other) := by
      have both := read other
      rw [← List.append_assoc, spelled, List.cons_append, lexemes_gap gap, List.dropWhile_append,
        if_neg (by simpa using inkRest)] at both
      exact both
    cases pre with
    | nil =>
      have first : text.head? = some c := by
        rw [← List.nil_append text]
        exact congrArg List.head? spelled
      rw [noGap c first] at gap
      cases gap
    | cons token pre =>
      refine ⟨[token], pre, rfl, ?_, fun other => ?_⟩
      · have layout := (List.cons.inj (later [])).1
        rw [← layout]
        simp [Token.isLayout, Kind.isLayout]
      · rw [spelled, List.dropWhile_cons_of_pos gap]
        exact (List.cons.inj (later other)).2

/-- How the text of a body is cut: into the tokens of the body without layout before them, up to a
last one, which is trimmed. -/
structure BodyCut (body after lead core : List Token) (last : Token) (trail : List Token) : Prop where
  /-- The tokens are those of the body. -/
  whole : body = lead ++ (core ++ last :: trail)
  /-- The first ones are layout. -/
  layout : ∀ gap ∈ lead, gap.isLayout = true
  /-- The last one is read from the source of the body. -/
  read : last.ReadBefore (rawText (trail ++ after))
  /-- The last one is no layout. -/
  visible : last.kind.isLayout = false
  /-- The last one is not blank. -/
  ink : inked last.text ≠ []
  /-- The text of the body is read so before any other text. -/
  text : ∀ other, lexemes ((bodyText body).toList ++ other) =
    core ++ lexemes (trimEnd last.text ++ other)

/-- The text of a body is cut into the tokens of the body: what is lost at its front and at its end is
blank, and the last token that is left is trimmed. -/
theorem lexemes_bodyText {source : List Char} {front body after : List Token}
    (split : lexemes source = front ++ (body ++ after)) (nonempty : bodyText body ≠ "") :
    ∃ lead core last trail, BodyCut body after lead core last trail := by
  obtain ⟨pre, last, trail, rfl, ink, text⟩ := trimEnd_body nonempty
  have behind : lexemes source = front ++ (pre ++ last :: (trail ++ after)) := by
    rw [split, List.append_assoc]
    rfl
  have readLast : last.ReadBefore (rawText (trail ++ after)) := by
    rw [← List.append_assoc] at behind
    exact readBefore_of_split behind
  have visible : last.kind.isLayout = false :=
    Bool.eq_false_iff.2 fun layout => ink (inked_eq_nil (readLast.blank_of_isLayout layout))
  obtain ⟨c, tail, spelled, noGap, -⟩ := readLast.first visible
  have first (other : List Char) : (trimEnd last.text ++ other).head? = some c := by
    rw [head?_trimEnd ink, spelled]
    rfl
  have read (other : List Char) : lexemes (rawText pre ++ (trimEnd last.text ++ other)) =
      pre ++ lexemes (trimEnd last.text ++ other) := by
    refine lexemes_alike behind ?_ ?_
    · rw [rawText_cons, spelled]
      exact List.cons_ne_nil _ _
    · rw [first, rawText_cons, spelled]
      rfl
  obtain ⟨lead, core, rfl, layout, cut⟩ := lexemes_dropWhile_isGap
    (by rwa [inked_trimEnd]) (fun d found => by
      rw [← List.append_nil (trimEnd last.text), first] at found
      rwa [← Option.some.inj found]) read
  exact ⟨lead, core, last, trail, List.append_assoc .., layout, readLast, visible, ink,
    fun other => by rw [text, cut]⟩

/-! ## Bare bodies -/

/-- Layout before a bare body belongs to it. -/
theorem Bare.behind {layout tokens : List Token} (isLayout : ∀ gap ∈ layout, gap.isLayout = true)
    (bare : Bare tokens) : Bare (layout ++ tokens) where
  going := by
    intro token member
    rcases List.mem_append.1 member with gap | inside
    · exact endsStatement_of_isLayout (isLayout token gap)
    · exact bare.going token inside
  first := by
    rw [significant_append, significant_eq_nil isLayout]
    exact bare.first

/-- Tokens behind a bare body belong to it, unless they end a statement. -/
theorem Bare.append {tokens others : List Token} (bare : Bare tokens)
    (going : ∀ token ∈ others, token.kind.endsStatement = false) : Bare (tokens ++ others) where
  going := by
    intro token member
    rcases List.mem_append.1 member with inside | behind
    · exact bare.going token inside
    · exact going token behind
  first := by
    obtain ⟨token, first, whole⟩ := bare.first
    refine ⟨token, ?_, whole⟩
    rw [significant_append, List.head?_append, first]
    rfl

/-- A bare body stays one without layout before it and without the tokens behind one of them, even if
this token is replaced by one of its kind. -/
theorem Bare.core {lead core trail : List Token} {last other : Token}
    (bare : Bare (lead ++ (core ++ last :: trail)))
    (isLayout : ∀ gap ∈ lead, gap.isLayout = true) (visible : last.kind.isLayout = false)
    (kind : other.kind = last.kind) : Bare (core ++ [other]) where
  going := by
    intro token member
    rcases List.mem_append.1 member with inside | isLast
    · exact bare.going token (by simp [inside])
    · rw [List.mem_singleton.1 isLast, kind]
      exact bare.going last (by simp)
  first := by
    obtain ⟨token, first, whole⟩ := bare.first
    have visibleOther : other.isLayout = false := by
      rw [Token.isLayout, kind]
      exact visible
    rw [significant_append, significant_eq_nil isLayout, significant_append,
      significant_cons visible] at first
    rw [significant_append, significant_cons visibleOther]
    cases inside : significant core with
    | nil =>
      rw [inside] at first
      have same : last = token := Option.some.inj first
      exact ⟨other, rfl, by rw [kind, same, whole]⟩
    | cons head rest =>
      rw [inside] at first
      exact ⟨token, first, whole⟩

/-! ## Bodies between other texts -/

/-- Whether a text ends in a comment that goes on to the end of its line. -/
def endsInComment (text : String) : Bool :=
  ((tokenize text).filter fun token => token.kind != .eof).getLast?.any fun token =>
    token.kind == .comment

/-- Whether a text ends in a comment depends on its last lexeme. -/
theorem endsInComment_eq (text : String) :
    endsInComment text = (lexemes text.toList).getLast?.any fun token => token.kind == .comment := by
  have going : ∀ token ∈ lexemes text.toList, (token.kind != .eof) = true := by
    intro token member
    obtain ⟨rest, read⟩ := readBefore_of_mem member
    simpa using read.kind_ne_eof
  have placed : ((tokenize text).filter fun token => token.kind != .eof).map Token.unplaced =
      lexemes text.toList := by
    have both := congrArg (List.filter fun token : Token => token.kind != .eof)
      (unplaced_tokenize text)
    rw [List.filter_map, List.filter_append, List.filter_eq_self.2 going] at both
    exact both.trans (List.append_nil _)
  rw [← placed, List.getLast?_map, Option.any_map]
  rfl

/-- A comment goes on to the end of its line. -/
theorem lexemes_comment {tail : List Char} (inLine : ∀ d ∈ tail, isLineEnd d = false)
    (other : List Char) :
    lexemes ('-' :: '-' :: (tail ++ other)) =
      Token.ofText .comment ('-' :: '-' :: (tail ++ other.takeWhile (!isLineEnd ·))) ::
        lexemes (other.dropWhile (!isLineEnd ·)) := by
  have inside : ∀ d ∈ tail, (!isLineEnd d) = true := fun d member => by simp [inLine d member]
  have read : Lexeme.read '-' ('-' :: (tail ++ other)) =
      ⟨.comment, '-' :: (tail ++ other).takeWhile (!isLineEnd ·),
        (tail ++ other).dropWhile (!isLineEnd ·)⟩ := rfl
  rw [List.takeWhile_append_of_pos inside, List.dropWhile_append_of_pos inside] at read
  rw [lexemes, read]
  rfl

/-- A token that is not blank, no comment and not at the end of its source has no blanks at its
end. -/
theorem Token.ReadBefore.trimEnd_text {token : Token} {rest : List Char}
    (read : token.ReadBefore rest) (visible : token.kind.isLayout = false)
    (ink : inked token.text ≠ []) (plain : token.kind ≠ .comment) (ended : rest ≠ []) :
    trimEnd token.text = token.text := by
  obtain ⟨c, tail, made, found, inkFirst⟩ := read.ink_first visible ink
  have spelled : token.text = c :: tail := by rw [made, Token.text_ofText]
  rw [spelled, trimEnd_cons inkFirst, Lexeme.trimEnd_of_read found visible plain ended]

namespace BodyCut

variable {body after lead core trail : List Token} {last : Token}
  (cut : BodyCut body after lead core last trail)

include cut

/-- The tokens of the body up to the last one, or to another one of its kind, are a bare body. -/
theorem bare_core (bare : Bare body) {other : Token} (kind : other.kind = last.kind) :
    Bare (core ++ [other]) := by
  rw [cut.whole] at bare
  exact bare.core cut.layout cut.visible kind

/-- The text of the body spells its tokens, the last one trimmed. -/
theorem toList_bodyText : (bodyText body).toList = rawText core ++ trimEnd last.text := by
  have spelled := congrArg rawText (cut.text [])
  rw [rawText_append, rawText_lexemes, rawText_lexemes, List.append_nil, List.append_nil] at spelled
  exact spelled

/-- A last token that is a comment is read on to the end of its line. -/
theorem lexemes_comment (comment : last.kind = .comment) (other : List Char) :
    lexemes (trimEnd last.text ++ other) =
      Token.ofText .comment (trimEnd last.text ++ other.takeWhile (!isLineEnd ·)) ::
        lexemes (other.dropWhile (!isLineEnd ·)) := by
  obtain ⟨tail, spelled, inLine⟩ := cut.read.comment_text comment
  have dash : isBlank '-' = false := rfl
  have trimmed : trimEnd last.text = '-' :: '-' :: trimEnd tail := by
    rw [spelled, trimEnd_cons dash, trimEnd_cons dash]
  have inside : ∀ d ∈ trimEnd tail, isLineEnd d = false := by
    intro d member
    obtain ⟨blanks, whole, -⟩ := trimEnd_append_blanks tail
    refine inLine d ?_
    rw [whole]
    exact List.mem_append_left _ member
  rw [trimmed]
  exact SqlLayout.lexemes_comment inside other

/-- A body before other text ends in a comment exactly when its last token is one. -/
theorem endsInComment_iff (going : rawText after ≠ []) :
    endsInComment (bodyText body) = true ↔ last.kind = .comment := by
  have read := cut.text []
  rw [List.append_nil] at read
  by_cases comment : last.kind = .comment
  · rw [cut.lexemes_comment comment, List.dropWhile_nil, lexemes] at read
    rw [endsInComment_eq, read]
    simp [comment]
  · rw [cut.read.trimEnd_text cut.visible cut.ink comment (rawText_append_ne_nil trail going), List.append_nil,
      cut.read.lexemes_text cut.visible] at read
    rw [endsInComment_eq, read]
    simp [comment]

/-- A body at the end of a text is bare. -/
theorem bare_ended (bare : Bare body) : Bare (lexemes ((bodyText body).toList ++ ['\n'])) := by
  obtain ⟨other, layout, read, isLayout, trims⟩ := cut.read.trimmed cut.visible cut.ink
  have split : core ++ other :: layout = (core ++ [other]) ++ layout := by simp
  rw [cut.text, read, split]
  exact (cut.bare_core bare trims.kind).append fun token member =>
    endsStatement_of_isLayout (isLayout token member)

/-- A body before other text that does not end in a comment is bare, and it is settled before the
characters that separate lexemes. -/
theorem bare_settled (bare : Bare body) (going : rawText after ≠ [])
    (plain : endsInComment (bodyText body) = false) : Bare (lexemes (bodyText body).toList) ∧
      ∀ d, isBreak d = true → Settled (bodyText body).toList d := by
  have noComment : last.kind ≠ .comment := by
    intro comment
    rw [(cut.endsInComment_iff going).2 comment] at plain
    cases plain
  have ended := rawText_append_ne_nil trail going
  have read := cut.text
  rw [cut.read.trimEnd_text cut.visible cut.ink noComment ended] at read
  have alone := read []
  rw [List.append_nil, List.append_nil, cut.read.lexemes_text cut.visible] at alone
  refine ⟨by rw [alone]; exact cut.bare_core bare rfl, fun d separates other => ?_⟩
  have settled := cut.read.settled_text cut.visible ended
    (Or.inr (Kind.haltsAt_of_isBreak noComment separates))
  rw [read, settled other, cut.read.lexemes_text cut.visible, alone, List.append_assoc]

/-- A body that ends in a comment goes on with a semicolon behind it. -/
theorem absorbs (bare : Bare body) (comment : last.kind = .comment) (other : List Char) :
    ∃ tokens rest text, lexemes ((bodyText body).toList ++ ';' :: other) = tokens ++ rest ∧
      Bare tokens ∧ rawText tokens = (bodyText body).toList ++ ';' :: text := by
  have read := cut.text (';' :: other)
  rw [cut.lexemes_comment comment] at read
  refine ⟨core ++ [_], _, other.takeWhile (!isLineEnd ·), by rw [read]; exact List.append_cons .., ?_, ?_⟩
  · exact cut.bare_core bare comment.symm
  · rw [rawText_append, cut.toList_bodyText, List.append_assoc]
    simp [rawText, isLineEnd]

end BodyCut

end SqlLayout
