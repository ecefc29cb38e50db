import SqlLayout.Proofs.Preservation

/-!
# Texts without blanks around them

A text is solid if it neither starts nor ends in a blank. Such a part of a text stays when the text
is trimmed (`Solid.around`), and solid words stay solid when they are joined (`solid_joinWords`). The
keywords of a source are shown as solid texts in every letter case (`solid_of_mem_fuse`).
-/

namespace SqlLayout

open Text

/-- Whether a text is not empty and neither starts nor ends in a blank. -/
structure Solid (text : List Char) : Prop where
  /-- There is a text. -/
  nonempty : text ≠ []
  /-- Trimming leaves it as it is. -/
  trimmed : trim text = text

namespace Solid

variable {text other : List Char}

/-- A text is solid if its first character is not blank and its end is trimmed. -/
theorem of_ends {c : Char} {tail : List Char} (ink : isBlank c = false)
    (ended : trimEnd (c :: tail) = c :: tail) : Solid (c :: tail) where
  nonempty := List.cons_ne_nil c tail
  trimmed := (trim_cons ink tail).trans ended

/-- Nothing is trimmed from the end of a solid text. -/
theorem trimEnd_eq (solid : Solid text) : trimEnd text = text := by
  rw [← solid.trimmed]
  exact trimEnd_trimEnd _

/-- Nothing is trimmed from the front of a solid text. -/
theorem dropWhile_eq (solid : Solid text) : text.dropWhile isBlank = text := by
  have trimmed := solid.trimmed
  rw [trim, trimEnd_dropWhile, solid.trimEnd_eq] at trimmed
  exact trimmed

/-- A solid text is not blank. -/
theorem not_isBlankText (solid : Solid text) : ¬ IsBlankText text := by
  intro blank
  have cleared := List.dropWhile_eq_nil_iff.2 blank
  rw [solid.dropWhile_eq] at cleared
  exact solid.nonempty cleared

/-- Trimming the front of a text stops at a solid part. -/
theorem dropWhile_append (solid : Solid text) (front back : List Char) :
    (front ++ text ++ back).dropWhile isBlank = front.dropWhile isBlank ++ text ++ back := by
  have kept : (text ++ back).dropWhile isBlank = text ++ back := by
    rw [List.dropWhile_append, solid.dropWhile_eq, if_neg (by simpa using solid.nonempty)]
  rw [List.append_assoc, List.dropWhile_append, kept, List.append_assoc]
  split
  · rename_i none
    rw [List.isEmpty_iff.1 none, List.nil_append]
  · rfl

/-- Trimming the end of a text stops at a solid part. -/
theorem trimEnd_append (solid : Solid text) (front : List Char) :
    trimEnd (front ++ text) = front ++ text := by
  rw [Text.trimEnd_append, solid.trimEnd_eq, if_neg solid.nonempty]

/-- A solid part of a text stays when the text is trimmed, with what stands before it apart from
blanks at the front. -/
theorem around (solid : Solid text) (front back : List Char) :
    front.dropWhile isBlank ++ text <+: trim (front ++ text ++ back) := by
  rw [trim, solid.dropWhile_append, Text.trimEnd_append]
  split
  · exact ⟨[], by rw [List.append_nil, solid.trimEnd_append]⟩
  · exact List.prefix_append _ _

/-- Solid texts with anything between them are solid together. -/
theorem join (solid : Solid text) (last : Solid other) (between : List Char) :
    Solid (text ++ (between ++ other)) where
  nonempty := fun none => solid.nonempty (List.append_eq_nil_iff.1 none).1
  trimmed := by
    have front := solid.dropWhile_append [] (between ++ other)
    rw [List.nil_append] at front
    rw [trim, front, List.dropWhile_nil, List.nil_append, ← List.append_assoc, last.trimEnd_append]

end Solid

/-- Solid words stay solid when they are joined. -/
theorem solid_joinWords {words : List String} (nonempty : words ≠ [])
    (solid : ∀ word ∈ words, Solid word.toList) : Solid (joinWords words).toList := by
  fun_induction joinWords words with
  | case1 => exact absurd rfl nonempty
  | case2 word => exact solid word List.mem_cons_self
  | case3 word words more ih =>
    have others := ih more fun other member => solid other (List.mem_cons_of_mem word member)
    have joined := (solid word List.mem_cons_self).join others [' ']
    rw [String.toList_append, String.toList_append, List.append_assoc]
    exact joined

/-! ## The keywords of a source -/

/-- A keyword of a source is shown as a solid text. -/
theorem Token.ReadBefore.solid {token : Token} {rest : List Char} (read : token.ReadBefore rest)
    (keyword : token.kind = .keyword) (keywordCase : KeywordCase) :
    Solid (token.shown keywordCase).toList := by
  have again := read.recast (by rw [keyword]; rfl) keywordCase
  have word : (token.recast keywordCase).kind = .keyword := keyword
  obtain ⟨c, tail, spelled, -, -, blank, -⟩ := again.first (by rw [word]; rfl)
  have ink : isBlank c = false := by
    rw [Bool.eq_false_iff]
    intro isBlank
    have operator := (blank isBlank).1
    rw [word] at operator
    cases operator
  have ended := again.trimEnd_keyword word
  have shown : (token.shown keywordCase).toList = c :: tail := spelled
  rw [spelled] at ended
  rw [shown]
  exact Solid.of_ends ink ended

/-- A token of a list with fused keywords is one of the tokens or a compound of keywords among
them. -/
theorem of_mem_fuseKeywords {tokens : List Token} {token : Token}
    (member : token ∈ fuseKeywords tokens) :
    token ∈ tokens ∨ ∃ first parts, token = first.compound parts ∧
      ∀ part ∈ first :: parts, part ∈ tokens ∧ part.kind = .keyword := by
  fun_induction fuseKeywords tokens with
  | case1 => exact Or.inl member
  | case2 first rest compound after found ih =>
    obtain ⟨keyword, words, -, parts, spelled, rfl⟩ := compoundAt?_eq_some found
    obtain ⟨taken, rfl, same, -, keywords, -⟩ := phrase?_split spelled
    rcases List.mem_cons.1 member with rfl | later
    · refine Or.inr ⟨first, parts, rfl, List.forall_mem_cons.2 ⟨⟨List.mem_cons_self, keyword⟩, ?_⟩⟩
      intro part inside
      refine ⟨?_, keywords part inside⟩
      rw [← same] at inside
      have listed := List.mem_append_left after (of_mem_significant inside).1
      exact List.mem_cons_of_mem first listed
    · refine (ih later).imp (fun single => ?_) ?_
      · exact List.mem_cons_of_mem first (List.mem_append_right taken single)
      · rintro ⟨head, others, made, listed⟩
        exact ⟨head, others, made, fun part inside => ⟨List.mem_cons_of_mem first
          (List.mem_append_right taken (listed part inside).1), (listed part inside).2⟩⟩
  | case3 first rest found ih =>
    rcases List.mem_cons.1 member with rfl | later
    · exact Or.inl List.mem_cons_self
    · refine (ih later).imp (List.mem_cons_of_mem first) ?_
      rintro ⟨head, others, made, listed⟩
      exact ⟨head, others, made, fun part inside =>
        ⟨List.mem_cons_of_mem first (listed part inside).1, (listed part inside).2⟩⟩

/-- The keywords of a source, compounds among them, are shown as solid texts. -/
theorem solid_of_mem_fuse {source : String} {token : Token}
    (member : token ∈ fuse (tokenize source)) (keyword : token.kind = .keyword)
    (keywordCase : KeywordCase) : Solid (token.shown keywordCase).toList := by
  have single (part : Token) (inside : part ∈ fuseBodies (tokenize source))
      (keyword : part.kind = .keyword) : Solid (part.shown keywordCase).toList := by
    rcases mem_fuseBodies inside with lexed | ⟨body, made⟩
    · have placed : part.unplaced ∈ lexemes source.toList ++ [endToken] := by
        rw [← unplaced_tokenize]
        exact List.mem_map_of_mem lexed
      rcases List.mem_append.1 placed with found | isEnd
      · obtain ⟨rest, read⟩ := readBefore_of_mem found
        exact read.solid keyword keywordCase
      · have ended : part.kind = .eof := congrArg Token.kind (List.mem_singleton.1 isEnd)
        rw [keyword] at ended
        cases ended
    · obtain ⟨first, others, -, -, rfl⟩ := bodyToken_eq_some made
      cases keyword
  rcases of_mem_fuseKeywords member with inside | ⟨first, parts, rfl, listed⟩
  · exact single token inside keyword
  · rw [shown_compound keywordCase fun part inside => (listed part inside).2]
    refine solid_joinWords (List.map_eq_nil_iff.not.2 (List.cons_ne_nil first parts)) ?_
    intro word shown
    obtain ⟨part, inside, rfl⟩ := List.mem_map.1 shown
    exact single part (listed part inside).1 (listed part inside).2

end SqlLayout
