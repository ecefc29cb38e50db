import Mathlib.Data.List.TakeWhile
import SqlLayout.Token.LanguageBody

/-!
# What fusing keywords does

Compound keywords are found by the kinds and the canonical texts of the tokens that are not layout.
Hence fusing commutes with dropping layout (`significant_fuseKeywords`) and with every change of
the tokens that keeps these two (`fuseKeywords_map`), and it cannot reach across a token that is no
keyword (`fuseKeywords_append`). Every token that it yields is one token of the list or a compound of
some that follow each other (`grouped_fuseKeywords`).
-/

namespace SqlLayout

/-- The tokens of a list that are not layout. -/
def significant (tokens : List Token) : List Token :=
  tokens.filter fun token => !token.isLayout

namespace Token

/-- The keyword behind a test for one. -/
theorem kind_of_isKeyword {word : String} {token : Token} (h : token.isKeyword word = true) :
    token.kind = .keyword := by
  simp only [isKeyword, Bool.and_eq_true, beq_iff_eq] at h
  exact h.1

/-- The canonical text behind a test for a keyword. -/
theorem value_of_isKeyword {word : String} {token : Token} (h : token.isKeyword word = true) :
    token.value = word := by
  simp only [isKeyword, Bool.and_eq_true, beq_iff_eq] at h
  exact h.2

/-- A keyword is not layout. -/
theorem isLayout_of_keyword {token : Token} (h : token.kind = .keyword) : token.isLayout = false := by
  rw [isLayout, h]
  rfl

end Token

/-! ## The table of compounds -/

/-- What a keyword joins with is in the table. -/
theorem Keyword.exists_of_mem_continuations {word : String} {words : List String}
    (listed : words ∈ Keyword.continuations word) :
    ∃ choices, (word, choices) ∈ Keyword.compounds ∧ words ∈ choices := by
  unfold Keyword.continuations at listed
  cases found : Keyword.compounds.lookup word with
  | none => simp [found] at listed
  | some choices =>
    rw [found, Option.getD_some] at listed
    obtain ⟨front, back, split, -⟩ := List.lookup_eq_some_iff.1 found
    refine ⟨choices, ?_, listed⟩
    rw [split]
    exact List.mem_append_right _ List.mem_cons_self

/-- The compounds of the table have a second word, and none of them has `AS` there. -/
theorem continuations_spec {word : String} {words : List String}
    (listed : words ∈ Keyword.continuations word) : words ≠ [] ∧ "AS" ∉ words := by
  have table : ∀ entry ∈ Keyword.compounds, ∀ words ∈ entry.2, words ≠ [] ∧ "AS" ∉ words := by
    decide
  obtain ⟨choices, entry, member⟩ := Keyword.exists_of_mem_continuations listed
  exact table (word, choices) entry words member

/-! ## Dropping layout -/

/-- Layout is of no other kind. -/
theorem kind_of_isLayout {token : Token} (layout : token.isLayout = true) :
    token.kind = .space ∨ token.kind = .newline := by
  unfold Token.isLayout at layout
  cases kind : token.kind <;> simp_all [Kind.isLayout]

/-- The significant tokens of a list are those of its parts. -/
theorem significant_append (front back : List Token) :
    significant (front ++ back) = significant front ++ significant back :=
  List.filter_append ..

/-- Layout is not significant. -/
theorem significant_cons_layout {token : Token} (layout : token.isLayout = true)
    (rest : List Token) : significant (token :: rest) = significant rest := by
  simp [significant, layout]

/-- Any other token is significant. -/
theorem significant_cons {token : Token} (visible : token.isLayout = false) (rest : List Token) :
    significant (token :: rest) = token :: significant rest := by
  simp [significant, visible]

/-- Layout has no significant tokens. -/
theorem significant_eq_nil {tokens : List Token} (layout : ∀ gap ∈ tokens, gap.isLayout = true) :
    significant tokens = [] := by
  rw [significant, List.filter_eq_nil_iff]
  intro gap member
  simp [layout gap member]

/-- A significant token is one of the tokens, and no layout. -/
theorem of_mem_significant {tokens : List Token} {token : Token}
    (member : token ∈ significant tokens) : token ∈ tokens ∧ token.isLayout = false := by
  obtain ⟨inside, visible⟩ := List.mem_filter.1 member
  exact ⟨inside, by simpa using visible⟩

/-- Skipping layout keeps the significant tokens. -/
theorem significant_skipLayout (tokens : List Token) :
    significant (skipLayout tokens) = significant tokens := by
  induction tokens with
  | nil => rfl
  | cons token rest ih =>
    cases layout : token.isLayout with
    | true =>
      rw [skipLayout, List.dropWhile_cons_of_pos layout, significant_cons_layout layout, ← ih]
      rfl
    | false => rw [skipLayout, List.dropWhile_cons_of_neg (by simp [layout])]

/-- The first token behind layout is no layout. -/
theorem isLayout_of_skipLayout {tokens rest : List Token} {token : Token}
    (h : skipLayout tokens = token :: rest) : token.isLayout = false := by
  have first : (tokens.dropWhile Token.isLayout).head? = some token := by
    rw [← skipLayout, h]
    rfl
  have behind := List.head?_dropWhile_not Token.isLayout tokens
  rwa [first] at behind

/-- The significant tokens, from the first one behind layout on. -/
theorem significant_of_skipLayout {tokens rest : List Token} {token : Token}
    (h : skipLayout tokens = token :: rest) : significant tokens = token :: significant rest := by
  rw [← significant_skipLayout, h, significant_cons (isLayout_of_skipLayout h)]

/-- A list without layout stays as it is when layout is skipped. -/
theorem skipLayout_significant (tokens : List Token) :
    skipLayout (significant tokens) = significant tokens := by
  cases h : significant tokens with
  | nil => rfl
  | cons token rest =>
    have member : token ∈ significant tokens := by rw [h]; exact List.mem_cons_self
    have visible := (of_mem_significant member).2
    rw [skipLayout, List.dropWhile_cons_of_neg (by simp [visible])]

/-- The first significant token. -/
theorem nextSignificant_eq (tokens : List Token) :
    nextSignificant tokens = (significant tokens).head? := by
  unfold nextSignificant
  cases h : skipLayout tokens with
  | nil => rw [← significant_skipLayout, h]; rfl
  | cons token rest => rw [significant_of_skipLayout h]; rfl

/-- A phrase is found among the significant tokens. -/
theorem phrase?_significant (words : List String) (tokens : List Token) :
    phrase? words (significant tokens) =
      (phrase? words tokens).map fun (parts, after) => (parts, significant after) := by
  induction words generalizing tokens with
  | nil => rfl
  | cons word words ih =>
    rw [phrase?, phrase?, skipLayout_significant]
    cases h : skipLayout tokens with
    | nil =>
      have none : significant tokens = [] := by rw [← significant_skipLayout, h]; rfl
      rw [none]
      rfl
    | cons token rest =>
      rw [significant_of_skipLayout h]
      dsimp only
      split
      · rw [ih rest, Option.map_map, Option.map_map]
        rfl
      · rfl

/-- A compound is found among the significant tokens. -/
theorem compoundAt?_significant (token : Token) (rest : List Token) :
    compoundAt? token (significant rest) =
      (compoundAt? token rest).map fun (compound, after) => (compound, significant after) := by
  unfold compoundAt?
  split
  · have found : (Keyword.continuations token.value).findSome?
          (fun words => phrase? words (significant rest)) =
        ((Keyword.continuations token.value).findSome? fun words => phrase? words rest).map
          fun (parts, after) => (parts, significant after) := by
      rw [List.map_findSome?]
      congr 1
      funext words
      exact phrase?_significant words rest
    rw [found, Option.map_map, Option.map_map]
    rfl
  · rfl

/-- Only a keyword starts a compound. -/
theorem compoundAt?_eq_none {token : Token} (plain : token.kind ≠ .keyword) (rest : List Token) :
    compoundAt? token rest = none :=
  if_neg plain

/-- A token list starts with the compound that is found there. -/
theorem fuseKeywords_cons_some {token compound : Token} {rest after : List Token}
    (found : compoundAt? token rest = some (compound, after)) :
    fuseKeywords (token :: rest) = compound :: fuseKeywords after := by
  rw [fuseKeywords]
  split
  · rename_i same
    rw [found] at same
    cases same
    rfl
  · rename_i none
    rw [found] at none
    cases none

/-- A token that starts no compound stays. -/
theorem fuseKeywords_cons_none {token : Token} {rest : List Token}
    (found : compoundAt? token rest = none) :
    fuseKeywords (token :: rest) = token :: fuseKeywords rest := by
  rw [fuseKeywords]
  split
  · rename_i same
    rw [found] at same
    cases same
  · rfl

/-- The compound that is found has a keyword first. -/
theorem compoundAt?_eq_some {token compound : Token} {rest after : List Token}
    (found : compoundAt? token rest = some (compound, after)) :
    token.kind = .keyword ∧ ∃ words ∈ Keyword.continuations token.value, ∃ parts,
      phrase? words rest = some (parts, after) ∧ compound = token.compound parts := by
  unfold compoundAt? at found
  split at found
  · rename_i keyword
    obtain ⟨⟨parts, behind⟩, phrase, same⟩ := Option.map_eq_some_iff.1 found
    obtain ⟨words, listed, spelled⟩ := List.exists_of_findSome?_eq_some phrase
    cases same
    exact ⟨keyword, words, listed, parts, spelled, rfl⟩
  · cases found

/-- Fusing keywords commutes with dropping layout. -/
theorem significant_fuseKeywords (tokens : List Token) :
    significant (fuseKeywords tokens) = fuseKeywords (significant tokens) := by
  fun_induction fuseKeywords tokens with
  | case1 => rw [significant, List.filter_nil, fuseKeywords]
  | case2 token rest compound after found ih =>
    obtain ⟨keyword, words, -, parts, -, rfl⟩ := compoundAt?_eq_some found
    have visible := Token.isLayout_of_keyword keyword
    have again := compoundAt?_significant token rest
    rw [found, Option.map_some] at again
    rw [significant_cons visible, fuseKeywords_cons_some again, ← ih]
    exact significant_cons rfl _
  | case3 token rest found ih =>
    cases layout : token.isLayout with
    | true => rw [significant_cons_layout layout, significant_cons_layout layout, ih]
    | false =>
      have again := compoundAt?_significant token rest
      rw [found, Option.map_none] at again
      rw [significant_cons layout, significant_cons layout, fuseKeywords_cons_none again, ih]

/-! ## Changing tokens -/

/-- Whether a change of tokens keeps what compounds are found by, and compounds themselves. -/
structure Respects (change : Token → Token) : Prop where
  /-- The kind stays. -/
  kind : ∀ token, (change token).kind = token.kind
  /-- The canonical text of a keyword stays. -/
  value : ∀ token, token.kind = .keyword → (change token).value = token.value
  /-- A compound is changed in its parts. -/
  compound : ∀ first others, first.kind = .keyword → (∀ part ∈ others, part.kind = .keyword) →
    change (first.compound others) = (change first).compound (others.map change)

namespace Respects

variable {change : Token → Token} (respects : Respects change)

include respects

/-- Layout stays layout. -/
theorem isLayout (token : Token) : (change token).isLayout = token.isLayout := by
  rw [Token.isLayout, respects.kind, Token.isLayout]

/-- Keywords stay the same keywords. -/
theorem isKeyword (word : String) (token : Token) :
    (change token).isKeyword word = token.isKeyword word := by
  by_cases keyword : token.kind = .keyword
  · rw [Token.isKeyword, respects.kind, respects.value token keyword, Token.isKeyword]
  · have other : (change token).kind ≠ .keyword := by rwa [respects.kind]
    rw [Token.isKeyword, Token.isKeyword, beq_eq_false_iff_ne.2 keyword,
      beq_eq_false_iff_ne.2 other]
    rfl

/-- Layout is skipped alike. -/
theorem skipLayout_map (tokens : List Token) :
    skipLayout (tokens.map change) = (skipLayout tokens).map change := by
  rw [skipLayout, skipLayout, List.dropWhile_map]
  congr 2
  funext token
  exact respects.isLayout token

/-- Phrases are found alike. -/
theorem phrase?_map (words : List String) (tokens : List Token) :
    phrase? words (tokens.map change) =
      (phrase? words tokens).map fun (parts, after) => (parts.map change, after.map change) := by
  induction words generalizing tokens with
  | nil => rfl
  | cons word words ih =>
    rw [phrase?, phrase?, respects.skipLayout_map]
    cases skipLayout tokens with
    | nil => rfl
    | cons token rest =>
      simp only [List.map_cons, respects.isKeyword]
      split
      · rw [ih rest, Option.map_map, Option.map_map]
        rfl
      · rfl

end Respects

/-- The tokens of a phrase are keywords that spell it, with layout between them. -/
theorem phrase?_split {words : List String} {tokens parts after : List Token}
    (h : phrase? words tokens = some (parts, after)) :
    ∃ taken, tokens = taken ++ after ∧ significant taken = parts ∧
      taken.getLast? = parts.getLast? ∧ (∀ part ∈ parts, part.kind = .keyword) ∧
      parts.map Token.value = words := by
  induction words generalizing tokens parts with
  | nil =>
    rw [phrase?, Option.some.injEq, Prod.mk.injEq] at h
    obtain ⟨rfl, rfl⟩ := h
    exact ⟨[], rfl, rfl, rfl, by simp, rfl⟩
  | cons word words ih =>
    rw [phrase?] at h
    split at h
    · cases h
    rename_i token rest front
    split at h
    · rename_i keyword
      obtain ⟨⟨others, behind⟩, found, same⟩ := Option.map_eq_some_iff.1 h
      cases same
      obtain ⟨taken, rfl, spelled, last, keywords, values⟩ := ih found
      have visible := isLayout_of_skipLayout front
      have layout : significant (tokens.takeWhile Token.isLayout) = [] := by
        refine List.filter_eq_nil_iff.2 fun token member => ?_
        simp [List.mem_takeWhile_imp member]
      refine ⟨tokens.takeWhile Token.isLayout ++ token :: taken, ?_, ?_, ?_, ?_, ?_⟩
      · rw [List.append_assoc, List.cons_append, ← front, skipLayout,
          List.takeWhile_append_dropWhile]
      · rw [significant_append, layout, significant_cons visible, spelled]
        rfl
      · rw [List.getLast?_append, List.getLast?_cons, List.getLast?_cons, last]
        rfl
      · intro part member
        rcases List.mem_cons.1 member with rfl | other
        · exact Token.kind_of_isKeyword keyword
        · exact keywords part other
      · rw [List.map_cons, values, Token.value_of_isKeyword keyword]
    · cases h

namespace Respects

variable {change : Token → Token} (respects : Respects change)

include respects

/-- Compounds are found alike. -/
theorem compoundAt?_map (token : Token) (rest : List Token) :
    compoundAt? (change token) (rest.map change) =
      (compoundAt? token rest).map fun (compound, after) => (change compound, after.map change) := by
  unfold compoundAt?
  rw [respects.kind]
  split
  · rename_i keyword
    have found : (Keyword.continuations token.value).findSome?
          (fun words => phrase? words (rest.map change)) =
        ((Keyword.continuations token.value).findSome? fun words => phrase? words rest).map
          fun (parts, after) => (parts.map change, after.map change) := by
      rw [List.map_findSome?]
      congr 1
      funext words
      exact respects.phrase?_map words rest
    rw [respects.value token keyword, found, Option.map_map, Option.map_map]
    cases phrase : (Keyword.continuations token.value).findSome? fun words => phrase? words rest with
    | none => rfl
    | some pair =>
      obtain ⟨words, -, spelled⟩ := List.exists_of_findSome?_eq_some phrase
      obtain ⟨-, -, -, -, keywords, -⟩ := phrase?_split spelled
      simp only [Option.map_some, Function.comp_apply]
      rw [respects.compound token pair.1 keyword keywords]
  · rfl

/-- Fusing keywords commutes with the change. -/
theorem fuseKeywords_map (tokens : List Token) :
    fuseKeywords (tokens.map change) = (fuseKeywords tokens).map change := by
  fun_induction fuseKeywords tokens with
  | case1 => rw [List.map_nil, fuseKeywords]
  | case2 token rest compound after found ih =>
    have again := respects.compoundAt?_map token rest
    rw [found, Option.map_some] at again
    rw [List.map_cons, List.map_cons, fuseKeywords_cons_some again, ih]
  | case3 token rest found ih =>
    have again := respects.compoundAt?_map token rest
    rw [found, Option.map_none] at again
    rw [List.map_cons, List.map_cons, fuseKeywords_cons_none again, ih]

end Respects

/-! ## Lists put together -/

section Class

variable {inClass : Token → Bool} {barrier : Token} (outside : inClass barrier = false)

include outside

/-- A run of tokens of a class ends at a token outside of it. -/
theorem takeWhile_append_cons (tokens rest : List Token) :
    (tokens ++ barrier :: rest).takeWhile inClass = tokens.takeWhile inClass := by
  rw [List.takeWhile_append, List.takeWhile_cons_of_neg (by simp [outside]), List.append_nil]
  split
  · rename_i all
    exact ((List.takeWhile_prefix _).eq_of_length all).symm
  · rfl

/-- What is behind a run of tokens of a class goes on with a token outside of it. -/
theorem dropWhile_append_cons (tokens rest : List Token) :
    (tokens ++ barrier :: rest).dropWhile inClass =
      tokens.dropWhile inClass ++ barrier :: rest := by
  rw [List.dropWhile_append, List.dropWhile_cons_of_neg (by simp [outside])]
  split
  · rename_i none
    rw [List.isEmpty_iff.1 none]
    rfl
  · rfl

end Class

section Barrier

variable {barrier : Token} (visible : barrier.isLayout = false) (plain : barrier.kind ≠ .keyword)

include visible plain

/-- A phrase does not reach across a token that is no keyword. -/
theorem phrase?_append (words : List String) (tokens rest : List Token) :
    phrase? words (tokens ++ barrier :: rest) =
      (phrase? words tokens).map fun (parts, after) => (parts, after ++ barrier :: rest) := by
  induction words generalizing tokens with
  | nil => rfl
  | cons word words ih =>
    rw [phrase?, phrase?, skipLayout, dropWhile_append_cons visible, ← skipLayout]
    cases skipLayout tokens with
    | nil =>
      have other : barrier.isKeyword word = false := by
        rw [Token.isKeyword, beq_eq_false_iff_ne.2 plain]
        rfl
      simp [other]
    | cons token behind =>
      simp only [List.cons_append]
      split
      · rw [ih behind, Option.map_map, Option.map_map]
        rfl
      · rfl

/-- A compound does not reach across a token that is no keyword. -/
theorem compoundAt?_append (token : Token) (tokens rest : List Token) :
    compoundAt? token (tokens ++ barrier :: rest) =
      (compoundAt? token tokens).map fun (compound, after) =>
        (compound, after ++ barrier :: rest) := by
  unfold compoundAt?
  split
  · have found : (Keyword.continuations token.value).findSome?
          (fun words => phrase? words (tokens ++ barrier :: rest)) =
        ((Keyword.continuations token.value).findSome? fun words => phrase? words tokens).map
          fun (parts, after) => (parts, after ++ barrier :: rest) := by
      rw [List.map_findSome?]
      congr 1
      funext words
      exact phrase?_append visible plain words tokens rest
    rw [found, Option.map_map, Option.map_map]
    rfl
  · rfl

/-- Keywords are fused on either side of a token that is no keyword. -/
theorem fuseKeywords_append (tokens rest : List Token) :
    fuseKeywords (tokens ++ barrier :: rest) =
      fuseKeywords tokens ++ barrier :: fuseKeywords rest := by
  fun_induction fuseKeywords tokens with
  | case1 =>
    rw [List.nil_append, fuseKeywords_cons_none (compoundAt?_eq_none plain rest)]
    rfl
  | case2 token behind compound after found ih =>
    have again := compoundAt?_append visible plain token behind rest
    rw [found, Option.map_some] at again
    rw [List.cons_append, fuseKeywords_cons_some again, ih]
    rfl
  | case3 token behind found ih =>
    have again := compoundAt?_append visible plain token behind rest
    rw [found, Option.map_none] at again
    rw [List.cons_append, fuseKeywords_cons_none again, ih]
    rfl

end Barrier

/-- A token of the fused list is one of the tokens or a compound keyword. -/
theorem mem_fuseKeywords {tokens : List Token} {token : Token}
    (member : token ∈ fuseKeywords tokens) : token ∈ tokens ∨ token.kind = .keyword := by
  fun_induction fuseKeywords tokens with
  | case1 => exact Or.inl member
  | case2 first rest compound after found ih =>
    obtain ⟨-, words, -, parts, spelled, rfl⟩ := compoundAt?_eq_some found
    obtain ⟨taken, rfl, -⟩ := phrase?_split spelled
    rcases List.mem_cons.1 member with rfl | later
    · exact Or.inr rfl
    · exact (ih later).imp_left fun inside =>
        List.mem_cons_of_mem _ (List.mem_append_right _ inside)
  | case3 first rest found ih =>
    rcases List.mem_cons.1 member with rfl | later
    · exact Or.inl List.mem_cons_self
    · exact (ih later).imp_left (List.mem_cons_of_mem _)

/-! ## Groups -/

/-- Whether the tokens of one list are single tokens of the other or compounds of keywords that
follow each other there. -/
inductive Grouped : List Token → List Token → Prop
  /-- No token is left. -/
  | nil : Grouped [] []
  /-- A token stays. -/
  | single {token : Token} {fused tokens : List Token} (others : Grouped fused tokens) :
    Grouped (token :: fused) (token :: tokens)
  /-- Keywords make a compound. -/
  | compound {first : Token} {parts fused tokens : List Token} (keyword : first.kind = .keyword)
    (keywords : ∀ part ∈ parts, part.kind = .keyword)
    (listed : parts.map Token.value ∈ Keyword.continuations first.value)
    (others : Grouped fused tokens) :
    Grouped (first.compound parts :: fused) (first :: (parts ++ tokens))

/-- A list without layout has no other tokens than its significant ones. -/
theorem significant_eq_self {tokens : List Token}
    (visible : ∀ token ∈ tokens, token.isLayout = false) : significant tokens = tokens := by
  refine List.filter_eq_self.2 fun token member => ?_
  rw [visible token member]
  rfl

/-- Fusing keywords groups the tokens of a list without layout. -/
theorem grouped_fuseKeywords {tokens : List Token}
    (visible : ∀ token ∈ tokens, token.isLayout = false) : Grouped (fuseKeywords tokens) tokens := by
  fun_induction fuseKeywords tokens with
  | case1 => exact Grouped.nil
  | case2 token rest compound after found ih =>
    obtain ⟨keyword, words, listed, parts, spelled, rfl⟩ := compoundAt?_eq_some found
    obtain ⟨taken, rfl, same, -, keywords, rfl⟩ := phrase?_split spelled
    have all : significant taken = taken := significant_eq_self fun token member =>
      visible token (List.mem_cons_of_mem _ (List.mem_append_left _ member))
    rw [all] at same
    subst same
    exact Grouped.compound keyword keywords listed (ih fun token member =>
      visible token (List.mem_cons_of_mem _ (List.mem_append_right _ member)))
  | case3 token rest found ih =>
    exact Grouped.single (ih fun token member => visible token (List.mem_cons_of_mem _ member))

end SqlLayout
