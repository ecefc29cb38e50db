import SqlLayout.Proofs.Fusion
import SqlLayout.Token.Lexer

/-!
# What fusing keywords keeps, and what it leaves to fuse

Fusing keywords cuts a token list into groups (`Group`): each is a token that stays, or keywords that
make one token, with nothing but layout between them. So layout inside of compounds is all that is lost
(`exists_groups`). In the result no keyword is followed by words that it makes a compound with
(`maximal_fuseKeywords`): a compound starts no other and is no word of one, and what follows a keyword
that made none is not brought nearer by the compounds behind it. Such a list stays as it is, so fusing
twice is fusing once (`fuseKeywords_grouping`).
-/

namespace SqlLayout

/-- Words with single spaces between them, in terms of the standard operation. -/
theorem joinWords_eq_intercalate : ∀ words : List String, joinWords words = " ".intercalate words
  | [] => String.intercalate_nil.symm
  | [_] => String.intercalate_singleton.symm
  | word :: next :: words => by
    have joined : joinWords (word :: next :: words) = word ++ " " ++ joinWords (next :: words) := rfl
    rw [joined, joinWords_eq_intercalate (next :: words), String.intercalate_cons_cons]

/-! ## Groups -/

/-- Keywords that make one token, and the layout between them. -/
structure Compound where
  /-- The first keyword. -/
  first : Token
  /-- The tokens behind it, up to the last keyword. -/
  behind : List Token
  /-- The first token is a keyword. -/
  keyword : first.kind = .keyword
  /-- So are the others, layout aside. -/
  keywords : ∀ part ∈ significant behind, part.kind = .keyword
  /-- The words of the others are listed for the first one. -/
  listed : (significant behind).map Token.value ∈ Keyword.continuations first.value
  /-- Layout stands between keywords only. -/
  closed : ∃ last, behind.getLast? = some last ∧ last.isLayout = false

/-- A part of a token list that makes one token. -/
inductive Group where
  /-- A token that stays. -/
  | single (token : Token)
  /-- Keywords that make one token. -/
  | compound (joined : Compound)

namespace Group

/-- The tokens that a group covers. -/
def stretch : Group → List Token
  | .single token => [token]
  | .compound joined => joined.first :: joined.behind

/-- The tokens that a group is made of: without the layout between the keywords of a compound. -/
def parts : Group → List Token
  | .single token => [token]
  | .compound joined => joined.first :: significant joined.behind

/-- The token that a group makes. -/
def token : Group → Token
  | .single token => token
  | .compound joined => joined.first.compound (significant joined.behind)

/-- A group makes the token that its parts spell with single spaces between them. -/
theorem token_spelled (group : Group) :
    group.token.value = " ".intercalate (group.parts.map Token.value) ∧
      group.token.raw = " ".intercalate (group.parts.map Token.raw) := by
  cases group with
  | single token => exact ⟨String.intercalate_singleton.symm, String.intercalate_singleton.symm⟩
  | compound joined => exact ⟨joinWords_eq_intercalate _, joinWords_eq_intercalate _⟩

/-- A group has the significant tokens of its stretch. -/
theorem significant_parts (group : Group) : significant group.parts = significant group.stretch := by
  cases group with
  | single token => rfl
  | compound joined =>
    have visible := Token.isLayout_of_keyword joined.keyword
    rw [parts, stretch, significant_cons visible, significant_cons visible,
      significant_eq_self fun part member => (of_mem_significant member).2]

end Group

/-- The keywords of a phrase make a compound with the keyword before it. -/
theorem exists_compound {token : Token} {words : List String} {rest parts after : List Token}
    (keyword : token.kind = .keyword) (listed : words ∈ Keyword.continuations token.value)
    (spelled : phrase? words rest = some (parts, after)) :
    ∃ joined : Compound, joined.first = token ∧ joined.behind ++ after = rest ∧
      significant joined.behind = parts := by
  obtain ⟨taken, rfl, rfl, last, keywords, rfl⟩ := phrase?_split spelled
  have nonempty : significant taken ≠ [] := by simpa using (continuations_spec listed).1
  have closed : ∃ last, taken.getLast? = some last ∧ last.isLayout = false := by
    refine ⟨(significant taken).getLast nonempty, ?_, ?_⟩
    · rw [last, List.getLast?_eq_some_getLast]
    · exact (of_mem_significant (List.getLast_mem nonempty)).2
  exact ⟨⟨token, taken, keyword, keywords, listed, closed⟩, rfl, rfl, rfl⟩

/-- Fusing keywords makes one token of each group that it cuts the list into. -/
theorem exists_groups (tokens : List Token) : ∃ groups : List Group,
    groups.flatMap Group.stretch = tokens ∧ groups.map Group.token = fuseKeywords tokens := by
  fun_induction fuseKeywords tokens with
  | case1 => exact ⟨[], rfl, rfl⟩
  | case2 token rest compound after found ih =>
    obtain ⟨keyword, words, listed, parts, spelled, rfl⟩ := compoundAt?_eq_some found
    obtain ⟨joined, rfl, rfl, rfl⟩ := exists_compound keyword listed spelled
    obtain ⟨groups, rfl, fused⟩ := ih
    exact ⟨.compound joined :: groups, rfl, congrArg (_ :: ·) fused⟩
  | case3 token rest found ih =>
    obtain ⟨groups, rfl, fused⟩ := ih
    exact ⟨.single token :: groups, rfl, congrArg (token :: ·) fused⟩

/-! ## Nothing is left to fuse -/

/-- Whether tokens start with keywords that spell given words, layout aside. -/
def StartsWith (words : List String) (tokens : List Token) : Prop :=
  ∃ parts, parts <+: significant tokens ∧ (∀ part ∈ parts, part.kind = .keyword) ∧
    parts.map Token.value = words

/-- Whether no keyword of a list is followed by words that it makes a compound with, layout aside. -/
def Maximal (tokens : List Token) : Prop :=
  ∀ token rest, token :: rest <:+ tokens → token.kind = .keyword →
    ∀ words ∈ Keyword.continuations token.value, ¬StartsWith words rest

/-- A compound makes no further compound, and is no word of one. -/
theorem continuations_compound {word : String} {words : List String}
    (listed : words ∈ Keyword.continuations word) :
    Keyword.continuations (joinWords (word :: words)) = [] ∧
      ∀ head, ∀ others ∈ Keyword.continuations head, joinWords (word :: words) ∉ others := by
  have table : ∀ entry ∈ Keyword.compounds, ∀ words ∈ entry.2,
      Keyword.continuations (joinWords (entry.1 :: words)) = [] ∧
        ∀ other ∈ Keyword.compounds, ∀ others ∈ other.2, joinWords (entry.1 :: words) ∉ others := by
    decide
  obtain ⟨choices, entry, member⟩ := Keyword.exists_of_mem_continuations listed
  obtain ⟨last, apart⟩ := table (word, choices) entry words member
  refine ⟨last, fun head others next => ?_⟩
  obtain ⟨others', otherEntry, otherMember⟩ := Keyword.exists_of_mem_continuations next
  exact apart (head, others') otherEntry others otherMember

/-- A phrase is found where tokens start with its words. -/
theorem phrase?_eq_some {parts : List Token} (keywords : ∀ part ∈ parts, part.kind = .keyword)
    (rest : List Token) : phrase? (parts.map Token.value) (parts ++ rest) = some (parts, rest) := by
  induction parts with
  | nil => rfl
  | cons part parts ih =>
    have keyword := keywords part List.mem_cons_self
    have front : skipLayout (part :: (parts ++ rest)) = part :: (parts ++ rest) :=
      List.dropWhile_cons_of_neg (by simp [Token.isLayout_of_keyword keyword])
    have same : part.isKeyword part.value = true := by simp [Token.isKeyword, keyword]
    rw [List.map_cons, List.cons_append, phrase?, front]
    dsimp only
    rw [if_pos same, ih fun other member => keywords other (List.mem_cons_of_mem _ member)]
    rfl

/-- Tokens start with the words of a phrase exactly where the phrase is found. -/
theorem startsWith_iff {words : List String} {tokens : List Token} :
    StartsWith words tokens ↔ phrase? words tokens ≠ none := by
  constructor
  · rintro ⟨parts, ⟨behind, split⟩, keywords, rfl⟩ none
    have found := phrase?_significant (parts.map Token.value) tokens
    rw [none, ← split, phrase?_eq_some keywords] at found
    cases found
  · intro found
    obtain ⟨⟨parts, after⟩, spelled⟩ := Option.ne_none_iff_exists'.1 found
    obtain ⟨taken, rfl, rfl, -, keywords, values⟩ := phrase?_split spelled
    refine ⟨significant taken, ?_, keywords, values⟩
    rw [significant_append]
    exact List.prefix_append _ _

/-- No compound starts at a keyword that is followed by no words it makes one with. -/
theorem compoundAt?_eq_none_iff {token : Token} {rest : List Token} (keyword : token.kind = .keyword) :
    compoundAt? token rest = none ↔
      ∀ words ∈ Keyword.continuations token.value, ¬StartsWith words rest := by
  rw [compoundAt?, if_pos keyword, Option.map_eq_none_iff, List.findSome?_eq_none_iff]
  refine forall₂_congr fun words listed => ?_
  rw [startsWith_iff, not_not]

/-- The first tokens of a fused list were the first ones before, if no compound is among them. -/
theorem isPrefix_of_fuseKeywords {tokens parts : List Token} (front : parts <+: fuseKeywords tokens)
    (plain : ∀ part ∈ parts, ∀ word, ∀ words ∈ Keyword.continuations word,
      part.value ≠ joinWords (word :: words)) : parts <+: tokens := by
  fun_induction fuseKeywords tokens generalizing parts with
  | case1 => exact front
  | case2 token rest compound after found ih =>
    obtain ⟨-, words, listed, others, spelled, rfl⟩ := compoundAt?_eq_some found
    obtain ⟨-, -, -, -, -, values⟩ := phrase?_split spelled
    cases parts with
    | nil => exact List.nil_prefix
    | cons part parts =>
      obtain ⟨rfl, -⟩ := List.cons_prefix_cons.1 front
      refine absurd ?_ (plain _ List.mem_cons_self token.value words listed)
      rw [← values]
      rfl
  | case3 token rest found ih =>
    cases parts with
    | nil => exact List.nil_prefix
    | cons part parts =>
      obtain ⟨rfl, later⟩ := List.cons_prefix_cons.1 front
      exact List.cons_prefix_cons.2
        ⟨rfl, ih later fun other member => plain other (List.mem_cons_of_mem _ member)⟩

/-- Fusing keywords brings no words of a compound together that were apart. -/
theorem StartsWith.of_fuseKeywords {head : String} {words : List String} {tokens : List Token}
    (listed : words ∈ Keyword.continuations head) (starts : StartsWith words (fuseKeywords tokens)) :
    StartsWith words tokens := by
  obtain ⟨parts, front, keywords, rfl⟩ := starts
  rw [significant_fuseKeywords] at front
  refine ⟨parts, isPrefix_of_fuseKeywords front ?_, keywords, rfl⟩
  intro part member word others made same
  refine (continuations_compound made).2 head _ listed ?_
  rw [← same]
  exact List.mem_map_of_mem member

/-- In a fused list no keyword is followed by words that it makes a compound with. -/
theorem maximal_fuseKeywords (tokens : List Token) : Maximal (fuseKeywords tokens) := by
  fun_induction fuseKeywords tokens with
  | case1 =>
    intro token rest suffix
    cases List.suffix_nil.1 suffix
  | case2 first behind compound after found ih =>
    intro token rest suffix keyword words listed
    rcases List.suffix_cons_iff.1 suffix with whole | later
    · obtain ⟨rfl, -⟩ := List.cons.inj whole
      obtain ⟨-, others, made, parts, spelled, rfl⟩ := compoundAt?_eq_some found
      obtain ⟨-, -, -, -, -, rfl⟩ := phrase?_split spelled
      have none : Keyword.continuations (first.compound parts).value = [] :=
        (continuations_compound made).1
      rw [none] at listed
      cases listed
    · exact ih token rest later keyword words listed
  | case3 first behind found ih =>
    intro token rest suffix keyword words listed
    rcases List.suffix_cons_iff.1 suffix with whole | later
    · obtain ⟨rfl, rfl⟩ := List.cons.inj whole
      exact fun starts =>
        (compoundAt?_eq_none_iff keyword).1 found words listed (starts.of_fuseKeywords listed)
    · exact ih token rest later keyword words listed

/-- A list in which no keyword is followed by words that it makes a compound with stays as it is. -/
theorem Maximal.fuseKeywords_eq {tokens : List Token} (maximal : Maximal tokens) :
    fuseKeywords tokens = tokens := by
  induction tokens with
  | nil => rw [fuseKeywords]
  | cons token rest ih =>
    have none : compoundAt? token rest = none := by
      by_cases keyword : token.kind = .keyword
      · exact (compoundAt?_eq_none_iff keyword).2 (maximal token rest (List.suffix_refl _) keyword)
      · exact compoundAt?_eq_none keyword rest
    have later : Maximal rest := fun other behind suffix =>
      maximal other behind (suffix.trans (List.suffix_cons token rest))
    rw [fuseKeywords_cons_none none, ih later]

/-- Fusing keywords cuts a list into groups and makes one token of each, spelled like its parts with
single spaces between them. All tokens are kept, apart from layout between the keywords of a compound.
In the result no keyword is followed by words that it makes a compound with, and fusing it again changes
nothing. -/
theorem fuseKeywords_grouping (tokens : List Token) :
    (∃ groups : List Group, groups.flatMap Group.stretch = tokens ∧
      groups.map Group.token = fuseKeywords tokens ∧
      significant (groups.flatMap Group.parts) = significant tokens ∧
      ∀ group ∈ groups, group.token.value = " ".intercalate (group.parts.map Token.value) ∧
        group.token.raw = " ".intercalate (group.parts.map Token.raw)) ∧
    Maximal (fuseKeywords tokens) ∧ fuseKeywords (fuseKeywords tokens) = fuseKeywords tokens := by
  obtain ⟨groups, rfl, fused⟩ := exists_groups tokens
  refine ⟨⟨groups, rfl, fused, ?_, fun group _ => group.token_spelled⟩, maximal_fuseKeywords _,
    (maximal_fuseKeywords _).fuseKeywords_eq⟩
  rw [significant, significant, List.filter_flatMap, List.filter_flatMap]
  exact congrArg (List.flatMap · groups) (funext Group.significant_parts)

/-- Words that only start a compound are left alone, and those of the next one still make it. -/
example : (fuseKeywords (tokenize "left outer group\nby")).map Token.value =
    ["LEFT", " ", "OUTER", " ", "GROUP BY", ""] := by
  decide +kernel

end SqlLayout
