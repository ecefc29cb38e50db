import SqlLayout.Proofs.Coverage

/-!
# Where delimited tokens end

A comment, a string, a quoted name, a text between dollar signs and a placeholder in braces each wait
for a terminator. Where one is closed is said by positions in the source from the token on
(`Terminator.Closes`), without the scans that look for it: the token goes up to and including the
terminator at the first such position, and it is all of the source when there is none (`UpTo`). Every
token of every source does so (`tokenize_terminated`).
-/

namespace SqlLayout

open Text

/-- Whether a text is what a source has before the first index with a property, and a number of
characters more; if no index has it, the text is the source. -/
inductive UpTo (closes : Nat → Prop) (width : Nat) (source : List Char) : List Char → Prop
  /-- The text ends behind the first index with the property. -/
  | closed (index : Nat) (closing : closes index) (first : ∀ earlier < index, ¬closes earlier) :
    UpTo closes width source (source.take (index + width))
  /-- No index has the property. -/
  | unclosed (never : ∀ index, ¬closes index) : UpTo closes width source source

/-- A source that has the property at its front ends there. -/
theorem UpTo.front {closes : Nat → Prop} {source : List Char} (closing : closes 0) (width : Nat) :
    UpTo closes width source (source.take width) := by
  have reached : UpTo closes width source (source.take (0 + width)) :=
    UpTo.closed 0 closing fun earlier before => absurd before (Nat.not_lt_zero earlier)
  rwa [Nat.zero_add] at reached

/-- A part that has the property nowhere can be put before a source. -/
theorem UpTo.behind {closes later : Nat → Prop} {width : Nat} (front : List Char)
    {source text : List Char} (skip : ∀ index < front.length, ¬closes index)
    (shift : ∀ index, closes (front.length + index) ↔ later index)
    (reached : UpTo later width source text) :
    UpTo closes width (front ++ source) (front ++ text) := by
  cases reached with
  | closed index closing first =>
    have taken : front ++ source.take (index + width) =
        (front ++ source).take (front.length + index + width) := by
      rw [Nat.add_assoc, List.take_length_add_append]
    rw [taken]
    refine UpTo.closed (front.length + index) ((shift index).2 closing) fun earlier before => ?_
    by_cases inFront : earlier < front.length
    · exact skip earlier inFront
    · obtain ⟨behind, rfl⟩ := Nat.exists_eq_add_of_le (Nat.le_of_not_lt inFront)
      exact fun found => first behind (by omega) ((shift behind).1 found)
  | unclosed never =>
    refine UpTo.unclosed fun index found => ?_
    by_cases inFront : index < front.length
    · exact skip index inFront found
    · obtain ⟨behind, rfl⟩ := Nat.exists_eq_add_of_le (Nat.le_of_not_lt inFront)
      exact never behind ((shift behind).1 found)

/-- A character that has the property nowhere can be put before a source. -/
theorem UpTo.cons {closes later : Nat → Prop} {width : Nat} {c : Char} {source text : List Char}
    (skip : ¬closes 0) (shift : ∀ index, closes (index + 1) ↔ later index)
    (reached : UpTo later width source text) : UpTo closes width (c :: source) (c :: text) := by
  refine UpTo.behind [c] (fun index before => ?_) (fun index => ?_) reached
  · obtain rfl : index = 0 := Nat.lt_one_iff.1 before
    exact skip
  · rw [List.length_singleton, Nat.add_comm]
    exact shift index

/-! ## Scans -/

/-- Text through a character ends behind its first occurrence. -/
theorem through_upTo (stop : Char) (source : List Char) :
    UpTo (fun index => source[index]? = some stop) 1 source (through stop source).1 := by
  fun_induction through stop source with
  | case1 => exact UpTo.unclosed fun index => by simp
  | case2 rest =>
    refine UpTo.front ?_ 1
    rfl
  | case3 c rest other ih =>
    exact UpTo.cons (by simpa using other) (fun index => by rw [List.getElem?_cons_succ]) ih

/-- Text through two characters ends behind their first occurrence. -/
theorem throughPair_upTo (first second : Char) (source : List Char) :
    UpTo (fun index => source[index]? = some first ∧ source[index + 1]? = some second) 2 source
      (throughPair first second source).1 := by
  fun_induction throughPair first second source with
  | case1 => exact UpTo.unclosed fun index => by simp
  | case2 c rest found =>
    obtain ⟨rfl, next⟩ := found
    have taken : (c :: rest).take 2 = [c, second] := by
      rw [← cons_tail_of_head? next]
      rfl
    have behind : (c :: rest)[1]? = some second := by
      rw [← next, List.head?_eq_getElem?]
      rfl
    rw [← taken]
    exact UpTo.front ⟨rfl, behind⟩ 2
  | case3 c rest other ih =>
    refine UpTo.cons ?_ (fun index => by rw [List.getElem?_cons_succ, List.getElem?_cons_succ]) ih
    simpa [List.head?_eq_getElem?] using other

/-- The characters of a line end before the first carriage return or line feed. -/
theorem line_upTo (source : List Char) :
    UpTo (fun index => source[index]? = some '\r' ∨ source[index]? = some '\n') 0 source
      (source.takeWhile (!isLineEnd ·)) := by
  induction source with
  | nil => exact UpTo.unclosed fun index => by simp
  | cons c rest ih =>
    by_cases lineEnd : c = '\r' ∨ c = '\n'
    · rw [List.takeWhile_cons_of_neg (by simpa [isLineEnd, imp_iff_not_or] using lineEnd)]
      exact UpTo.front (lineEnd.imp (congrArg some) (congrArg some)) 0
    · rw [List.takeWhile_cons_of_pos (by simpa [isLineEnd] using lineEnd)]
      refine UpTo.cons ?_ (fun index => by rw [List.getElem?_cons_succ]) ih
      exact fun found => lineEnd (found.imp Option.some.inj Option.some.inj)

/-- The texts that a string can have between its apostrophes: characters other than the apostrophe, and
doubled apostrophes. -/
inductive StringBody : List Char → Prop
  /-- A string can be empty. -/
  | nil : StringBody []
  /-- A character other than the apostrophe stands for itself. -/
  | plain {c : Char} {rest : List Char} (other : c ≠ '\'') (body : StringBody rest) :
    StringBody (c :: rest)
  /-- A doubled apostrophe stands for one. -/
  | doubled {rest : List Char} (body : StringBody rest) : StringBody ('\'' :: '\'' :: rest)

namespace StringBody

/-- A single apostrophe is not the text of a string. -/
theorem not_single : ¬StringBody ['\''] := by
  intro body
  cases body with
  | plain other _ => exact other rfl

/-- Before a text of a string can stand a doubled apostrophe. -/
theorem doubled_iff {rest : List Char} : StringBody ('\'' :: '\'' :: rest) ↔ StringBody rest := by
  constructor
  · intro body
    cases body with
    | plain other _ => exact absurd rfl other
    | doubled body => exact body
  · exact doubled

/-- Before a text of a string can stand any character other than the apostrophe. -/
theorem plain_iff {c : Char} (other : c ≠ '\'') {rest : List Char} :
    StringBody (c :: rest) ↔ StringBody rest := by
  constructor
  · intro body
    cases body with
    | plain _ body => exact body
    | doubled _ => exact absurd rfl other
  · exact plain other

end StringBody

/-- The scan of a string ends behind the first apostrophe that closes it. -/
theorem throughString_upTo (source : List Char) :
    UpTo (fun index => source[index]? = some '\'' ∧ source[index + 1]? ≠ some '\'' ∧
      StringBody (source.take index)) 1 source (throughString source).1 := by
  fun_induction throughString source with
  | case1 => exact UpTo.unclosed fun index => by simp
  | case2 rest ih =>
    refine UpTo.behind ['\'', '\''] (fun index before => ?_) (fun index => ?_) ih
    · rintro ⟨-, single, body⟩
      rcases Nat.le_one_iff_eq_zero_or_eq_one.1 (Nat.le_of_lt_succ before) with rfl | rfl
      · exact single rfl
      · exact StringBody.not_single body
    · have moved : ['\'', '\''].length + index = index + 1 + 1 := Nat.add_comm 2 index
      rw [moved]
      simp only [List.getElem?_cons_succ, List.take_succ_cons, StringBody.doubled_iff]
  | case3 rest single =>
    refine UpTo.front ⟨rfl, fun doubled => ?_, StringBody.nil⟩ 1
    rw [List.getElem?_cons_succ, ← List.head?_eq_getElem?] at doubled
    exact single rest.tail rfl (cons_tail_of_head? doubled).symm
  | case4 c rest single other ih =>
    refine UpTo.cons ?_ (fun index => ?_) ih
    · rintro ⟨found, -⟩
      exact other (Option.some.inj found)
    · simp only [List.getElem?_cons_succ, List.take_succ_cons, StringBody.plain_iff other]

/-! ## Terminators -/

/-- What closes a token. -/
inductive Terminator where
  /-- Two characters, behind the first two of the token. -/
  | pair (first second : Char)
  /-- A character, behind the first one of the token. -/
  | single (stop : Char)
  /-- An apostrophe, behind the text of a string. -/
  | apostrophe
  /-- The end of the line, which does not belong to the token. -/
  | lineEnd

namespace Terminator

/-- Whether a token that starts a source is closed at an index. -/
def Closes (source : List Char) : Terminator → Nat → Prop
  | .pair first second, index =>
    2 ≤ index ∧ source[index]? = some first ∧ source[index + 1]? = some second
  | .single stop, index => 1 ≤ index ∧ source[index]? = some stop
  | .apostrophe, index =>
    1 ≤ index ∧ source[index]? = some '\'' ∧ source[index + 1]? ≠ some '\'' ∧
      StringBody ((source.take index).drop 1)
  | .lineEnd, index => source[index]? = some '\r' ∨ source[index]? = some '\n'

/-- The number of characters of a terminator that belong to the token. -/
def width : Terminator → Nat
  | .pair _ _ => 2
  | .single _ => 1
  | .apostrophe => 1
  | .lineEnd => 0

/-- Whether a text is what a source has up to and including the first place where a token is closed;
the whole source if there is none. -/
def Ends (terminator : Terminator) (source text : List Char) : Prop :=
  UpTo (terminator.Closes source) terminator.width source text

/-- What closes a token of a kind that starts a source; nothing if the token has no delimiters. -/
def of? (kind : Kind) (source : List Char) : Option Terminator :=
  match kind with
  | .comment => some .lineEnd
  | .blockComment => some (.pair '*' '/')
  | .dollarString => some (.pair '$' '$')
  | .string => some .apostrophe
  | .backtick => some (.single '\x60')
  | .identifier => if source.head? = some '"' then some (.single '"') else none
  | .parameter =>
    if source.take 2 = ['\x7b', '\x7b'] then some (.pair '\x7d' '\x7d')
    else if source.take 2 = ['$', '\x7b'] then some (.single '\x7d')
    else none
  | _ => none

variable {c : Char} {source tail rest : List Char}

/-- A scan for a character closes a token behind its first character. -/
theorem single_ends {stop : Char} (split : (Scan.through stop).split source = (tail, rest)) :
    (single stop).Ends (c :: source) (c :: tail) := by
  have scanned : (through stop source).1 = tail := congrArg Prod.fst split
  rw [← scanned]
  refine UpTo.cons (fun found => absurd found.1 (by decide)) (fun index => ?_)
    (through_upTo stop source)
  simp [Closes]

/-- A scan for two characters closes a token behind its first two. -/
theorem pair_ends {first second d : Char} (next : source.head? = some d)
    (split : (Scan.pair first second).split source = (tail, rest)) :
    (pair first second).Ends (c :: source) (c :: tail) := by
  rw [Lexeme.pair_split next] at split
  have scanned : d :: (throughPair first second source.tail).1 = tail := congrArg Prod.fst split
  rw [← scanned, ← cons_tail_of_head? next, List.tail_cons]
  refine UpTo.behind [c, d] (fun index before found => ?_) (fun index => ?_)
    (throughPair_upTo first second source.tail)
  · exact absurd found.1 (Nat.not_le_of_lt before)
  · have moved : [c, d].length + index = index + 1 + 1 := Nat.add_comm 2 index
    rw [moved]
    simp [Closes]

/-- The scan of a string closes a token behind its first character. -/
theorem apostrophe_ends (split : Scan.string.split source = (tail, rest)) :
    apostrophe.Ends (c :: source) (c :: tail) := by
  have scanned : (throughString source).1 = tail := congrArg Prod.fst split
  rw [← scanned]
  refine UpTo.cons (fun found => absurd found.1 (by decide)) (fun index => ?_)
    (throughString_upTo source)
  simp [Closes]

/-- A scan of the characters of a line closes a token at the end of the line. -/
theorem lineEnd_ends (visible : isLineEnd c = false)
    (split : (Scan.run (!isLineEnd ·)).split source = (tail, rest)) :
    lineEnd.Ends (c :: source) (c :: tail) := by
  have scanned : (c :: source).takeWhile (!isLineEnd ·) = c :: tail := by
    rw [List.takeWhile_cons_of_pos (by simp [visible])]
    exact congrArg (c :: ·) (congrArg Prod.fst split)
  rw [← scanned]
  exact line_upTo (c :: source)

/-- Layout has no delimiters. -/
theorem of?_layout {kind : Kind} (layout : kind.isLayout = true) (source : List Char) :
    of? kind source = none := by
  cases kind <;> first | rfl | cases layout

/-- No word starts with a quote. -/
theorem isWordStart_quote : isWordStart '"' = false := by
  decide +kernel

/-- A rule closes a lexeme that has delimiters at its terminator. -/
theorem ends_of {terminator : Terminator}
    (split : (Rule.of c source.head?).scan.split source = (tail, rest))
    (waits : of? ((Rule.of c source.head?).kind tail) (c :: source) = some terminator) :
    terminator.Ends (c :: source) (c :: tail) := by
  cases Rule.starts_of c source.head? with
  | layout found =>
    rw [of?_layout (Rule.isLayout_of_layout? found tail)] at waits
    cases waits
  | comment opens same =>
    rw [same] at split waits
    cases waits
    exact lineEnd_ends (by rw [opens.1]; rfl) split
  | blockComment opens same =>
    rw [same] at split waits
    cases waits
    exact pair_ends opens.2 split
  | string opens same =>
    rw [same] at split waits
    cases waits
    exact apostrophe_ends split
  | name opens same =>
    rw [same] at split waits
    subst opens
    cases waits
    exact single_ends split
  | backtick opens same =>
    rw [same] at split waits
    cases waits
    exact single_ends split
  | mark found same =>
    rw [same] at waits
    rcases Rule.markKind?_eq_some found with ⟨-, rfl⟩ | ⟨-, rfl⟩ | ⟨-, rfl⟩ | ⟨-, rfl⟩ | ⟨-, rfl⟩ <;>
      cases waits
  | number same | double _ same | operator same =>
    rw [same] at waits
    cases waits
  | dollars opens same =>
    rw [same] at split waits
    cases waits
    exact pair_ends opens.2 split
  | braced opens same =>
    obtain ⟨rfl, next⟩ := opens
    rw [same] at split waits
    rw [← cons_tail_of_head? next] at waits
    cases waits
    exact single_ends split
  | template opens same =>
    obtain ⟨rfl, next⟩ := opens
    rw [same] at split waits
    rw [← cons_tail_of_head? next] at waits
    cases waits
    exact pair_ends next split
  | named opens same =>
    rw [same] at waits
    rcases opens with rfl | rfl <;> simp [of?] at waits
  | word start same =>
    have unquoted : (c :: source).head? ≠ some '"' := by
      intro quote
      rw [Option.some.inj quote, isWordStart_quote] at start
      cases start
    have none : of? (wordKind (String.ofList (c :: tail))) (c :: source) = none := by
      rcases Rule.wordKind_cases (String.ofList (c :: tail)) with word | word
      · rw [word]
        rfl
      · rw [word, of?, if_neg unquoted]
    rw [same] at waits
    dsimp only at waits
    rw [none] at waits
    cases waits

/-- The first lexeme of a source is closed at its terminator. -/
theorem ends_of_read {terminator : Terminator}
    (waits : of? (Lexeme.read c source).kind (c :: source) = some terminator) :
    terminator.Ends (c :: source) (c :: (Lexeme.read c source).tail) := by
  rw [Lexeme.read_eq] at waits ⊢
  exact ends_of rfl waits

end Terminator

/-! ## Tokens -/

/-- Every token with delimiters ends right behind the first terminator in the source from its start on,
and with the source where there is no terminator. -/
theorem tokenize_terminated (source : String) : ∀ token ∈ tokenize source,
    ∀ terminator ∈ Terminator.of? token.kind (source.toList.drop token.span.start.offset),
      terminator.Ends (source.toList.drop token.span.start.offset) token.text := by
  intro token member terminator waits
  have start : source.toList.drop Position.first.offset = source.toList := rfl
  rcases read_of_mem_tokensFrom start member with eof | ⟨c, behind, ahead, kind, text⟩
  · rw [eof] at waits
    cases waits
  · rw [ahead, kind] at waits
    rw [ahead, text]
    exact Terminator.ends_of_read waits

/-- The slash of an opening delimiter does not close a comment. -/
theorem tokenize_terminated_comment :
    ⟨.blockComment, "/*/ a */", "/*/ a */", ⟨⟨1, 2, 1⟩, ⟨1, 10, 9⟩⟩⟩ ∈ tokenize "x/*/ a */*/" ∧
      (Terminator.pair '*' '/').Ends ("x/*/ a */*/".toList.drop 1) "/*/ a */".toList := by
  have member : ⟨.blockComment, "/*/ a */", "/*/ a */", ⟨⟨1, 2, 1⟩, ⟨1, 10, 9⟩⟩⟩ ∈
      tokenize "x/*/ a */*/" := by decide +kernel
  exact ⟨member, tokenize_terminated "x/*/ a */*/" _ member (.pair '*' '/') rfl⟩

end SqlLayout
