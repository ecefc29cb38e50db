/-!
# Texts and keys of configuration files

Readers of the lexical parts of a TOML document. Each takes the rest of the document and answers
what it read and what is left, or nothing if the document breaks a rule. Line breaks are single
line feeds.
-/

namespace SqlLayout.Toml

/-- Whether a character is a space or a tab. -/
def isGap (c : Char) : Bool := c == ' ' || c == '\t'

/-- Whether a character is a space, a tab or a line break. -/
def isGapOrBreak (c : Char) : Bool := isGap c || c == '\n'

/-- Whether a character may stand in a comment or in a text of one line. -/
def isPlain (c : Char) : Bool := c == '\t' || !(c.toNat < 32 || c.toNat == 127)

/-- Whether a character may stand in a text, of one line or of several. -/
def isAllowed (multiline : Bool) (c : Char) : Bool := isPlain c || (multiline && c == '\n')

/-- The document behind spaces and tabs. -/
def skipGaps (text : List Char) : List Char := text.dropWhile isGap

/-- The document behind a comment, if one stands here. -/
def skipComment? : List Char → Option (List Char)
  | '#' :: rest =>
    if (rest.takeWhile (· != '\n')).all isPlain then some (rest.dropWhile (· != '\n')) else none
  | text => some text

/-- The document behind gaps, line breaks and comments, of which there are at most `fuel`. -/
def skipGapsAndComments? : (fuel : Nat) → List Char → Option (List Char)
  | 0, text => some text
  | fuel + 1, text =>
    match text.dropWhile isGapOrBreak with
    | '#' :: rest => (skipComment? ('#' :: rest)).bind (skipGapsAndComments? fuel)
    | rest => some rest

/-! ## Texts -/

/-- The value of a hexadecimal digit. -/
def hexValue? (c : Char) : Option Nat :=
  if c.isDigit then some (c.toNat - '0'.toNat)
  else if 'a' ≤ c ∧ c ≤ 'f' then some (c.toNat - 'a'.toNat + 10)
  else if 'A' ≤ c ∧ c ≤ 'F' then some (c.toNat - 'A'.toNat + 10)
  else none

/-- A character by its code point in the given number of hexadecimal digits. -/
def hexChar? (width : Nat) (text : List Char) : Option (Char × List Char) := do
  let digits ← (text.take width).mapM hexValue?
  let code := digits.foldl (fun value digit => 16 * value + digit) 0
  if digits.length = width ∧ code.isValidChar then some (Char.ofNat code, text.drop width)
  else none

/-- The document behind a line break that a backslash takes out of a text, and the gaps at the
start of the next line. -/
def skipContinuation? (text : List Char) : Option (List Char) :=
  match skipGaps text with
  | [] => some []
  | '\n' :: rest => some (rest.dropWhile isGapOrBreak)
  | _ => none

/-- The characters that an escape stands for, behind its backslash. -/
def escape? (multiline : Bool) : List Char → Option (List Char × List Char)
  | 'b' :: rest => some (['\x08'], rest)
  | 't' :: rest => some (['\t'], rest)
  | 'n' :: rest => some (['\n'], rest)
  | 'f' :: rest => some (['\x0c'], rest)
  | 'r' :: rest => some (['\r'], rest)
  | '"' :: rest => some (['"'], rest)
  | '\\' :: rest => some (['\\'], rest)
  | 'u' :: rest => (hexChar? 4 rest).map fun (c, after) => ([c], after)
  | 'U' :: rest => (hexChar? 8 rest).map fun (c, after) => ([c], after)
  | c :: rest =>
    if multiline && isGapOrBreak c then
      (skipContinuation? (c :: rest)).map fun after => ([], after)
    else none
  | [] => none

/-- The characters of a text with escapes, up to and including its closing quotes. -/
def basicText? (multiline : Bool) : (fuel : Nat) → List Char → Option (List Char × List Char)
  | 0, _ => none
  | fuel + 1, text =>
    match text with
    | [] => none
    | '\\' :: rest => do
      let (escaped, after) ← escape? multiline rest
      let (others, final) ← basicText? multiline fuel after
      return (escaped ++ others, final)
    | '"' :: rest =>
      if multiline then
        match rest with
        | '"' :: '"' :: after => some ([], after)
        | _ => (basicText? multiline fuel rest).map fun (others, after) => ('"' :: others, after)
      else some ([], rest)
    | c :: rest =>
      if isAllowed multiline c then
        (basicText? multiline fuel rest).map fun (others, after) => (c :: others, after)
      else none

/-- The characters of a text without escapes, up to and including its closing apostrophe. -/
def literalText? (text : List Char) : Option (List Char × List Char) :=
  let body := text.takeWhile (· != '\'')
  match text.dropWhile (· != '\'') with
  | [] => none
  | _ :: rest => if body.all (isAllowed false) then some (body, rest) else none

/-- The characters of a text without escapes of several lines, up to and including its closing
apostrophes. -/
def literalLines? : List Char → Option (List Char × List Char)
  | [] => none
  | '\'' :: '\'' :: '\'' :: rest => some ([], rest)
  | c :: rest =>
    if isAllowed true c then (literalLines? rest).map fun (others, after) => (c :: others, after)
    else none

/-- Up to two quotes right behind the closing ones of a text of several lines belong to it. -/
def extraQuotes (quote : Char) (body text : List Char) : List Char × List Char :=
  let extra := (text.take 2).takeWhile (· == quote)
  (body ++ extra, text.drop extra.length)

/-- The document behind a line break at the very start of a text of several lines. -/
def skipFirstBreak : List Char → List Char
  | '\n' :: rest => rest
  | text => text

/-- A text of any form. -/
def text? : List Char → Option (String × List Char)
  | '"' :: '"' :: '"' :: rest => do
    let (body, after) ← basicText? true (rest.length + 1) (skipFirstBreak rest)
    let (whole, final) := extraQuotes '"' body after
    return (String.ofList whole, final)
  | '"' :: rest => do
    let (body, after) ← basicText? false (rest.length + 1) rest
    return (String.ofList body, after)
  | '\'' :: '\'' :: '\'' :: rest => do
    let (body, after) ← literalLines? (skipFirstBreak rest)
    let (whole, final) := extraQuotes '\'' body after
    return (String.ofList whole, final)
  | '\'' :: rest => do
    let (body, after) ← literalText? rest
    return (String.ofList body, after)
  | _ => none

/-! ## Keys -/

/-- Whether a character may stand in a key without quotes. -/
def isBareKeyChar (c : Char) : Bool :=
  c.isAlphanum || c == '-' || c == '_'

/-- One part of a key. -/
def keyPart? : List Char → Option (String × List Char)
  | '"' :: rest => do
    let (body, after) ← basicText? false (rest.length + 1) rest
    return (String.ofList body, after)
  | '\'' :: rest => do
    let (body, after) ← literalText? rest
    return (String.ofList body, after)
  | text =>
    let bare := text.takeWhile isBareKeyChar
    if bare = [] then none else some (String.ofList bare, text.dropWhile isBareKeyChar)

/-- A key of at most `fuel` parts with dots between them, and the document behind the gaps that
follow it. -/
def key? : (fuel : Nat) → List Char → Option (List String × List Char)
  | 0, _ => none
  | fuel + 1, text => do
    let (part, rest) ← keyPart? text
    match skipGaps rest with
    | '.' :: after =>
      let (others, final) ← key? fuel (skipGaps after)
      return (part :: others, final)
    | after => return ([part], after)

end SqlLayout.Toml
