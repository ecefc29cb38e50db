import SqlLayout.Text.Integer
import SqlLayout.Toml.Number
import SqlLayout.Toml.Table

/-!
# Values of configuration files

Texts, truth values, numbers, moments, arrays and inline tables. Arrays and inline tables nest, so
the readers spend fuel; the length of the document is always enough of it. Nesting itself is
limited by the stack that a document is read on (`Stack`).
-/

namespace SqlLayout.Toml

/-- Why a configuration file cannot be read. -/
inductive Fault where
  /-- It breaks a rule of the format. -/
  | malformed
  /-- A decimal integer has too many digits. -/
  | overlongInteger (digits : Nat)
  /-- Its values are nested too deeply. -/
  | tooDeep
deriving DecidableEq

/-- What a reader found, or else that the document breaks a rule. -/
def expect {α : Type} : Option α → Except Fault α
  | some found => .ok found
  | none => .error .malformed

/-- The key of an entry up to and including its equals sign and the gaps behind it. -/
def entryKey? (text : List Char) : Option (List String × List Char) := do
  let (key, rest) ← key? (text.length + 1) text
  match rest with
  | '=' :: after => return (key, skipGaps after)
  | _ => none

/-- Whether a value is made of others. -/
def isContainer : Setting → Bool
  | .list _ | .table _ => true
  | _ => false

/-- Whether a path leads to or into one of the sealed ones. -/
def isSealed (sealedPaths : List (List String)) (path : List String) : Bool :=
  sealedPaths.any (·.isPrefixOf path)

/-- A value that is not made of others. -/
def scalar? (text : List Char) : Option (Setting × List Char) :=
  match text with
  | '"' :: _ | '\'' :: _ => (text? text).map fun (value, rest) => (.text value, rest)
  | 't' :: 'r' :: 'u' :: 'e' :: rest => some (.bool true, rest)
  | 'f' :: 'a' :: 'l' :: 's' :: 'e' :: rest => some (.bool false, rest)
  | _ => (moment? text).getD (number? text)

/-- Reads a value that is not made of others. -/
def readScalar (text : List Char) : Except Fault (Setting × List Char) :=
  match (integerDigits? text).filter (Text.maxDigits < ·) with
  | some digits => .error (.overlongInteger digits)
  | none => expect (scalar? text)

/-- What a value can be inside of. -/
inductive Container where
  /-- An array. -/
  | array
  /-- An inline table. -/
  | table
deriving DecidableEq

/-- The stack that documents are read on. -/
structure Stack where
  /-- Whether it runs out when a value is read, given what the value is inside of, innermost first,
  and the document from the value on. -/
  exhausted : List Container → List Char → Bool

mutual

/-- Reads a value, given what it is inside of. -/
def readValue (stack : Stack) :
    (fuel : Nat) → List Container → List Char → Except Fault (Setting × List Char)
  | 0, _, _ => .error .malformed
  | fuel + 1, around, text =>
    if stack.exhausted around text then .error .tooDeep
    else
      match text with
      | '[' :: rest => do
        let first ← expect (skipGapsAndComments? rest.length rest)
        let (items, after) ← readItems stack fuel (.array :: around) first
        return (.list items, after)
      | '\x7b' :: rest =>
        match skipGaps rest with
        | '\x7d' :: after => .ok (.table [], after)
        | first => do
          let (entries, after) ← readEntries stack fuel (.table :: around) [] [] first
          return (.table entries, after)
      | _ => readScalar text

/-- Reads the items of an array up to and including its closing bracket. -/
def readItems (stack : Stack) :
    (fuel : Nat) → List Container → List Char → Except Fault (List Setting × List Char)
  | 0, _, _ => .error .malformed
  | _ + 1, _, ']' :: after => .ok ([], after)
  | fuel + 1, around, text => do
    let (item, rest) ← readValue stack fuel around text
    match ← expect (skipGapsAndComments? rest.length rest) with
    | ']' :: after => return ([item], after)
    | ',' :: after => do
      let next ← expect (skipGapsAndComments? after.length after)
      let (others, final) ← readItems stack fuel around next
      return (item :: others, final)
    | _ => .error .malformed

/-- Reads the entries of an inline table up to and including its closing brace, and adds them to
those read so far. Containers among them are sealed against later entries. -/
def readEntries (stack : Stack) :
    (fuel : Nat) → List Container → Entries → (sealedPaths : List (List String)) → List Char →
      Except Fault (Entries × List Char)
  | 0, _, _, _, _ => .error .malformed
  | fuel + 1, around, entries, sealedPaths, text => do
    let (key, rest) ← expect (entryKey? text)
    let (value, rest) ← readValue stack fuel around rest
    let name ← expect key.getLast?
    if isSealed sealedPaths key then .error .malformed
    else
      let entries ← expect (entries.update false (Entries.insert name value) key.dropLast)
      match skipGaps rest with
      | '\x7d' :: after => return (entries, after)
      | ',' :: after =>
        let sealedPaths := if isContainer value then key :: sealedPaths else sealedPaths
        readEntries stack fuel around entries sealedPaths (skipGaps after)
      | _ => .error .malformed

end

end SqlLayout.Toml
