import SqlLayout.Toml.Value

/-!
# Configuration files

A TOML document is a list of statements, one a line: entries, and headers that open a table or add
one to an array of tables. A table is declared once; a table that dotted keys made counts as
declared from the next header on; containers that were written as values cannot be extended.
-/

namespace SqlLayout.Toml

/-- What has been read of a document. -/
structure Document where
  /-- The entries. -/
  entries : Entries := []
  /-- The table that entries go to. -/
  header : List String := []
  /-- The tables that cannot be declared again. -/
  declared : List (List String) := []
  /-- The tables that cannot be declared after the next header. -/
  dotted : List (List String) := []
  /-- The containers that cannot be extended. -/
  sealedPaths : List (List String) := []

namespace Document

/-- The proper prefixes of a key, shortest first. -/
def properPrefixes (key : List String) : List (List String) :=
  (List.range (key.length - 1)).map fun length => key.take (length + 1)

/-- Adds an entry to the current table. -/
def addEntry (document : Document) (key : List String) (value : Setting) : Option Document := do
  let made := (properPrefixes key).map (document.header ++ ·)
  let parent := document.header ++ key.dropLast
  let name ← key.getLast?
  if made.any document.declared.contains || isSealed document.sealedPaths parent then none
  else
    let entries ← document.entries.update true (Entries.insert name value) parent
    return { document with
      entries := entries
      dotted := document.dotted ++ made
      sealedPaths :=
        if isContainer value then (document.header ++ key) :: document.sealedPaths
        else document.sealedPaths }

/-- Closes the current table: what its dotted keys made is declared. -/
def closeTable (document : Document) : Document :=
  { document with declared := document.dotted ++ document.declared, dotted := [] }

/-- Opens a table. -/
def openTable (document : Document) (key : List String) : Option Document := do
  if document.declared.contains key || isSealed document.sealedPaths key then none
  else
    let entries ← document.entries.update true some key
    return { document with
      entries := entries, header := key, declared := key :: document.declared }

/-- Adds a table to an array of tables and opens it. Within it everything can be declared anew. -/
def openItem (document : Document) (key : List String) : Option Document := do
  if isSealed document.sealedPaths key then none
  else
    let name ← key.getLast?
    let entries ← document.entries.update true (Entries.appendTable name) key.dropLast
    return { document with
      entries := entries
      header := key
      declared := key :: document.declared.filter fun path => !key.isPrefixOf path
      sealedPaths := document.sealedPaths.filter fun path => !key.isPrefixOf path }

/-- The key of a header behind its opening brackets, and what is behind the key. -/
def headerKey (text : List Char) : Except Fault (List String × List Char) :=
  expect (key? (text.length + 1) (skipGaps text))

/-- Reads the statement at the start of a line, and what is behind it. -/
def readStatement (stack : Stack) (document : Document) (text : List Char) :
    Except Fault (Document × List Char) :=
  match text with
  | '[' :: '[' :: rest => do
    let (key, after) ← headerKey rest
    match after with
    | ']' :: ']' :: final => return (← expect (document.closeTable.openItem key), final)
    | _ => .error .malformed
  | '[' :: rest => do
    let (key, after) ← headerKey rest
    match after with
    | ']' :: final => return (← expect (document.closeTable.openTable key), final)
    | _ => .error .malformed
  | '#' :: _ => .ok (document, text)
  | '\n' :: _ => .ok (document, text)
  | [] => .ok (document, text)
  | _ => do
    let (key, rest) ← expect (entryKey? text)
    let (value, after) ← readValue stack (2 * rest.length + 2) [] rest
    return (← expect (document.addEntry key value), after)

/-- Reads the remaining lines of a document, of which there are at most `fuel`. -/
def readLines (stack : Stack) (document : Document) :
    (fuel : Nat) → List Char → Except Fault Document
  | 0, _ => .ok document
  | fuel + 1, text => do
    let (document, rest) ← document.readStatement stack (skipGaps text)
    match ← expect (skipComment? (skipGaps rest)) with
    | [] => return document
    | '\n' :: after => document.readLines stack fuel after
    | _ => .error .malformed

end Document

/-- A text with every carriage return before a line feed dropped. -/
def dropReturns : List Char → List Char
  | [] => []
  | '\r' :: '\n' :: rest => '\n' :: dropReturns rest
  | c :: rest => c :: dropReturns rest

/-- Reads the entries of a configuration file. -/
def parse (stack : Stack) (text : String) : Except Fault Entries := do
  let text := dropReturns text.toList
  let document ← Document.readLines stack {} (text.length + 1) text
  return document.entries

end SqlLayout.Toml
