import SqlLayout.Editor.Settings
import SqlLayout.Format
import SqlLayout.Text.Lines

/-!
# Editor sessions

A session keeps the open documents and the settings of an editor and answers requests to format a
document with an edit that replaces the whole of it.
-/

namespace SqlLayout.Editor

open Text

/-- A replacement of a document from its start to the start of a line. -/
structure Edit where
  /-- The number of the line, from zero, at whose start the replaced text ends. -/
  endLine : Nat
  /-- The new text. -/
  newText : String
deriving DecidableEq

/-- The options for a document. Without an indentation of its own choice the editor's tab size
counts, if it is positive. -/
def Settings.optionsFor (settings : Settings) (tabSize : Option Int) : Options :=
  match tabSize with
  | some size =>
    if !settings.indentSizeExplicit && 0 < size then { settings.options with indentSize := size }
    else settings.options
  | none => settings.options

/-- The edit that formats a document, unless it is formatted already. -/
def formatEdit (settings : Settings) (tabSize : Option Int) (source : String) : Option Edit :=
  let formatted := format (settings.optionsFor tabSize) source
  if formatted = source then none else some ⟨(lines source.toList).length, formatted⟩

/-- What a session logs. -/
inductive LogEntry where
  /-- Settings were not taken over. -/
  | rejected (error : SettingError)
  /-- A document was formatted. -/
  | formatted (document : String)

namespace LogEntry

/-- How serious an entry is. -/
def level : LogEntry → String
  | .rejected _ => "WARNING"
  | .formatted _ => "DEBUG"

/-- The wording of an entry. -/
def message : LogEntry → String
  | .rejected error => "ignoring sparkfmt settings: " ++ error.report
  | .formatted document => "formatted " ++ document

end LogEntry

/-- Something an editor asks for. -/
inductive Request where
  /-- Take over settings. -/
  | configure (value : Setting)
  /-- Keep the text of a document. -/
  | openDocument (document text : String)
  /-- Format a document, given the editor's tab size. -/
  | format (document : String) (tabSize : Int)
  /-- Format a document that is about to be saved. -/
  | willSave (document : String)
  /-- Forget all settings. -/
  | reset

/-- What a session answers. -/
structure Reply where
  /-- The edits, for requests to format. -/
  edits : Option (List Edit) := none
  /-- What was logged. -/
  log : List LogEntry := []

/-- The state of a session. -/
structure Session where
  /-- The settings in effect. -/
  settings : Settings := {}
  /-- The open documents with their texts, the last opened first. -/
  documents : List (String × String) := []

namespace Session

/-- The reply to a request to format a document. -/
def formatDocument (session : Session) (document : String) (tabSize : Option Int) : Reply :=
  match session.documents.lookup document with
  | none => { edits := some [] }
  | some source =>
    match formatEdit session.settings tabSize source with
    | none => { edits := some [] }
    | some edit => { edits := some [edit], log := [.formatted document] }

/-- Why the reply to a request cannot be written, if it cannot. -/
def fault? (memory : Memory) (session : Session) : Request → Option LayoutFault
  | .format document tabSize => documentFault? document (some tabSize)
  | .willSave document =>
    if session.settings.formatOnSave then documentFault? document none else none
  | _ => none
where
  /-- Why the layout of a document cannot be written. -/
  documentFault? (document : String) (tabSize : Option Int) : Option LayoutFault :=
    (session.documents.lookup document).bind fun source =>
      layoutFault? memory (session.settings.optionsFor tabSize) (fuse (tokenize source))

/-- The session after a request, and the reply to it. -/
def respond (session : Session) : Request → Session × Reply
  | .configure value =>
    let (settings, error) := session.settings.update value
    ({ session with settings := settings }, { log := error.toList.map .rejected })
  | .openDocument document text =>
    ({ session with documents := (document, text) :: session.documents }, {})
  | .format document tabSize => (session, session.formatDocument document (some tabSize))
  | .willSave document =>
    if session.settings.formatOnSave then (session, session.formatDocument document none)
    else (session, { edits := some [] })
  | .reset => ({ session with settings := {} }, {})

end Session

end SqlLayout.Editor
