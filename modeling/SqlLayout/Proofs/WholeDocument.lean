import SqlLayout.Editor.Session

/-!
# Edits of whole documents

A document is formatted by one edit that ends at the start of a line, and the two sides count lines in
different ways: a session ends a line at every character that any system uses to end one, an editor only at
line feeds and carriage returns. Every line end of an editor is one of a session, so that behind as many
lines as a session counts an editor finds nothing (`fromLine_eq_nil`); it takes a line that is not there for
the end of the document, and nothing of the old text is left behind the edit.
-/

namespace SqlLayout.Editor

open Text

/-! ## Lines as an editor counts them -/

/-- What stands from the start of a line on, counted from zero, as an editor counts: a line ends at a line
feed, a carriage return or both, and behind the last line nothing stands. -/
def fromLine : Nat → List Char → List Char
  | 0, text => text
  | _ + 1, [] => []
  | line + 1, '\r' :: '\n' :: rest => fromLine line rest
  | line + 1, c :: rest => if c = '\n' ∨ c = '\r' then fromLine line rest else fromLine (line + 1) rest

/-- A document after an edit of it. -/
def Edit.apply (edit : Edit) (document : String) : String :=
  edit.newText ++ String.ofList (fromLine edit.endLine document.toList)

/-- A session ends a line wherever an editor does. -/
theorem isLineBreak_of_editor {c : Char} (ends : c = '\n' ∨ c = '\r') : isLineBreak c = true := by
  rcases ends with rfl | rfl <;> decide

/-- A character alone moves an editor to the next line if it ends one. -/
theorem fromLine_cons (line : Nat) {c : Char} {rest : List Char}
    (apart : ∀ others, c = '\r' → rest = '\n' :: others → False) :
    fromLine (line + 1) (c :: rest) =
      if c = '\n' ∨ c = '\r' then fromLine line rest else fromLine (line + 1) rest := by
  rw [fromLine]
  exact apart

/-- Behind as many lines as a session counts, an editor finds nothing. -/
theorem fromLine_eq_nil {text : List Char} {line : Nat} (behind : (lines text).length ≤ line) :
    fromLine line text = [] := by
  fun_induction lines text generalizing line with
  | case1 => cases line <;> rfl
  | case2 rest ih =>
    obtain ⟨line, rfl⟩ := Nat.exists_eq_add_one_of_ne_zero (Nat.ne_zero_of_lt behind)
    rw [fromLine]
    exact ih (Nat.le_of_succ_le_succ behind)
  | case3 c rest apart ends ih =>
    -- A character that ends a line for the session alone leaves the editor one more line to pass.
    obtain ⟨line, rfl⟩ := Nat.exists_eq_add_one_of_ne_zero (Nat.ne_zero_of_lt behind)
    have after : (lines rest).length ≤ line := Nat.le_of_succ_le_succ behind
    rw [fromLine_cons line apart]
    split
    · exact ih after
    · exact ih (Nat.le_add_right_of_le after)
  | case4 c rest apart goesOn empty ih =>
    obtain ⟨line, rfl⟩ := Nat.exists_eq_add_one_of_ne_zero (Nat.ne_zero_of_lt behind)
    rw [fromLine_cons line apart, if_neg fun ends => goesOn (isLineBreak_of_editor ends)]
    exact ih (by simp [empty])
  | case5 c rest apart goesOn first others split ih =>
    obtain ⟨line, rfl⟩ := Nat.exists_eq_add_one_of_ne_zero (Nat.ne_zero_of_lt behind)
    rw [fromLine_cons line apart, if_neg fun ends => goesOn (isLineBreak_of_editor ends)]
    exact ih (by rwa [split])

/-! ## Requests to format -/

/-- An edit to the start of a line behind the last leaves nothing of the old text. -/
theorem Edit.apply_eq {edit : Edit} {document : String}
    (behind : (lines document.toList).length ≤ edit.endLine) : edit.apply document = edit.newText := by
  rw [Edit.apply, fromLine_eq_nil behind, String.ofList_nil, String.append_empty]

/-- The tab size counts exactly if it is positive and the editor chose no indentation of its own. -/
theorem Settings.optionsFor_cases (settings : Settings) (tabSize : Option Int) :
    (∃ size ∈ tabSize, 0 < size ∧ settings.indentSizeExplicit = false ∧
      settings.optionsFor tabSize = { settings.options with indentSize := size }) ∨
    (∀ size ∈ tabSize, 0 < size → settings.indentSizeExplicit = true) ∧
      settings.optionsFor tabSize = settings.options := by
  cases tabSize with
  | none => exact .inr ⟨nofun, rfl⟩
  | some size =>
    rw [optionsFor]
    split
    next counts =>
      simp only [Bool.and_eq_true, Bool.not_eq_true', decide_eq_true_eq] at counts
      exact .inl ⟨size, rfl, counts.2, counts.1, rfl⟩
    next idle =>
      refine .inr ⟨?_, rfl⟩
      intro _ found positive
      cases found
      simpa [positive] using idle

/-- Whether a request is one to format a document, perhaps with the tab size of the editor. -/
inductive Session.AsksToFormat (session : Session) : Request → String → Option Int → Prop where
  /-- The editor asks and says its tab size. -/
  | format (document : String) (tabSize : Int) :
    session.AsksToFormat (.format document tabSize) document (some tabSize)
  /-- A document is about to be saved, with formatting on saving in effect. -/
  | willSave (document : String) (onSave : session.settings.formatOnSave = true) :
    session.AsksToFormat (.willSave document) document none

namespace Session

variable {memory : Memory} {session : Session} {request : Request} {document source : String}
  {tabSize : Option Int}

/-- The edits that a request to format is answered with. -/
theorem respond_edits (asked : session.AsksToFormat request document tabSize)
    (opened : session.documents.lookup document = some source) :
    (session.respond request).2.edits = some (formatEdit session.settings tabSize source).toList := by
  have edits : (session.formatDocument document tabSize).edits =
      some (formatEdit session.settings tabSize source).toList := by
    rw [formatDocument, opened]
    cases found : formatEdit session.settings tabSize source <;> simp [found]
  cases asked with
  | format => exact edits
  | willSave _ onSave => rwa [respond, onSave, if_pos rfl]

/-- A request to format fails if the layout cannot be written. -/
theorem fault?_eq (asked : session.AsksToFormat request document tabSize)
    (opened : session.documents.lookup document = some source) :
    session.fault? memory request =
      layoutFault? memory (session.settings.optionsFor tabSize) (fuse (tokenize source)) := by
  cases asked with
  | format => rw [fault?, fault?.documentFault?, opened, Option.bind_some]
  | willSave _ onSave => rw [fault?, onSave, if_pos rfl, fault?.documentFault?, opened, Option.bind_some]

end Session

/-- A request to format an open document, with the options in effect but for the indentation, which is the
tab size if that is positive and the editor chose none itself. The request fails exactly as the formatting
does, whatever memory there is. If there is a formatted text, no edit is sent if the document has it already,
and else one edit, by which an editor that counts lines in its own way turns the document into the formatted
text. -/
theorem respond_replaces_whole (memory : Memory) {session : Session} {request : Request}
    {document source : String} {tabSize : Option Int} (asked : session.AsksToFormat request document tabSize)
    (opened : session.documents.lookup document = some source) :
    ∃ options : Options,
      ((∃ size ∈ tabSize, 0 < size ∧ session.settings.indentSizeExplicit = false ∧
          options = { session.settings.options with indentSize := size }) ∨
        (∀ size ∈ tabSize, 0 < size → session.settings.indentSizeExplicit = true) ∧
          options = session.settings.options) ∧
      (∀ fault, session.fault? memory request = some fault ↔ format? memory options source = .error fault) ∧
      ∀ formatted, format? memory options source = .ok formatted →
        ((session.respond request).2.edits = some [] ↔ formatted = source) ∧
        (formatted ≠ source → ∃ edit, (session.respond request).2.edits = some [edit] ∧
          edit.apply source = formatted) := by
  refine ⟨session.settings.optionsFor tabSize, session.settings.optionsFor_cases tabSize, ?_, ?_⟩
  · intro fault
    rw [Session.fault?_eq asked opened, format?_eq_error_iff]
  · intro formatted written
    have same := format_of_format? written
    rw [Session.respond_edits asked opened, formatEdit, same]
    by_cases unchanged : formatted = source
    · simp [unchanged]
    · rw [if_neg unchanged]
      exact ⟨by simp [unchanged], fun _ => ⟨_, rfl, Edit.apply_eq (Nat.le_refl _)⟩⟩

/-- A document in which the session counts a line that the editor does not. -/
theorem respond_replaces_form_feed :
    ∃ edit, (Session.respond { documents := [("query", "select a, b\x0c\r")] } (.format "query" 4)).2.edits =
        some [edit] ∧
      edit.apply "select a, b\x0c\r" = "SELECT\n    a,\n    b\n" := by
  let memory : Memory := ⟨fun _ _ => false⟩
  have asked : Session.AsksToFormat { documents := [("query", "select a, b\x0c\r")] }
    (.format "query" 4) "query" (some 4) := .format "query" 4
  obtain ⟨options, choice, -, answer⟩ := respond_replaces_whole memory asked rfl
  obtain rfl : options = { indentSize := 4 } := by
    rcases choice with ⟨size, found, -, -, chosen⟩ | ⟨idle, -⟩
    · cases found
      exact chosen
    · exact absurd (idle 4 rfl (by decide)) (by decide)
  have fits : layoutFault? memory { indentSize := 4 } (fuse (tokenize "select a, b\x0c\r")) = none := by
    decide +kernel
  have text : format { indentSize := 4 } "select a, b\x0c\r" = "SELECT\n    a,\n    b\n" := by
    decide +kernel
  have written : format? memory { indentSize := 4 } "select a, b\x0c\r" =
      .ok "SELECT\n    a,\n    b\n" := by
    rw [format?_eq_ok fits, text]
  exact (answer _ written).2 (by decide)

end SqlLayout.Editor
