import SqlLayout.Proofs.EditorSettings
import SqlLayout.Proofs.IndentSizes
import SqlLayout.Proofs.WholeDocument

/-!
# Formatting on saving and on demand

An editor says its tab size when it asks for a document to be formatted, but not when the document is about
to be saved, and a session does not remember it. So the two requests are answered alike exactly if the tab
size does not matter: if the editor chose an indentation itself, if the tab size is the one that counts
without a choice, or if no line of the document is indented (`saving_agrees_iff`). In these cases saving a
document that was formatted on demand changes nothing more; in others it may (`saving_undoes_tab_size`).
-/

namespace SqlLayout.Editor

/-! ## Sessions -/

namespace Session

/-- The session after requests, from the start. -/
def after (requests : List Request) : Session :=
  requests.foldl (fun session request => (session.respond request).1) {}

/-- Whether every name stands once in the objects that requests send as settings. -/
def AllSentOnce (requests : List Request) : Prop :=
  ∀ value, Request.configure value ∈ requests → SentOnce value

/-- The settings of a session stay sound under one request. -/
theorem sound_respond {session : Session} (sound : session.settings.Sound) {request : Request}
    (once : ∀ value, request = .configure value → SentOnce value) :
    (session.respond request).1.settings.Sound := by
  cases request with
  | configure value => exact sound.update (once value rfl)
  | openDocument document text => exact sound
  | format document tabSize => exact sound
  | willSave document =>
    rw [respond]
    split <;> exact sound
  | reset => exact ⟨Options.valid_default, fun _ => rfl⟩

/-- The settings of a session are sound after all requests. -/
theorem sound_after {requests : List Request} (once : AllSentOnce requests) :
    (after requests).settings.Sound := by
  induction requests using List.reverseRecOn with
  | nil => exact ⟨Options.valid_default, fun _ => rfl⟩
  | append_singleton requests request ih =>
    rw [after, List.foldl_append, List.foldl_cons, List.foldl_nil, ← after]
    refine sound_respond (ih fun value member => once value (List.mem_append_left _ member)) ?_
    rintro value rfl
    exact once value List.mem_concat_self

end Session

/-! ## Edits -/

/-- A document after edits of it. -/
def applyEdits (edits : List Edit) (document : String) : String :=
  edits.foldl (fun text edit => edit.apply text) document

/-- The edit of a source under one tab size is that under another exactly if the formatted texts are the
same. -/
theorem formatEdit_eq_iff (settings : Settings) (tabSize other : Option Int) (source : String) :
    formatEdit settings tabSize source = formatEdit settings other source ↔
      SqlLayout.format (settings.optionsFor tabSize) source =
        SqlLayout.format (settings.optionsFor other) source := by
  constructor
  · intro same
    rw [formatEdit, formatEdit] at same
    split at same <;> split at same
    next unchanged unchangedToo => exact unchanged.trans unchangedToo.symm
    next => cases same
    next => cases same
    next => exact congrArg Edit.newText (Option.some.inj same)
  · intro same
    rw [formatEdit, formatEdit, same]

/-- The edit of a source leaves the formatted text. -/
theorem applyEdits_formatEdit (settings : Settings) (tabSize : Option Int) (source : String) :
    applyEdits (formatEdit settings tabSize source).toList source =
      SqlLayout.format (settings.optionsFor tabSize) source := by
  rw [formatEdit]
  split
  next unchanged => exact unchanged.symm
  next => exact Edit.apply_eq (Nat.le_refl _)

/-- A positive tab size gives the options of a save exactly if it does not matter: the editor chose an
indentation itself, or the tab size is the indentation that counts without a choice. -/
theorem Settings.optionsFor_eq_iff {settings : Settings} (sound : settings.Sound) {tabSize : Int}
    (positive : 0 < tabSize) :
    settings.optionsFor (some tabSize) = settings.options ↔
      settings.indentSizeExplicit = true ∨ tabSize = ({} : Options).indentSize := by
  rw [optionsFor]
  cases chosen : settings.indentSizeExplicit with
  | true => simp
  | false =>
    have size := sound.indentSize_default chosen
    rw [if_pos (by simp [positive]), ← size]
    simp only [Bool.false_eq_true, false_or]
    constructor
    · exact fun same => congrArg Options.indentSize same.symm ▸ rfl
    · rintro rfl
      rfl

/-- Whether a tab size does not matter for a source: the editor chose an indentation itself, the tab size is
the indentation that counts without a choice, or the layout indents no line. -/
def Settings.Ignores (settings : Settings) (tabSize : Int) (source : String) : Prop :=
  settings.indentSizeExplicit = true ∨ tabSize = ({} : Options).indentSize ∨
    ¬Indents settings.options.keywordCase (pieces settings.options.commaPosition (fuse (tokenize source)))

/-- The tab size does not matter for a source exactly if it does not change the formatted text. -/
theorem Settings.ignores_iff {settings : Settings} (sound : settings.Sound) {tabSize : Int}
    (positive : 0 < tabSize) (source : String) :
    settings.Ignores tabSize source ↔
      SqlLayout.format (settings.optionsFor (some tabSize)) source =
        SqlLayout.format settings.options source := by
  rw [Ignores, ← or_assoc, ← optionsFor_eq_iff sound positive]
  by_cases same : settings.optionsFor (some tabSize) = settings.options
  · simp [same]
  · have chosen : settings.optionsFor (some tabSize) = settings.options.resized tabSize := by
      rcases settings.optionsFor_cases (some tabSize) with ⟨size, found, -, -, resized⟩ | ⟨-, unchanged⟩
      · cases found
        exact resized
      · exact absurd unchanged same
    have differ : tabSize ≠ settings.options.indentSize := by
      rintro rfl
      exact same chosen
    have default : 0 < settings.options.indentSize := sound.valid.indentSize_pos
    rw [chosen, format_resized_eq_iff positive default differ, or_iff_right]
    rwa [← chosen]

/-- Sessions after any requests in which formatting on saving is in effect, with an open document and a
positive tab size. If both can be answered, a request to format the document and one before it is saved are
answered with the same edits exactly if the tab size does not matter: the editor chose an indentation itself,
the tab size is the indentation that counts without a choice, or the layout indents no line between its first
ink and its last; in the first two cases one can be answered if the other can. If the tab size does not matter
and formatting the formatted text changes nothing, nothing more is changed when the document is saved with
the edits of the request to format it. All of this holds whatever memory there is. -/
theorem saving_agrees_iff (memory : Memory) {requests : List Request} (once : Session.AllSentOnce requests)
    {document source : String} {tabSize : Int} (positive : 0 < tabSize)
    (onSave : (Session.after requests).settings.formatOnSave = true)
    (opened : (Session.after requests).documents.lookup document = some source) :
    let session := Session.after requests
    let settings := session.settings
    (settings.indentSizeExplicit = true ∨ tabSize = ({} : Options).indentSize →
      session.fault? memory (.willSave document) = session.fault? memory (.format document tabSize)) ∧
    (session.fault? memory (.willSave document) = none →
      session.fault? memory (.format document tabSize) = none →
      ((session.respond (.willSave document)).2.edits = (session.respond (.format document tabSize)).2.edits ↔
        settings.Ignores tabSize source) ∧
      (settings.Ignores tabSize source →
        ∀ formatted, format? memory settings.options source = .ok formatted →
          format? memory settings.options formatted = .ok formatted →
          ∃ edits, (session.respond (.format document tabSize)).2.edits = some edits ∧
            let edited := (session.respond (.openDocument document (applyEdits edits source))).1
            edited.fault? memory (.willSave document) = none ∧
              (edited.respond (.willSave document)).2.edits = some [])) := by
  intro session settings
  have sound : settings.Sound := Session.sound_after once
  have saves : session.AsksToFormat (.willSave document) document none := .willSave document onSave
  have asks : session.AsksToFormat (.format document tabSize) document (some tabSize) :=
    .format document tabSize
  have plain : settings.optionsFor none = settings.options := rfl
  refine ⟨?_, fun _ _ => ⟨?_, ?_⟩⟩
  · intro unaffected
    rw [Session.fault?_eq saves opened, Session.fault?_eq asks opened,
      (Settings.optionsFor_eq_iff sound positive).2 unaffected, Settings.optionsFor]
  · have listed {edit other : Option Edit} : some edit.toList = some other.toList ↔ edit = other := by
      cases edit <;> cases other <;> simp
    rw [Session.respond_edits saves opened, Session.respond_edits asks opened, listed, formatEdit_eq_iff,
      plain, Settings.ignores_iff sound positive, eq_comm]
  · intro ignores formatted written again
    refine ⟨_, Session.respond_edits asks opened, ?_⟩
    have text : applyEdits (formatEdit settings (some tabSize) source).toList source = formatted := by
      rw [applyEdits_formatEdit, (Settings.ignores_iff sound positive source).1 ignores,
        format_of_format? written]
    intro edited
    have savesEdited : edited.AsksToFormat (.willSave document) document none := .willSave document onSave
    have reopened : edited.documents.lookup document = some formatted := by
      rw [← text]
      exact List.lookup_cons_self
    constructor
    · rw [Session.fault?_eq savesEdited reopened]
      cases found : layoutFault? memory (edited.settings.optionsFor none) (fuse (tokenize formatted)) with
      | none => rfl
      | some fault =>
        have failed : format? memory settings.options formatted = .error fault := format?_eq_error_iff.2 found
        rw [again] at failed
        cases failed
    · rw [Session.respond_edits savesEdited reopened, formatEdit, if_pos]
      · rfl
      · exact format_of_format? again

/-- A document without indented lines is formatted alike with another tab size, and saved as it is then. -/
theorem saving_agrees_without_indentation :
    let memory : Memory := ⟨fun _ _ => false⟩
    let session := Session.after [.configure (.table [("formatOnSave", .bool true)]),
      .openDocument "query" "select a from t"]
    (session.respond (.willSave "query")).2.edits = (session.respond (.format "query" 8)).2.edits ∧
      ∃ edits, (session.respond (.format "query" 8)).2.edits = some edits ∧
        let edited := (session.respond (.openDocument "query" (applyEdits edits "select a from t"))).1
        edited.fault? memory (.willSave "query") = none ∧
          (edited.respond (.willSave "query")).2.edits = some [] := by
  intro memory session
  have once : Session.AllSentOnce [.configure (.table [("formatOnSave", .bool true)]),
      .openDocument "query" "select a from t"] := by
    simp [Session.AllSentOnce, SentOnce, NamesOnce]
  have positive : (0 : Int) < 8 := by decide
  have opened : session.documents.lookup "query" = some "select a from t" := by decide
  obtain ⟨-, answers⟩ := saving_agrees_iff memory once positive (by decide) opened
  obtain ⟨saveFits, fits, flat, sourceFits, textFits, text, again⟩ :
      session.fault? memory (.willSave "query") = none ∧ session.fault? memory (.format "query" 8) = none ∧
        ¬Indents .upper (pieces .trailing (fuse (tokenize "select a from t"))) ∧
        layoutFault? memory {} (fuse (tokenize "select a from t")) = none ∧
        layoutFault? memory {} (fuse (tokenize "SELECT a\nFROM t\n")) = none ∧
        SqlLayout.format {} "select a from t" = "SELECT a\nFROM t\n" ∧
        SqlLayout.format {} "SELECT a\nFROM t\n" = "SELECT a\nFROM t\n" := by
    decide +kernel
  obtain ⟨agrees, saves⟩ := answers saveFits fits
  have written {source : String} (fits : layoutFault? memory {} (fuse (tokenize source)) = none)
      (text : SqlLayout.format {} source = "SELECT a\nFROM t\n") :
      format? memory {} source = .ok "SELECT a\nFROM t\n" := by
    rw [format?_eq_ok fits, text]
  have ignores : session.settings.Ignores 8 "select a from t" := .inr (.inr flat)
  exact ⟨agrees.2 ignores, saves ignores _ (written sourceFits text) (written textFits again)⟩

/-- A session that formats on saving answers with another indentation than the editor's tab size, and saving
a document that was formatted on demand changes it again. -/
theorem saving_undoes_tab_size :
    let session := Session.after [.configure (.table [("formatOnSave", .bool true)]),
      .openDocument "query" "select a, b"]
    let edited := (session.respond (.openDocument "query" "SELECT\n    a,\n    b\n")).1
    session.settings.formatOnSave = true ∧
      (session.respond (.format "query" 4)).2.edits = some [⟨1, "SELECT\n    a,\n    b\n"⟩] ∧
      (session.respond (.willSave "query")).2.edits = some [⟨1, "SELECT\n  a,\n  b\n"⟩] ∧
      (session.respond (.willSave "query")).2.edits ≠ (session.respond (.format "query" 4)).2.edits ∧
      (edited.respond (.format "query" 4)).2.edits = some [] ∧
      (edited.respond (.willSave "query")).2.edits = some [⟨3, "SELECT\n  a,\n  b\n"⟩] := by
  decide +kernel

end SqlLayout.Editor
