import SqlLayout.Editor.Settings
import SqlLayout.Proofs.Layers

/-!
# The settings that an editor sends

An editor sends values one after another. An object whose section for the formatter has no refused entry
replaces all settings at once, and any other value leaves all of them as they were
(`Settings.update_cases`). So the settings in effect are those of the last object that was accepted, and
the defaults before the first. What they are is said by membership in the section (`Settings.Reads`), which
takes objects in which every name stands once.
-/

namespace SqlLayout.Editor

/-! ## Objects and their sections -/

/-- Whether every name stands once among entries. -/
def NamesOnce (entries : List (String × Setting)) : Prop :=
  (entries.map Prod.fst).Nodup

/-- Whether a value is an object that has the entries as its section for the formatter: an object under the
formatter's name, or itself if there is none. -/
inductive HasSection : Setting → List (String × Setting) → Prop where
  /-- The object under the formatter's name is the section. -/
  | nested {entries inner : List (String × Setting)} (inside : ("sparkfmt", .table inner) ∈ entries) :
    HasSection (.table entries) inner
  /-- Without one the whole object is. -/
  | flat {entries : List (String × Setting)} (outside : ∀ inner, ("sparkfmt", .table inner) ∉ entries) :
    HasSection (.table entries) entries

/-- Whether every name stands once in an object and in the object under the formatter's name, as it does in
whatever an editor sends: its objects are maps. -/
def SentOnce : Setting → Prop
  | .table entries => NamesOnce entries ∧ ∀ inner, ("sparkfmt", .table inner) ∈ entries → NamesOnce inner
  | _ => True

/-- Whether a value is an object with a section that has no refused entry. -/
def Accepted (value : Setting) : Prop :=
  ∃ entries, HasSection value entries ∧ ∀ entry ∈ entries, ¬Refused entry

/-- Where every name stands once, a name finds the value that stands under it. -/
theorem NamesOnce.lookup_eq_some_iff {entries : List (String × Setting)} (once : NamesOnce entries)
    {name : String} {value : Setting} :
    entries.lookup name = some value ↔ (name, value) ∈ entries := by
  induction entries with
  | nil => exact ⟨nofun, nofun⟩
  | cons entry entries ih =>
    obtain ⟨first, here⟩ := entry
    obtain ⟨fresh, once⟩ := List.nodup_cons.1 once
    by_cases same : name = first
    · subst same
      have absent : (name, value) ∉ entries := fun member => fresh (List.mem_map.2 ⟨_, member, rfl⟩)
      simp [absent, eq_comm]
    · have differ : (name == first) = false := beq_eq_false_iff_ne.2 same
      rw [List.lookup_cons, differ, ih once]
      simp [same]

/-- Where every name stands once, a name without a value stands nowhere. -/
theorem NamesOnce.lookup_eq_none_iff {entries : List (String × Setting)} (once : NamesOnce entries)
    {name : String} : entries.lookup name = none ↔ ∀ value, (name, value) ∉ entries := by
  rw [Option.eq_none_iff_forall_ne_some]
  exact forall_congr' fun value => not_congr once.lookup_eq_some_iff

/-- The section of an object is the one that is found in it. -/
theorem hasSection_iff {entries inner : List (String × Setting)} (once : NamesOnce entries) :
    HasSection (.table entries) inner ↔ sectionOf entries = inner := by
  rw [sectionOf]
  split
  next own found =>
    rw [once.lookup_eq_some_iff] at found
    constructor
    · rintro (inside | outside)
      · have same := (once.lookup_eq_some_iff.2 found).symm.trans (once.lookup_eq_some_iff.2 inside)
        exact Setting.table.inj (Option.some.inj same)
      · exact absurd found (outside own)
    · rintro rfl
      exact .nested found
  next unfound =>
    have outside (own : List (String × Setting)) : ("sparkfmt", .table own) ∉ entries :=
      fun member => unfound own (once.lookup_eq_some_iff.2 member)
    constructor
    · rintro (inside | _)
      · exact absurd inside (outside inner)
      · rfl
    · rintro rfl
      exact .flat outside

/-- Every name stands once in the section of an object. -/
theorem SentOnce.of_hasSection {value : Setting} {inner : List (String × Setting)} (once : SentOnce value)
    (own : HasSection value inner) : NamesOnce inner := by
  cases own with
  | nested inside => exact once.2 inner inside
  | flat => exact once.1

/-- A value has one section at most. -/
theorem HasSection.unique {value : Setting} {entries inner : List (String × Setting)}
    (once : SentOnce value) (own : HasSection value entries) (ownToo : HasSection value inner) :
    entries = inner := by
  cases value with
  | table whole => exact ((hasSection_iff once.1).1 own).symm.trans ((hasSection_iff once.1).1 ownToo)
  | _ => cases own

namespace Settings

/-! ## The settings of a section -/

/-- Whether settings are what a section says. -/
structure Reads (entries : List (String × Setting)) (settings : Settings) : Prop where
  /-- Every field has the value that the section gives it last, or the default. -/
  options : ∀ field,
    settings.options.value field = (lastGiven field entries).getD (({} : Options).value field)
  /-- The indentation is chosen exactly if the section gives it a value. -/
  explicit : settings.indentSizeExplicit = true ↔
    ∃ name ∈ Field.indentSize.names, ∃ value, (name, value) ∈ entries ∧ value.isGiven = true
  /-- Documents are formatted on saving exactly if the section says so under the first name, or under the
  second without the first. -/
  onSave : settings.formatOnSave = true ↔ ("format_on_save", .bool true) ∈ entries ∨
    (∀ value, ("format_on_save", value) ∉ entries) ∧ ("formatOnSave", .bool true) ∈ entries

variable {entries : List (String × Setting)}

/-- A name is given exactly if a value stands under it. -/
theorem isGiven_iff (once : NamesOnce entries) (name : String) :
    isGiven entries name = true ↔ ∃ value, (name, value) ∈ entries ∧ value.isGiven = true := by
  simp only [isGiven, Option.any_eq_true, once.lookup_eq_some_iff]

/-- A section asks for formatting on saving under its first name, or under its second without the first. -/
theorem asksFormatOnSave_iff (once : NamesOnce entries) :
    asksFormatOnSave entries = true ↔ ("format_on_save", .bool true) ∈ entries ∨
      (∀ value, ("format_on_save", value) ∉ entries) ∧ ("formatOnSave", .bool true) ∈ entries := by
  have asks : asksFormatOnSave entries = true ↔
      (entries.lookup "format_on_save").or (entries.lookup "formatOnSave") = some (.bool true) := by
    rw [asksFormatOnSave]
    split
    next flag found => rw [found, Option.some.injEq, Setting.bool.injEq]
    next other => exact ⟨nofun, fun found => absurd found (other true)⟩
  rw [asks, Option.or_eq_some_iff, once.lookup_eq_some_iff, once.lookup_eq_none_iff,
    once.lookup_eq_some_iff]

/-- The settings of a section are what it says. -/
theorem reads_of_ofSection (once : NamesOnce entries) {settings : Settings}
    (read : ofSection entries = .ok settings) : settings.Reads entries := by
  rw [ofSection] at read
  split at read
  next => cases read
  next options resolved =>
    cases read
    refine ⟨(Options.resolve_eq_ok resolved).2, ?_, asksFormatOnSave_iff once⟩
    simp only [Bool.or_eq_true, isGiven_iff once, Field.names, List.mem_cons, List.not_mem_nil, or_false,
      or_and_right, exists_or, exists_eq_left]

/-- A section has settings exactly if none of its entries is refused. -/
theorem exists_ofSection_iff :
    (∃ settings, ofSection entries = .ok settings) ↔ ∀ entry ∈ entries, ¬Refused entry := by
  have accepted := Options.accepted_iff {} ⟨"editor settings", entries⟩
  rw [ofSection]
  refine Iff.trans ?_ accepted.symm
  cases Options.resolve "editor settings" {} entries with
  | ok options => exact ⟨fun _ => ⟨options, rfl⟩, fun _ => ⟨_, rfl⟩⟩
  | error error => exact ⟨nofun, nofun⟩

/-- The settings of a section are valid, and without a choice the indentation is the default. -/
theorem valid_of_ofSection {settings : Settings} (read : ofSection entries = .ok settings) :
    settings.options.Valid := by
  rw [ofSection] at read
  split at read
  next => cases read
  next options resolved =>
    cases read
    have layered := Options.valid_default.layers [⟨"editor settings", entries⟩]
    simpa only [List.foldl_cons, List.foldl_nil, Options.layered, resolved] using layered

/-- If a section does not choose the indentation, it is the default. -/
theorem Reads.indentSize_default {settings : Settings} (reads : settings.Reads entries)
    (unchosen : settings.indentSizeExplicit = false) :
    settings.options.indentSize = ({} : Options).indentSize := by
  have value := reads.options .indentSize
  cases last : lastGiven .indentSize entries with
  | none =>
    rw [last] at value
    exact Setting.int.inj value
  | some size =>
    obtain ⟨name, named, member, given⟩ := Options.exists_of_lastGiven last
    have chosen := reads.explicit.2 ⟨name, named, size, member, given⟩
    rw [unchosen] at chosen
    cases chosen

/-! ## One value -/

/-- A value that an editor sends is accepted, and then all settings are those of its section, or it is not,
and then all settings stay as they were. -/
theorem update_cases (settings : Settings) {value : Setting} (once : SentOnce value) :
    (∃ entries, HasSection value entries ∧ NamesOnce entries ∧
      ofSection entries = .ok (settings.update value).1) ∨
    ¬Accepted value ∧ (settings.update value).1 = settings := by
  cases value with
  | table whole =>
    have own : HasSection (.table whole) (sectionOf whole) := (hasSection_iff once.1).2 rfl
    rw [update]
    cases read : ofSection (sectionOf whole) with
    | ok updated => exact .inl ⟨_, own, once.of_hasSection own, read⟩
    | error error =>
      refine .inr ⟨?_, rfl⟩
      rintro ⟨entries, found, accepted⟩
      obtain rfl := (hasSection_iff once.1).1 found
      obtain ⟨updated, readable⟩ := exists_ofSection_iff.2 accepted
      rw [read] at readable
      cases readable
  | _ => exact .inr ⟨fun ⟨entries, found, _⟩ => (nomatch found), rfl⟩

/-- Settings that can be in effect. -/
structure Sound (settings : Settings) : Prop where
  /-- The options are valid. -/
  valid : settings.options.Valid
  /-- Without a choice of the editor's own the indentation is the default. -/
  indentSize_default : settings.indentSizeExplicit = false →
    settings.options.indentSize = ({} : Options).indentSize

/-- Settings stay sound under one value. -/
theorem Sound.update {settings : Settings} (sound : settings.Sound) {value : Setting}
    (once : SentOnce value) : (settings.update value).1.Sound := by
  obtain ⟨entries, -, named, read⟩ | ⟨-, same⟩ := settings.update_cases once
  · exact ⟨valid_of_ofSection read, (reads_of_ofSection named read).indentSize_default⟩
  · rwa [same]

/-! ## All values -/

/-- The settings after values that an editor sent in turn. -/
def updates (settings : Settings) (values : List Setting) : Settings :=
  values.foldl (fun settings value => (settings.update value).1) settings

/-- Settings stay sound under all values. -/
theorem Sound.updates {settings : Settings} (sound : settings.Sound) {values : List Setting}
    (once : ∀ value ∈ values, SentOnce value) : (settings.updates values).Sound := by
  induction values generalizing settings with
  | nil => exact sound
  | cons value values ih =>
    rw [List.forall_mem_cons] at once
    exact ih (sound.update once.1) once.2

/-- Values that are not accepted leave all settings as they were. -/
theorem updates_of_not_accepted (settings : Settings) {values : List Setting}
    (once : ∀ value ∈ values, SentOnce value) (refused : ∀ value ∈ values, ¬Accepted value) :
    settings.updates values = settings := by
  induction values with
  | nil => rfl
  | cons value values ih =>
    rw [List.forall_mem_cons] at once refused
    obtain ⟨entries, own, -, read⟩ | ⟨-, same⟩ := settings.update_cases once.1
    · exact absurd ⟨entries, own, exists_ofSection_iff.1 ⟨_, read⟩⟩ refused.1
    · rw [updates, List.foldl_cons, same]
      exact ih once.2 refused.2

/-- The settings after values are those of the section of the last one that was accepted. -/
theorem ofSection_updates (settings : Settings) {before after : List Setting} {value : Setting}
    {entries : List (String × Setting)} (once : ∀ sent ∈ before ++ value :: after, SentOnce sent)
    (own : HasSection value entries) (accepted : ∀ entry ∈ entries, ¬Refused entry)
    (refused : ∀ later ∈ after, ¬Accepted later) :
    ofSection entries = .ok (settings.updates (before ++ value :: after)) := by
  rw [List.forall_mem_append, List.forall_mem_cons] at once
  obtain ⟨-, here, later⟩ := once
  rw [updates, List.foldl_append, List.foldl_cons, ← updates, ← updates,
    updates_of_not_accepted _ later refused]
  obtain ⟨inner, ownToo, -, read⟩ | ⟨unaccepted, -⟩ := (settings.updates before).update_cases here
  · rwa [own.unique here ownToo]
  · exact absurd ⟨entries, own, accepted⟩ unaccepted

end Settings

/-- The settings in effect while an editor sends one value after another, where every name stands once in
an object and in its section. They are the settings of the section of the last object that was accepted,
read by what stands in it, and the defaults if none was; a value that is not accepted changes none of them.
The options are valid, and without a choice of the editor's own the indentation is the default. -/
theorem settings_follow_last_accepted (values : List Setting) (once : ∀ value ∈ values, SentOnce value) :
    (∀ before value after entries, values = before ++ value :: after → HasSection value entries →
      (∀ entry ∈ entries, ¬Refused entry) → (∀ later ∈ after, ¬Accepted later) →
      Settings.ofSection entries = .ok (Settings.updates {} values) ∧
        (Settings.updates {} values).Reads entries) ∧
    ((∀ value ∈ values, ¬Accepted value) → Settings.updates {} values = {}) ∧
    (∀ value, SentOnce value → ¬Accepted value →
      Settings.updates {} (values ++ [value]) = Settings.updates {} values) ∧
    (Settings.updates {} values).options.Valid ∧
    ((Settings.updates {} values).indentSizeExplicit = false →
      (Settings.updates {} values).options.indentSize = ({} : Options).indentSize) := by
  have sound : (Settings.updates {} values).Sound :=
    Settings.Sound.updates ⟨Options.valid_default, fun _ => rfl⟩ once
  refine ⟨?_, Settings.updates_of_not_accepted {} once, ?_, sound.valid, sound.indentSize_default⟩
  · rintro before value after entries rfl own accepted refused
    have read := Settings.ofSection_updates {} once own accepted refused
    have here : SentOnce value := once value List.mem_append_cons_self
    exact ⟨read, Settings.reads_of_ofSection (here.of_hasSection own) read⟩
  · intro value here refused
    rw [Settings.updates, List.foldl_append, ← Settings.updates, ← Settings.updates]
    exact Settings.updates_of_not_accepted _ (List.forall_mem_singleton.2 here)
      (List.forall_mem_singleton.2 refused)

/-- An object with a section, then a text, then an object without a section that is refused. -/
theorem settings_follow_last_accepted_of_three :
    Settings.updates {} [
        .table [("indent_size", .int 8),
          ("sparkfmt", .table [("indentSize", .int 4), ("formatOnSave", .bool true)])],
        .text "reset",
        .table [("indent_size", .int 0), ("format_on_save", .bool false)]] =
      { options := { indentSize := 4 }, indentSizeExplicit := true, formatOnSave := true } := by
  have textRefused : ¬Accepted (.text "reset") := fun ⟨_, own, _⟩ => nomatch own
  have unfit : Refused ("indent_size", .int 0) := by decide
  have zeroRefused : ¬Accepted (.table [("indent_size", .int 0), ("format_on_save", .bool false)]) := by
    rintro ⟨entries, own, accepted⟩
    cases own with
    | nested inside => simp at inside
    | flat => exact accepted _ List.mem_cons_self unfit
  have read := (settings_follow_last_accepted [
      .table [("indent_size", .int 8),
        ("sparkfmt", .table [("indentSize", .int 4), ("formatOnSave", .bool true)])],
      .text "reset",
      .table [("indent_size", .int 0), ("format_on_save", .bool false)]]
    (by simp [SentOnce, NamesOnce])).1 [] _ _ _ rfl (.nested (List.mem_cons_of_mem _ List.mem_cons_self))
    (by decide) (by simp [textRefused, zeroRefused])
  exact (Except.ok.inj read.1).symm

end SqlLayout.Editor
