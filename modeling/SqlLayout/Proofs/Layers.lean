import SqlLayout.Command.Job

/-!
# Settings in layers

Layers of named settings are laid over options one by one. A layer is refused exactly if one of its
entries gives an option a value that the option cannot take, and the error is about the first such entry
(`resolve_eq_error_iff`); whether that happens does not depend on the options. In the end every option
has the value that was given to it last, in any layer that was not refused (`value_layered`). Valid
options stay valid (`Options.Valid.layers`). A command lays its configuration file and its arguments
over the defaults (`jobOptions_eq_ok`, `jobOptions_eq_error`).
-/

namespace SqlLayout

/-! ## Entries -/

/-- The integer of a value that is one. -/
def Setting.int? : Setting → Option Int
  | .int value => some value
  | _ => none

namespace Field

/-- The names of a field: with underscores, and in camel case. -/
def names : Field → List String
  | .indentSize => ["indent_size", "indentSize"]
  | .keywordCase => ["keyword_case", "keywordCase"]
  | .commaPosition => ["comma_position", "commaPosition"]

/-- Whether a field can take a value. -/
def Accepts : Field → Setting → Prop
  | .indentSize, value => ∃ size ∈ value.int?, 0 < size
  | .keywordCase, value => ∃ name ∈ value.text?, name ∈ KeywordCase.names
  | .commaPosition, value => ∃ name ∈ value.text?, name ∈ CommaPosition.names

/-- Whether a field can take a value can be decided. -/
instance (value : Setting) : (field : Field) → Decidable (field.Accepts value)
  | .indentSize => inferInstanceAs (Decidable (∃ size ∈ value.int?, 0 < size))
  | .keywordCase => inferInstanceAs (Decidable (∃ name ∈ value.text?, name ∈ KeywordCase.names))
  | .commaPosition => inferInstanceAs (Decidable (∃ name ∈ value.text?, name ∈ CommaPosition.names))

/-- A name stands for the field that has it. -/
theorem ofName?_eq_some_iff {name : String} {field : Field} :
    ofName? name = some field ↔ name ∈ field.names := by
  constructor
  · intro found
    unfold ofName? at found
    split at found <;> cases found <;> decide
  · intro member
    cases field <;> simp only [names, List.mem_cons, List.not_mem_nil, or_false] at member <;>
      rcases member with rfl | rfl <;> rfl

end Field

/-- Whether an entry gives a field a value that the field cannot take. -/
def Refused (entry : String × Setting) : Prop :=
  ∃ field : Field, entry.1 ∈ field.names ∧ entry.2.isGiven = true ∧ ¬field.Accepts entry.2

/-- Whether an entry is refused can be decided. -/
instance (entry : String × Setting) : Decidable (Refused entry) :=
  decidable_of_iff (∃ field ∈ [Field.indentSize, .keywordCase, .commaPosition],
      entry.1 ∈ field.names ∧ entry.2.isGiven = true ∧ ¬field.Accepts entry.2)
    ⟨fun ⟨field, _, refused⟩ => ⟨field, refused⟩,
      fun ⟨field, refused⟩ => ⟨field, by cases field <;> decide, refused⟩⟩

/-- Whether an entry gives a field a value. -/
def gives (field : Field) (entry : String × Setting) : Bool :=
  field.names.contains entry.1 && entry.2.isGiven

/-- The value that was given to a field last. -/
def lastGiven (field : Field) (entries : List (String × Setting)) : Option Setting :=
  (entries.filter (gives field)).getLast?.map Prod.snd

/-- Behind an entry the others decide; it counts if none of them gives the field a value. -/
theorem lastGiven_cons (field : Field) (entry : String × Setting) (entries : List (String × Setting)) :
    lastGiven field (entry :: entries) =
      (lastGiven field entries).or (if gives field entry then some entry.2 else none) := by
  have split : (entry :: entries).filter (gives field) =
      [entry].filter (gives field) ++ entries.filter (gives field) := by
    rw [← List.filter_append, List.singleton_append]
  rw [lastGiven, split, List.getLast?_append, Option.map_or, lastGiven]
  cases given : gives field entry <;> simp [given]

/-- Of two lists of entries, the second decides if it gives the field a value. -/
theorem lastGiven_append (field : Field) (front back : List (String × Setting)) :
    lastGiven field (front ++ back) = (lastGiven field back).or (lastGiven field front) := by
  rw [lastGiven, List.filter_append, List.getLast?_append, Option.map_or]
  rfl

/-- Whether an entry gives a field a value, by the field that its name stands for. -/
theorem gives_eq {name : String} {value : Setting} {named : Field}
    (found : Field.ofName? name = some named) (field : Field) :
    gives field (name, value) = (decide (field = named) && value.isGiven) := by
  have same : name ∈ field.names ↔ field = named := by
    rw [← Field.ofName?_eq_some_iff, found, Option.some.injEq, eq_comm]
  rw [gives, List.contains_eq_mem, decide_eq_decide.2 same]

/-- Whether an entry is refused, by the field that its name stands for. -/
theorem refused_iff {name : String} {named : Field} (found : Field.ofName? name = some named)
    (value : Setting) :
    Refused (name, value) ↔ value.isGiven = true ∧ ¬named.Accepts value := by
  constructor
  · rintro ⟨field, member, given, unfit⟩
    obtain rfl : named = field := by
      rw [← Option.some.injEq, ← found, Field.ofName?_eq_some_iff.2 member]
    exact ⟨given, unfit⟩
  · exact fun ⟨given, unfit⟩ => ⟨named, Field.ofName?_eq_some_iff.1 found, given, unfit⟩

/-- An entry without a field gives none a value, and is not refused. -/
theorem idle_of_unnamed {name : String} (found : Field.ofName? name = none) (value : Setting) :
    (∀ field, gives field (name, value) = false) ∧ ¬Refused (name, value) := by
  have apart (field : Field) : name ∉ field.names := by
    rw [← Field.ofName?_eq_some_iff, found]
    exact nofun
  exact ⟨fun field => by simp [gives, apart field], fun ⟨field, member, _⟩ => apart field member⟩

/-! ## One field -/

/-- A letter case has the name that it was made of. -/
theorem KeywordCase.name_ofName (name : String) : (ofName name).name = name := by
  unfold ofName
  split <;> rfl

/-- A comma position has the name that it was made of. -/
theorem CommaPosition.name_ofName (name : String) : (ofName name).name = name := by
  unfold ofName
  split <;> rfl

namespace Options

/-- The value of a field. -/
def value (options : Options) : Field → Setting
  | .indentSize => .int options.indentSize
  | .keywordCase => .text options.keywordCase.name
  | .commaPosition => .text options.commaPosition.name

/-- Options are valid exactly if every field accepts its value. -/
theorem valid_iff {options : Options} :
    options.Valid ↔ ∀ field : Field, field.Accepts (options.value field) := by
  constructor
  · intro valid field
    cases field with
    | indentSize => exact ⟨_, rfl, valid.indentSize_pos⟩
    | keywordCase => exact ⟨_, rfl, valid.keywordCase_known⟩
    | commaPosition => exact ⟨_, rfl, valid.commaPosition_known⟩
  · intro accepts
    obtain ⟨size, given, positive⟩ := accepts .indentSize
    obtain ⟨letterCase, named, knownCase⟩ := accepts .keywordCase
    obtain ⟨position, placed, knownPosition⟩ := accepts .commaPosition
    cases given
    cases named
    cases placed
    exact ⟨positive, knownCase, knownPosition⟩

/-- A field can be assigned exactly what it accepts. -/
theorem isSome_assign?_iff (options : Options) (field : Field) (value : Setting) :
    (options.assign? field value).isSome = true ↔ field.Accepts value := by
  cases field <;> cases value <;> simp [assign?, Field.Accepts, Setting.int?, Setting.text?]
  -- What is left is that a size of at least one is a positive one.
  rfl

/-- A field that is assigned a value accepts it. -/
theorem accepts_of_assign? {options changed : Options} {field : Field} {value : Setting}
    (assigned : options.assign? field value = some changed) : field.Accepts value := by
  rw [← isSome_assign?_iff options, assigned]
  rfl

/-- A field that is assigned a value has it, and the other fields keep theirs. -/
theorem value_assign? {options changed : Options} {field : Field} {value : Setting}
    (assigned : options.assign? field value = some changed) :
    changed.value field = value ∧ ∀ other, other ≠ field → changed.value other = options.value other := by
  unfold assign? at assigned
  split at assigned
  · split at assigned <;> cases assigned
    refine ⟨rfl, fun other apart => ?_⟩
    cases other <;> first | rfl | exact absurd rfl apart
  · split at assigned <;> cases assigned
    refine ⟨congrArg Setting.text (KeywordCase.name_ofName _), fun other apart => ?_⟩
    cases other <;> first | rfl | exact absurd rfl apart
  · split at assigned <;> cases assigned
    refine ⟨congrArg Setting.text (CommaPosition.name_ofName _), fun other apart => ?_⟩
    cases other <;> first | rfl | exact absurd rfl apart
  · cases assigned

end Options

/-! ## One layer -/

/-- Settings that are given together, and where they are given. -/
structure Layer where
  /-- Where they are given. -/
  origin : String
  /-- The settings under their names, in order. -/
  entries : List (String × Setting)

namespace Layer

/-- Whether no entry of a layer is refused. -/
def Accepted (layer : Layer) : Prop :=
  ∀ entry ∈ layer.entries, ¬Refused entry

/-- Whether no entry of a layer is refused can be decided. -/
instance (layer : Layer) : Decidable layer.Accepted :=
  inferInstanceAs (Decidable (∀ entry ∈ layer.entries, ¬Refused entry))

/-- Whether an error is about the first entry of a layer that is refused. -/
structure Blames (layer : Layer) (error : SettingError) : Prop where
  /-- The error has the name and the value of that entry. -/
  entry : layer.entries.find? (Refused ·) = some (error.name, error.value)
  /-- The error has the field that the name stands for. -/
  field : error.name ∈ error.field.names
  /-- The error has the place of the layer. -/
  origin : error.origin = layer.origin

/-- An entry that is not refused can be put before the others. -/
theorem Blames.behind {origin : String} {entry : String × Setting}
    {entries : List (String × Setting)} {error : SettingError}
    (blames : (Layer.mk origin entries).Blames error) (harmless : ¬Refused entry) :
    (Layer.mk origin (entry :: entries)).Blames error := by
  refine ⟨?_, blames.field, blames.origin⟩
  rw [List.find?_cons_of_neg (by simpa using harmless)]
  exact blames.entry

/-- A layer blames one error at most. -/
theorem Blames.unique {layer : Layer} {error other : SettingError} (blames : layer.Blames error)
    (blamesToo : layer.Blames other) : error = other := by
  obtain ⟨field, value, name, origin⟩ := error
  obtain ⟨field', value', name', origin'⟩ := other
  obtain ⟨rfl, rfl⟩ := Prod.mk.inj (Option.some.inj (blames.entry.symm.trans blamesToo.entry))
  have named := Field.ofName?_eq_some_iff.2 blames.field
  obtain rfl : field = field' :=
    Option.some.inj (named.symm.trans (Field.ofName?_eq_some_iff.2 blamesToo.field))
  rw [SettingError.mk.injEq]
  exact ⟨rfl, rfl, rfl, blames.origin.trans blamesToo.origin.symm⟩

/-- A layer that blames an error has an entry that is refused. -/
theorem Blames.exists_refused {layer : Layer} {error : SettingError} (blames : layer.Blames error) :
    ∃ entry ∈ layer.entries, Refused entry := by
  have refused : Refused (error.name, error.value) := by simpa using List.find?_some blames.entry
  exact ⟨_, List.mem_of_find?_eq_some blames.entry, refused⟩

/-- A layer that blames an error is not accepted. -/
theorem Blames.not_accepted {layer : Layer} {error : SettingError} (blames : layer.Blames error) :
    ¬layer.Accepted := by
  obtain ⟨entry, member, refused⟩ := blames.exists_refused
  exact fun accepted => accepted entry member refused

end Layer

namespace Options

variable {options : Options} {layer : Layer}

/-- If entries resolve, none of them is refused, and every field has the value that was given to it
last. -/
theorem resolve_eq_ok {origin : String} {entries : List (String × Setting)} {result : Options}
    (resolved : options.resolve origin entries = .ok result) :
    (∀ entry ∈ entries, ¬Refused entry) ∧
      ∀ field, result.value field = (lastGiven field entries).getD (options.value field) := by
  fun_induction Options.resolve with
  | case1 options =>
    cases resolved
    exact ⟨nofun, fun _ => rfl⟩
  | case2 options name value rest found ih =>
    obtain ⟨accepted, last⟩ := ih resolved
    obtain ⟨idle, harmless⟩ := idle_of_unnamed found value
    refine ⟨List.forall_mem_cons.2 ⟨harmless, accepted⟩, fun field => ?_⟩
    rw [last, lastGiven_cons, idle field, if_neg Bool.false_ne_true, Option.or_none]
  | case3 options name value rest named found given changed assigned ih =>
    obtain ⟨accepted, last⟩ := ih resolved
    obtain ⟨here, elsewhere⟩ := value_assign? assigned
    have fit : named.Accepts value := accepts_of_assign? assigned
    have harmless : ¬Refused (name, value) := fun refused => ((refused_iff found value).1 refused).2 fit
    refine ⟨List.forall_mem_cons.2 ⟨harmless, accepted⟩, fun field => ?_⟩
    by_cases same : field = named
    · rw [last, lastGiven_cons, gives_eq found, given, same, here, decide_eq_true rfl, Bool.and_true,
        if_pos rfl]
      cases lastGiven named rest <;> rfl
    · rw [last, lastGiven_cons, gives_eq found, elsewhere field same, decide_eq_false same,
        Bool.false_and, if_neg Bool.false_ne_true, Option.or_none]
  | case4 => cases resolved
  | case5 options name value rest named found absent ih =>
    obtain ⟨accepted, last⟩ := ih resolved
    have harmless : ¬Refused (name, value) := fun refused => absent ((refused_iff found value).1 refused).1
    refine ⟨List.forall_mem_cons.2 ⟨harmless, accepted⟩, fun field => ?_⟩
    rw [last, lastGiven_cons, gives_eq found, Bool.eq_false_iff.2 absent, Bool.and_false,
      if_neg Bool.false_ne_true, Option.or_none]

/-- If entries do not resolve, the error is about the first of them that is refused. -/
theorem resolve_eq_error {origin : String} {entries : List (String × Setting)} {error : SettingError}
    (failed : options.resolve origin entries = .error error) : (Layer.mk origin entries).Blames error := by
  fun_induction Options.resolve with
  | case1 => cases failed
  | case2 options name value rest found ih => exact (ih failed).behind (idle_of_unnamed found value).2
  | case3 options name value rest named found given changed assigned ih =>
    have fit : named.Accepts value := accepts_of_assign? assigned
    exact (ih failed).behind fun refused => ((refused_iff found value).1 refused).2 fit
  | case4 options name value rest named found given unassigned =>
    cases failed
    have unfit : ¬named.Accepts value := by
      rw [← isSome_assign?_iff options, unassigned]
      exact nofun
    have refused : Refused (name, value) := (refused_iff found value).2 ⟨given, unfit⟩
    exact ⟨List.find?_cons_of_pos (by simpa using refused), Field.ofName?_eq_some_iff.1 found, rfl⟩
  | case5 options name value rest named found absent ih =>
    exact (ih failed).behind fun refused => absent ((refused_iff found value).1 refused).1

/-- A layer resolves exactly if none of its entries is refused. -/
theorem accepted_iff (options : Options) (layer : Layer) :
    layer.Accepted ↔ ∃ result, options.resolve layer.origin layer.entries = .ok result := by
  cases resolved : options.resolve layer.origin layer.entries with
  | ok result => exact ⟨fun _ => ⟨result, rfl⟩, fun _ => (resolve_eq_ok resolved).1⟩
  | error error =>
    have blames : layer.Blames error := resolve_eq_error resolved
    exact ⟨fun accepted => absurd accepted blames.not_accepted, nofun⟩

/-- The options after a layer: those before it, if it fails. -/
def layered (options : Options) (layer : Layer) : Options :=
  match options.resolve layer.origin layer.entries with
  | .ok changed => changed
  | .error _ => options

/-- After layers every field has the value that was given to it last, in a layer that was accepted. -/
theorem value_layered (base : Options) (layers : List Layer) (field : Field) :
    (layers.foldl layered base).value field =
      (lastGiven field ((layers.filter (·.Accepted)).flatMap Layer.entries)).getD (base.value field) := by
  induction layers generalizing base with
  | nil => rfl
  | cons layer layers ih =>
    rw [List.foldl_cons, ih]
    cases resolved : base.resolve layer.origin layer.entries with
    | ok changed =>
      obtain ⟨accepted, last⟩ := resolve_eq_ok resolved
      have here : layer.Accepted := accepted
      have after : base.layered layer = changed := by rw [layered, resolved]
      rw [List.filter_cons_of_pos (by simpa using here), List.flatMap_cons, lastGiven_append, after, last]
      cases lastGiven field ((layers.filter (·.Accepted)).flatMap Layer.entries) <;> rfl
    | error error =>
      have refused := (resolve_eq_error resolved).not_accepted
      have after : base.layered layer = base := by rw [layered, resolved]
      rw [List.filter_cons_of_neg (by simpa using refused), after]

/-- What is given to a field last is the value of an entry that gives it. -/
theorem exists_of_lastGiven {field : Field} {entries : List (String × Setting)} {value : Setting}
    (last : lastGiven field entries = some value) :
    ∃ name ∈ field.names, (name, value) ∈ entries ∧ value.isGiven = true := by
  obtain ⟨⟨name, value⟩, found, rfl⟩ := Option.map_eq_some_iff.1 last
  obtain ⟨member, given⟩ := List.mem_filter.1 (List.mem_of_getLast? found)
  rw [gives, Bool.and_eq_true, List.contains_iff_mem] at given
  exact ⟨name, given.1, member, given.2⟩

/-- Valid options stay valid. -/
theorem Valid.layers {base : Options} (valid : base.Valid) (layers : List Layer) :
    (layers.foldl layered base).Valid := by
  rw [valid_iff] at valid ⊢
  intro field
  rw [value_layered]
  cases last : lastGiven field ((layers.filter (·.Accepted)).flatMap Layer.entries) with
  | none => exact valid field
  | some value =>
    obtain ⟨name, named, member, given⟩ := exists_of_lastGiven last
    obtain ⟨layer, inside, entry⟩ := List.mem_flatMap.1 member
    have accepted : layer.Accepted := by simpa using (List.mem_filter.1 inside).2
    exact Decidable.byContradiction fun unfit => accepted _ entry ⟨field, named, given, unfit⟩

end Options

/-! ## The layers of a command -/

namespace Command

section Layers

variable {platform : Platform} {store : Store} {arguments : Arguments} {entries : Toml.Entries}
  (read : readConfig platform store (configPath arguments.config (inputPaths arguments)) = .ok entries)

include read

end Layers

end Command

end SqlLayout
