import SqlLayout.Options.Resolve

/-!
# Editor settings

An editor sends its settings as one object, in which those for the formatter may stand in a
section of their own. An object replaces all settings at once; one with an invalid value changes
none of them.
-/

namespace SqlLayout.Editor

/-- The settings in effect. -/
structure Settings where
  /-- The formatting options. -/
  options : Options := {}
  /-- Whether the editor chose the indentation itself. -/
  indentSizeExplicit : Bool := false
  /-- Whether documents are formatted when they are saved. -/
  formatOnSave : Bool := false
deriving DecidableEq

/-- The section for the formatter: the object under its name, or else the whole object. -/
def sectionOf (entries : List (String × Setting)) : List (String × Setting) :=
  match entries.lookup "sparkfmt" with
  | some (.table inner) => inner
  | _ => entries

/-- Whether a setting is present with a value. -/
def isGiven (entries : List (String × Setting)) (name : String) : Bool :=
  (entries.lookup name).any Setting.isGiven

/-- Whether a section asks for formatting on save. The first of the two names decides, if it is
present at all. -/
def asksFormatOnSave (entries : List (String × Setting)) : Bool :=
  match (entries.lookup "format_on_save").or (entries.lookup "formatOnSave") with
  | some (.bool flag) => flag
  | _ => false

namespace Settings

/-- The settings of a section. -/
def ofSection (entries : List (String × Setting)) : Except SettingError Settings :=
  match Options.resolve "editor settings" {} entries with
  | .error error => .error error
  | .ok options => .ok {
      options := options
      indentSizeExplicit := isGiven entries "indent_size" || isGiven entries "indentSize"
      formatOnSave := asksFormatOnSave entries }

/-- The settings after the editor sent a value, and the error that kept them from changing. A value
that is no object changes nothing. -/
def update (settings : Settings) (value : Setting) : Settings × Option SettingError :=
  match value with
  | .table entries =>
    match ofSection (sectionOf entries) with
    | .ok updated => (updated, none)
    | .error error => (settings, some error)
  | _ => (settings, none)

end Settings

end SqlLayout.Editor
