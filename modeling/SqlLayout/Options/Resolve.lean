import SqlLayout.Options
import SqlLayout.Options.Setting

/-!
# Resolving settings

Named settings are laid over options one by one. Names without a meaning and settings without a
value change nothing; the first value that its option cannot take is an error, and nothing is
changed at all.
-/

namespace SqlLayout

/-- The options that a setting can change. -/
inductive Field where
  /-- Spaces per level. -/
  | indentSize
  /-- Letter case of keywords. -/
  | keywordCase
  /-- Place of commas. -/
  | commaPosition
deriving DecidableEq

namespace Field

/-- The option that a setting's name stands for. Configuration files write words with
underscores, editors in camel case. -/
def ofName? : String → Option Field
  | "indent_size" | "indentSize" => some .indentSize
  | "keyword_case" | "keywordCase" => some .keywordCase
  | "comma_position" | "commaPosition" => some .commaPosition
  | _ => none

/-- What an option requires of its value. -/
def requirement : Field → String
  | .indentSize => "indent size must be a positive integer"
  | .keywordCase => "keyword case must be one of " ++ ", ".intercalate KeywordCase.names
  | .commaPosition => "comma position must be one of " ++ ", ".intercalate CommaPosition.names

end Field

/-- A value that its option cannot take. -/
structure SettingError where
  /-- The option. -/
  field : Field
  /-- The value. -/
  value : Setting
  /-- The name under which the value was given. -/
  name : String
  /-- Where the value was given. -/
  origin : String

namespace SettingError

/-- What is wrong. -/
def message (error : SettingError) : String :=
  error.field.requirement ++ ", got " ++ error.value.shown

/-- What is wrong, and where. -/
def report (error : SettingError) : String :=
  "error: " ++ error.message ++ "\n  --> " ++ error.origin ++ ": " ++ error.name

end SettingError

namespace Options

/-- Gives an option a value, if it can take it. -/
def assign? (options : Options) : Field → Setting → Option Options
  | .indentSize, .int size =>
    if 1 ≤ size then some { options with indentSize := size } else none
  | .keywordCase, .text name =>
    if name ∈ KeywordCase.names then some { options with keywordCase := .ofName name } else none
  | .commaPosition, .text name =>
    if name ∈ CommaPosition.names then some { options with commaPosition := .ofName name }
    else none
  | _, _ => none

/-- Lays named settings over options. -/
def resolve (origin : String) (options : Options) :
    List (String × Setting) → Except SettingError Options
  | [] => .ok options
  | (name, value) :: rest =>
    match Field.ofName? name with
    | none => options.resolve origin rest
    | some field =>
      if value.isGiven then
        match options.assign? field value with
        | some changed => changed.resolve origin rest
        | none => .error ⟨field, value, name, origin⟩
      else options.resolve origin rest

end Options

end SqlLayout
