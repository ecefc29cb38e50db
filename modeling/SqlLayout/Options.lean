/-!
# Formatting options

Three settings steer the layout: how many spaces an indentation level has, in which letter case
keywords are written, and on which side of a line break the commas of a list stand. Options that
were built by hand may hold any integer and any name; `Options.Valid` says which ones the
resolution of settings can produce.
-/

namespace SqlLayout

/-- The letter case in which keywords are written. -/
inductive KeywordCase where
  /-- Upper case. -/
  | upper
  /-- Lower case. -/
  | lower
  /-- As in the source. -/
  | preserve
  /-- A name without a meaning, which acts as upper case. -/
  | other (name : String)
deriving DecidableEq

namespace KeywordCase

/-- The names of the letter cases. -/
def names : List String := ["upper", "lower", "preserve"]

/-- The letter case of a name. -/
def ofName : String → KeywordCase
  | "upper" => .upper
  | "lower" => .lower
  | "preserve" => .preserve
  | name => .other name

/-- The name of a letter case. -/
def name : KeywordCase → String
  | .upper => "upper"
  | .lower => "lower"
  | .preserve => "preserve"
  | .other name => name

end KeywordCase

/-- Where the commas of a list that is spread over lines stand. -/
inductive CommaPosition where
  /-- At the start of the next line. -/
  | leading
  /-- At the end of the line. -/
  | trailing
  /-- A name without a meaning, which acts as leading. -/
  | other (name : String)
deriving DecidableEq

namespace CommaPosition

/-- The names of the comma positions. -/
def names : List String := ["leading", "trailing"]

/-- The comma position of a name. -/
def ofName : String → CommaPosition
  | "leading" => .leading
  | "trailing" => .trailing
  | name => .other name

/-- The name of a comma position. -/
def name : CommaPosition → String
  | .leading => "leading"
  | .trailing => "trailing"
  | .other name => name

end CommaPosition

/-- Settings of the layout. -/
structure Options where
  /-- Spaces per indentation level; without a positive number lines are not indented. -/
  indentSize : Int := 2
  /-- The letter case of keywords. -/
  keywordCase : KeywordCase := .upper
  /-- The place of list commas. -/
  commaPosition : CommaPosition := .trailing
deriving DecidableEq

namespace Options

/-- Options that settings can resolve to. -/
structure Valid (options : Options) : Prop where
  /-- A level has at least one space. -/
  indentSize_pos : 1 ≤ options.indentSize
  /-- The letter case is a known one. -/
  keywordCase_known : options.keywordCase.name ∈ KeywordCase.names
  /-- The comma position is a known one. -/
  commaPosition_known : options.commaPosition.name ∈ CommaPosition.names

/-- The default options are valid. -/
theorem valid_default : Valid {} where
  indentSize_pos := by decide
  keywordCase_known := by decide
  commaPosition_known := by decide

end Options

end SqlLayout
