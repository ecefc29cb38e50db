import SqlLayout.Command.Platform
import SqlLayout.Options.Setting
import SqlLayout.Text.Integer

/-!
# Command-line arguments

Arguments are options, values and files. A long option may be shortened as long as it stays
unambiguous and may carry its value behind an equals sign; short options without a value may be
joined, and a short option may carry its value directly. A number with a minus sign is no option,
and neither is anything behind `--`. All files stand together in one place. On some platforms a
`--` that an option carries as its value is dropped and leaves the option an empty list of values.
-/

namespace SqlLayout.Command

open Text

/-- The options of the command line. -/
inductive Flag where
  /-- Shows the help text. -/
  | help
  /-- Names the output file. -/
  | output
  /-- Writes the formatted text back to the files. -/
  | inPlace
  /-- Only tells which files would change. -/
  | check
  /-- Sets the spaces per level. -/
  | indentSize
  /-- Sets the letter case of keywords. -/
  | keywordCase
  /-- Sets the place of commas. -/
  | commaPosition
  /-- Names the configuration file. -/
  | config
  /-- Formats a file whenever it changes. -/
  | watch
  /-- Shows the tokens. -/
  | debug
deriving DecidableEq

/-- What follows an option. -/
inductive ValueForm where
  /-- No value. -/
  | none
  /-- Any text. -/
  | text
  /-- An integer. -/
  | integer
  /-- One of some words. -/
  | choice (words : List String)

namespace Flag

/-- The spellings of an option. -/
def spellings : Flag → List String
  | .help => ["-h", "--help"]
  | .output => ["-o", "--output"]
  | .inPlace => ["-i", "--in-place"]
  | .check => ["--check"]
  | .indentSize => ["--indent-size"]
  | .keywordCase => ["--keyword-case"]
  | .commaPosition => ["--comma-position"]
  | .config => ["--config"]
  | .watch => ["--watch"]
  | .debug => ["--debug"]

/-- All options in the order in which the help text has them. -/
def all : List Flag :=
  [.help, .output, .inPlace, .check, .indentSize, .keywordCase, .commaPosition, .config, .watch,
    .debug]

/-- Every spelling with its option. -/
def table : List (String × Flag) :=
  all.flatMap fun flag => flag.spellings.map (·, flag)

/-- The option that a text spells out in full. -/
def ofSpelling? (text : String) : Option Flag := table.lookup text

/-- The name of an option in messages. -/
def label (flag : Flag) : String := "/".intercalate flag.spellings

/-- What follows an option. -/
def valueForm : Flag → ValueForm
  | .output | .config => .text
  | .indentSize => .integer
  | .keywordCase => .choice ["upper", "lower", "preserve"]
  | .commaPosition => .choice ["leading", "trailing"]
  | _ => .none

/-- Whether a value follows an option. -/
def takesValue (flag : Flag) : Bool :=
  match flag.valueForm with
  | .none => false
  | _ => true

end Flag

/-- Why arguments cannot be used. -/
inductive UsageError where
  /-- A shortened option has more than one reading. -/
  | ambiguous (argument : String) (candidates : List String)
  /-- A value is missing. -/
  | missingValue (flag : Flag)
  /-- A value is given to an option that takes none. -/
  | unwantedValue (flag : Flag) (value : String)
  /-- A value is no integer. -/
  | invalidInteger (flag : Flag) (value : String)
  /-- A value is none of the words to choose from. -/
  | invalidChoice (flag : Flag) (value : String) (words : List String)
  /-- Some arguments have no meaning. -/
  | unrecognized (arguments : List String)

namespace UsageError

/-- The wording of an error. -/
def message : UsageError → String
  | .ambiguous argument candidates =>
    "ambiguous option: " ++ argument ++ " could match " ++ ", ".intercalate candidates
  | .missingValue flag => "argument " ++ flag.label ++ ": expected one argument"
  | .unwantedValue flag value =>
    "argument " ++ flag.label ++ ": ignored explicit argument " ++ quoted value
  | .invalidInteger flag value =>
    "argument " ++ flag.label ++ ": invalid int value: " ++ quoted value
  | .invalidChoice flag value words =>
    "argument " ++ flag.label ++ ": invalid choice: " ++ quoted value ++ " (choose from " ++
      ", ".intercalate (words.map quoted) ++ ")"
  | .unrecognized arguments => "unrecognized arguments: " ++ " ".intercalate arguments

end UsageError

/-! ## Reading single arguments -/

/-- What an argument is. -/
inductive Word where
  /-- A file, or a value of the option before it. -/
  | plain (text : String)
  /-- The mark behind which there are no options. -/
  | divider
  /-- An option as spelled, possibly with a value in the same argument. -/
  | option (flag : Flag) (spelling : String) (value : Option String)
  /-- Something that looks like an option and is none. -/
  | unknown (text : String)

namespace Word

/-- The argument of a word that can be a file. -/
def plainText? : Word → Option String
  | .plain text => some text
  | .divider => some "--"
  | _ => none

end Word

/-- A text before and behind its first equals sign. -/
def splitValue (text : String) : String × Option String :=
  let before := text.toList.takeWhile (· != '=')
  match text.toList.dropWhile (· != '=') with
  | [] => (text, none)
  | _ :: value => (String.ofList before, some (String.ofList value))

/-- Whether a text is a number with a minus sign: digits, of which some may stand behind a point. A
line break may follow. -/
def isNegativeNumber (text : String) : Bool :=
  let isDecimal (c : Char) := (decimalValue? c).isSome
  match text.toList with
  | '-' :: rest =>
    let body := if rest.getLast? = some '\n' then rest.dropLast else rest
    match body.dropWhile isDecimal with
    | [] => body ≠ []
    | '.' :: behind => behind ≠ [] && behind.all isDecimal
    | _ => false
  | _ => false

/-- The options that an argument can be short for: a long option by its first letters, or a short
option with its value joined to it. -/
def readings (text : String) : List Word :=
  match text.toList with
  | '-' :: '-' :: _ =>
    let (start, value) := splitValue text
    Flag.table.filterMap fun (spelling, flag) =>
      if start.toList.isPrefixOf spelling.toList then some (.option flag spelling value) else none
  | dash :: letter :: value =>
    Flag.table.filterMap fun (spelling, flag) =>
      if spelling = String.ofList [dash, letter] then
        some (.option flag spelling (some (String.ofList value)))
      else none
  | _ => []

/-- The spelling of an option. -/
def spellingOf : Word → String
  | .option _ spelling _ => spelling
  | _ => ""

/-- An argument that starts with a minus sign and spells no option in full. -/
def abbreviated (text : String) : Except UsageError Word :=
  match readings text with
  | [word] => .ok word
  | first :: second :: others =>
    .error (.ambiguous text ((first :: second :: others).map spellingOf))
  | [] => .ok (if isNegativeNumber text || text.toList.contains ' ' then .plain text
      else .unknown text)

/-- What an argument before the divider is. -/
def wordOf (text : String) : Except UsageError Word :=
  if !"-".toList.isPrefixOf text.toList then .ok (.plain text)
  else
    match Flag.ofSpelling? text with
    | some flag => .ok (.option flag text none)
    | none =>
      if text = "-" then .ok (.plain text)
      else
        let (start, value) := splitValue text
        match Flag.ofSpelling? start, value with
        | some flag, some value => .ok (.option flag start (some value))
        | _, _ => abbreviated text

/-- What the arguments are. -/
def wordsOf : List String → Except UsageError (List Word)
  | [] => .ok []
  | "--" :: rest => .ok (.divider :: rest.map .plain)
  | text :: rest => do return (← wordOf text) :: (← wordsOf rest)

/-! ## Reading all arguments -/

/-- What the arguments say. -/
structure Arguments where
  /-- The files, in order. -/
  files : List String := []
  /-- The output file. -/
  output : Option String := none
  /-- Whether files are overwritten. -/
  inPlace : Bool := false
  /-- Whether nothing is written. -/
  check : Bool := false
  /-- Spaces per level. -/
  indentSize : Setting := .null
  /-- Letter case of keywords. -/
  keywordCase : Setting := .null
  /-- Place of commas. -/
  commaPosition : Setting := .null
  /-- The configuration file. -/
  config : Option String := none
  /-- Whether a file is watched. -/
  watch : Bool := false
  /-- Whether tokens are shown. -/
  debug : Bool := false

/-- Why the arguments do not lead to a run. -/
inductive Stop where
  /-- Help was asked for. -/
  | help
  /-- The arguments cannot be used. -/
  | error (cause : UsageError)

/-- What an option is set to by the text of its value. Where `--` is dropped, what is left is an
empty list, which is checked no further. -/
def settingOf (platform : Platform) (flag : Flag) (value : String) : Except UsageError Setting :=
  if platform.dropsDivider && value = "--" then .ok (.list [])
  else
    match flag.valueForm with
    | .integer =>
      match integer? value with
      | some size => .ok (.int size)
      | none => .error (.invalidInteger flag value)
    | .choice words =>
      if words.contains value then .ok (.text value)
      else .error (.invalidChoice flag value words)
    | .text | .none => .ok (.text value)

/-- The arguments read so far with an option set. An output or configuration file is given only if
it is a text. -/
def Arguments.set (arguments : Arguments) (setting : Setting) : Flag → Except Stop Arguments
  | .help => .error .help
  | .output => .ok { arguments with output := setting.text? }
  | .inPlace => .ok { arguments with inPlace := true }
  | .check => .ok { arguments with check := true }
  | .indentSize => .ok { arguments with indentSize := setting }
  | .keywordCase => .ok { arguments with keywordCase := setting }
  | .commaPosition => .ok { arguments with commaPosition := setting }
  | .config => .ok { arguments with config := setting.text? }
  | .watch => .ok { arguments with watch := true }
  | .debug => .ok { arguments with debug := true }

/-- Applies an option to the arguments read so far. -/
def apply (platform : Platform) (arguments : Arguments) (flag : Flag) (value : String) :
    Except Stop Arguments :=
  match settingOf platform flag value with
  | .error cause => .error (.error cause)
  | .ok setting => arguments.set setting flag

/-- Applies options one after the other. -/
def applyAll (platform : Platform) (arguments : Arguments) (flags : List (Flag × String)) :
    Except Stop Arguments :=
  flags.foldlM (fun arguments (flag, value) => apply platform arguments flag value) arguments

/-- The options that are joined in one argument, given the first one and the text behind it: every
one but the last takes no value. The last one has the text that is left as its value, if any. -/
def joined (flag : Flag) (isShort : Bool) :
    List Char → Except UsageError (List Flag × Flag × Option String)
  | [] =>
    if flag.takesValue then .ok ([], flag, some "") else .error (.unwantedValue flag "")
  | letter :: rest =>
    let value := String.ofList (letter :: rest)
    if flag.takesValue then .ok ([], flag, some value)
    else if !isShort then .error (.unwantedValue flag value)
    else
      match Flag.ofSpelling? (String.ofList ['-', letter]), rest with
      | none, _ => .error (.unwantedValue flag value)
      | some next, [] => .ok ([flag], next, none)
      | some next, rest => do
        let (others, last, value) ← joined next true rest
        return (flag :: others, last, value)

/-- The options of one argument, and the value that the last of them has in it. -/
def joinedOptions (flag : Flag) (spelling : String) :
    Option String → Except UsageError (List Flag × Flag × Option String)
  | none => .ok ([], flag, none)
  | some value => joined flag (!"--".toList.isPrefixOf spelling.toList) value.toList

/-- The value of an option, which may be in the same argument or in the next, and the words behind
it. -/
def valueFor (flag : Flag) (value : Option String) (rest : List Word) :
    Except UsageError (String × List Word) :=
  if flag.takesValue then
    match value, rest with
    | some value, rest => .ok (value, rest)
    | none, .plain value :: rest => .ok (value, rest)
    | none, _ => .error (.missingValue flag)
  else .ok ("", rest)

/-- The options of one argument, each with its value, and the words behind the value of the last
one. -/
def optionValues (flag : Flag) (spelling : String) (value : Option String) (rest : List Word) :
    Except UsageError (List (Flag × String) × List Word) :=
  match joinedOptions flag spelling value with
  | .error cause => .error cause
  | .ok (others, last, value) =>
    match valueFor last value rest with
    | .error cause => .error cause
    | .ok (value, after) => .ok (others.map (·, "") ++ [(last, value)], after)

/-- What is behind a value is no longer. -/
theorem length_le_of_valueFor {flag : Flag} {value : Option String} {found : String}
    {rest after : List Word} (h : valueFor flag value rest = .ok (found, after)) :
    after.length ≤ rest.length := by
  unfold valueFor at h
  split at h
  · split at h <;> cases h <;> simp
  · cases h
    exact Nat.le_refl _

/-- What is behind the value of an option is no longer. -/
theorem length_le_of_optionValues {flag : Flag} {spelling : String} {value : Option String}
    {rest after : List Word} {flags : List (Flag × String)}
    (h : optionValues flag spelling value rest = .ok (flags, after)) :
    after.length ≤ rest.length := by
  unfold optionValues at h
  split at h
  · exact nomatch h
  · split at h
    · exact nomatch h
    · rename_i found
      cases h
      exact length_le_of_valueFor found

/-- Where reading stands: the files have one place, and what is read after it but is no option has
no meaning. -/
structure Progress where
  /-- What has been read. -/
  arguments : Arguments := {}
  /-- Whether the place of the files has passed. -/
  filesRead : Bool := false
  /-- The arguments without a meaning. -/
  leftover : List String := []

namespace Progress

/-- Takes arguments that stand together and are no options. -/
def takePlain (progress : Progress) (texts : List String) : Progress :=
  if progress.filesRead then { progress with leftover := progress.leftover ++ texts }
  else
    { progress with
      arguments := { progress.arguments with files := texts.erase "--" }, filesRead := true }

/-- Reads the words that are left. -/
def readWords (platform : Platform) (progress : Progress) : List Word → Except Stop Progress
  | [] => .ok progress
  | .unknown text :: rest =>
    { progress with leftover := progress.leftover ++ [text] }.readWords platform rest
  | .option flag spelling value :: rest =>
    match _values : optionValues flag spelling value rest with
    | .error cause => .error (.error cause)
    | .ok (flags, after) =>
      match applyAll platform progress.arguments flags with
      | .error stop => .error stop
      | .ok arguments => { progress with arguments := arguments }.readWords platform after
  | word :: rest =>
    let plain := (word :: rest).takeWhile (·.plainText?.isSome)
    (progress.takePlain (plain.filterMap Word.plainText?)).readWords platform
      (rest.dropWhile (·.plainText?.isSome))
termination_by words => words.length
decreasing_by
  · simp
  · exact Nat.lt_succ_of_le (length_le_of_optionValues _values)
  · exact Nat.lt_succ_of_le (List.dropWhile_sublist _).length_le

end Progress

/-- Reads the arguments of a command line. -/
def parseArguments (platform : Platform) (texts : List String) : Except Stop Arguments :=
  match wordsOf texts with
  | .error cause => .error (.error cause)
  | .ok words =>
    match Progress.readWords platform {} words with
    | .error stop => .error stop
    | .ok progress =>
      if progress.leftover = [] then .ok progress.arguments
      else .error (.error (.unrecognized progress.leftover))

end SqlLayout.Command
