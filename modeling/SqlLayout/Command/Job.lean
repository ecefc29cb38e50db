import SqlLayout.Command.Argument
import SqlLayout.Command.Breakdown
import SqlLayout.Options.Resolve
import SqlLayout.Storage.Store
import SqlLayout.Toml.Document

/-!
# Jobs

A job is what a command line asks for once its arguments agree with each other and the formatting
options are settled: the defaults, changed by the configuration file, changed by the options of
the command line.
-/

namespace SqlLayout.Command

/-- What is to be done. -/
structure Job where
  /-- The files to format; none stands for the standard input. -/
  inputs : List Path
  /-- The file to write to. -/
  output : Option Path
  /-- Whether files are overwritten. -/
  inPlace : Bool
  /-- Whether nothing is written. -/
  check : Bool
  /-- Whether the file is watched. -/
  watch : Bool
  /-- Whether tokens are shown. -/
  debug : Bool
  /-- The formatting options. -/
  options : Options
deriving DecidableEq

/-- Arguments that do not go together. -/
inductive Conflict where
  /-- The standard input among files. -/
  | stdinAmongFiles
  /-- One output file for several inputs. -/
  | outputForMany
  /-- Nothing to overwrite. -/
  | inPlaceWithoutFiles
  /-- Overwriting and an output file. -/
  | inPlaceWithOutput
  /-- Watching anything but one file. -/
  | watchWithoutOneFile
deriving DecidableEq

namespace Conflict

/-- The wording of a conflict. -/
def message : Conflict → String
  | .stdinAmongFiles => "'-' (stdin) cannot be mixed with file arguments"
  | .outputForMany => "-o/--output requires a single input"
  | .inPlaceWithoutFiles => "--in-place requires file arguments"
  | .inPlaceWithOutput => "--in-place and -o/--output are exclusive"
  | .watchWithoutOneFile => "--watch requires exactly one file"

end Conflict

/-- Why arguments make no job. -/
inductive JobError where
  /-- Arguments do not go together. -/
  | conflict (cause : Conflict)
  /-- An option cannot take its value. -/
  | setting (error : SettingError)
  /-- The configuration file breaks the rules of its format, and what is said of it. -/
  | malformedConfig (reason : String)
  /-- The configuration file cannot be looked for. -/
  | unreachableConfig (error : FileError)
  /-- The configuration file breaks the command down. -/
  | breakdown (cause : Breakdown)

/-- The name of a configuration file that is looked for. -/
def configName : String := "sparkfmt.toml"

/-- A text that is given and not empty. -/
def nonEmpty (text : Option String) : Option String :=
  text.filter (· ≠ "")

/-- The configuration file: the one that is named, or the one beside the first input. -/
def configPath (config : Option String) (inputs : List Path) : Path :=
  match nonEmpty config with
  | some text => .ofText text
  | none => ((inputs.head?.map Path.parent).getD .here).child configName

/-- What a fault in a configuration file means for the job, given what is said of a file that breaks
the rules. -/
def JobError.ofFault (reason : String) : Toml.Fault → JobError
  | .malformed => .malformedConfig reason
  | .overlongInteger digits => .breakdown (.overlongInteger digits)
  | .tooDeep => .breakdown .tooDeep

/-- The entries in the bytes of a configuration file. -/
def parseConfig (platform : Platform) (content : ByteArray) : Except JobError Toml.Entries :=
  match String.fromUTF8? content with
  | none => .error (.breakdown .undecodable)
  | some text =>
    match Toml.parse platform.stack text with
    | .error fault => .error (.ofFault (platform.describe text) fault)
    | .ok entries => .ok entries

/-- The entries of a configuration file; there are none if it is not a file. -/
def readConfig (platform : Platform) (store : Store) (path : Path) :
    Except JobError Toml.Entries :=
  if !path.isNameable then .ok []
  else
    match store.find path with
    | .ok (.file content _) => parseConfig platform content
    | .error .nameTooLong => .error (.unreachableConfig ⟨.nameTooLong, path⟩)
    | _ => .ok []

/-- The formatting options of a configuration file: the table `format` laid over the defaults. -/
def configOptions (path : Path) (entries : Toml.Entries) : Except SettingError Options :=
  match entries.lookup "format" with
  | some (.table settings) => Options.resolve path.shown {} settings
  | _ => .ok {}

/-- The formatting options of the command line, as settings. -/
def flagSettings (arguments : Arguments) : List (String × Setting) := [
  ("indent_size", arguments.indentSize),
  ("keyword_case", arguments.keywordCase),
  ("comma_position", arguments.commaPosition)]

/-- What a value that its option cannot take means for the job. -/
def JobError.ofSetting (error : SettingError) : JobError :=
  if error.value.isShowable then .setting error else .breakdown .unshowableInteger

/-- The files among the arguments; a minus sign stands for the standard input. -/
def inputPaths (arguments : Arguments) : List Path :=
  (arguments.files.filter (· ≠ "-")).map Path.ofText

/-- The first conflict between arguments. -/
def conflict? (arguments : Arguments) : Option Conflict :=
  let count := (inputPaths arguments).length
  let hasOutput := (nonEmpty arguments.output).isSome
  if count ≠ arguments.files.length ∧ count ≠ 0 then some .stdinAmongFiles
  else if hasOutput ∧ 1 < count then some .outputForMany
  else if arguments.inPlace ∧ count = 0 then some .inPlaceWithoutFiles
  else if arguments.inPlace ∧ hasOutput then some .inPlaceWithOutput
  else if arguments.watch ∧ count ≠ 1 then some .watchWithoutOneFile
  else none

/-- The formatting options of a job: defaults, configuration file, command line. -/
def jobOptions (platform : Platform) (store : Store) (arguments : Arguments) :
    Except JobError Options :=
  let path := configPath arguments.config (inputPaths arguments)
  match readConfig platform store path with
  | .error error => .error error
  | .ok entries =>
    match configOptions path entries with
    | .error error => .error (.ofSetting error)
    | .ok options =>
      match options.resolve "command line" (flagSettings arguments) with
      | .error error => .error (.ofSetting error)
      | .ok options => .ok options

/-- The job that arguments ask for. -/
def Job.ofArguments (platform : Platform) (store : Store) (arguments : Arguments) :
    Except JobError Job :=
  match conflict? arguments with
  | some cause => .error (.conflict cause)
  | none =>
    match jobOptions platform store arguments with
    | .error error => .error error
    | .ok options => .ok {
        inputs := inputPaths arguments
        output := (nonEmpty arguments.output).map Path.ofText
        inPlace := arguments.inPlace
        check := arguments.check
        watch := arguments.watch
        debug := arguments.debug
        options := options }

end SqlLayout.Command
