import SqlLayout.Command.Argument

/-!
# Usage and help texts
-/

namespace SqlLayout.Command

/-- How the command is called. -/
def usageText : String := String.join [
  "usage: sparkfmt [-h] [-o OUTPUT] [-i] [--check] [--indent-size N]\n",
  "                [--keyword-case \x7bupper,lower,preserve\x7d]\n",
  "                [--comma-position \x7bleading,trailing\x7d] [--config FILE]\n",
  "                [--watch] [--debug]\n",
  "                [FILE ...]\n"]

/-- What the command and its options do. -/
def helpText : String := String.join [
  usageText,
  "\n",
  "Spark / Databricks SQL formatter\n",
  "\n",
  "positional arguments:\n",
  "  FILE                  SQL files to format (default: stdin; '-' also reads\n",
  "                        stdin)\n",
  "\n",
  "options:\n",
  "  -h, --help            show this help message and exit\n",
  "  -o OUTPUT, --output OUTPUT\n",
  "                        Output file (default: stdout)\n",
  "  -i, --in-place        Rewrite each file with its formatted text\n",
  "  --check               Write nothing; exit 1 if any file would be reformatted\n",
  "  --indent-size N       Spaces per indent level (default: 2)\n",
  "  --keyword-case \x7bupper,lower,preserve\x7d\n",
  "                        Keyword casing (default: upper)\n",
  "  --comma-position \x7bleading,trailing\x7d\n",
  "                        Where list commas go (default: trailing)\n",
  "  --config FILE         Config file (default: auto-discover sparkfmt.toml)\n",
  "  --watch               Watch a file for changes and reformat it\n",
  "  --debug               Dump tokens to stderr\n"]

namespace UsageError

/-- What is printed for arguments that cannot be used. -/
def report (error : UsageError) : String :=
  usageText ++ "sparkfmt: error: " ++ error.message ++ "\n"

end UsageError

end SqlLayout.Command
