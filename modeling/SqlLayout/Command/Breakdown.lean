import SqlLayout.Layout.Width

/-!
# Breakdowns

Most of what goes wrong ends a command with a message and an exit code. A breakdown ends it
abruptly: what was printed and written before stays, and nothing is reported.
-/

namespace SqlLayout.Command

/-- What ends a command abruptly. -/
inductive Breakdown where
  /-- A file is no UTF-8. -/
  | undecodable
  /-- A path holds a null character. -/
  | unnameable
  /-- The configuration file has an integer of too many digits. -/
  | overlongInteger (digits : Nat)
  /-- A message would show an integer of too many digits. -/
  | unshowableInteger
  /-- The values of the configuration file are nested too deeply. -/
  | tooDeep
  /-- A layout cannot be written. -/
  | unwritable (fault : LayoutFault)
deriving DecidableEq

namespace Breakdown

/-- The wording of a breakdown. -/
def message : Breakdown → String
  | .undecodable => "the input is not UTF-8"
  | .unnameable => "a file name holds a null character"
  | .overlongInteger _ => "the configuration has an integer of too many digits"
  | .unshowableInteger => "the configuration has an integer of too many digits for a message"
  | .tooDeep => "the configuration is nested too deeply"
  | .unwritable .overflow => "an indentation is too wide"
  | .unwritable .memory => "memory does not hold the formatted text"

end Breakdown

end SqlLayout.Command
