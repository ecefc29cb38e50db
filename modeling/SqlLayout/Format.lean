import SqlLayout.Layout.Width
import SqlLayout.Token.LanguageBody
import SqlLayout.Token.Lexer

/-!
# Formatting

Formatting reads the tokens of a source, joins those that act together and lays them out anew.
-/

namespace SqlLayout

/-- The formatted text of a source. -/
def format (options : Options) (source : String) : String :=
  render options (fuse (tokenize source))

/-- The formatted text of a source, if it can be written. -/
def format? (memory : Memory) (options : Options) (source : String) : Except LayoutFault String :=
  render? memory options (fuse (tokenize source))

/-- A source cannot be formatted exactly if its layout cannot be written. -/
theorem format?_eq_error_iff {memory : Memory} {options : Options} {source : String} {fault : LayoutFault} :
    format? memory options source = .error fault ↔
      layoutFault? memory options (fuse (tokenize source)) = some fault := by
  rw [format?, render?]
  cases layoutFault? memory options (fuse (tokenize source)) <;> simp

/-- A source whose layout can be written is formatted. -/
theorem format?_eq_ok {memory : Memory} {options : Options} {source : String}
    (fits : layoutFault? memory options (fuse (tokenize source)) = none) :
    format? memory options source = .ok (format options source) := by
  rw [format?, render?, fits]
  rfl

/-- The formatted text of a source that can be formatted. -/
theorem format_of_format? {memory : Memory} {options : Options} {source formatted : String}
    (written : format? memory options source = .ok formatted) : format options source = formatted := by
  rw [format?, render?] at written
  split at written
  next => cases written
  next => exact Except.ok.inj written

end SqlLayout
