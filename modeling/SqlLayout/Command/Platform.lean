import SqlLayout.Layout.Width
import SqlLayout.Toml.Value

/-!
# Platforms

Some of what a command does is decided by what it runs on: the memory and the stack of the machine,
what is said of configuration files that break the rules of their format, and the release of the
argument parser. Nothing else in a command depends on any of these.
-/

namespace SqlLayout.Command

/-- What a command runs on. -/
structure Platform where
  /-- The memory of the machine. -/
  memory : Memory
  /-- The stack that configuration files are read on. -/
  stack : Toml.Stack
  /-- What is said of a text that breaks the rules of configuration files. -/
  describe : String → String
  /-- Whether a `--` that an option carries as its value is dropped. Earlier releases of the
  argument parser drop it, later ones take it as it is. -/
  dropsDivider : Bool

namespace Platform

/-- A platform with memory and stack enough for everything. -/
def boundless (describe : String → String) : Platform where
  memory := ⟨fun _ _ => false⟩
  stack := ⟨fun _ _ => false⟩
  describe := describe
  dropsDivider := false

end Platform

end SqlLayout.Command
