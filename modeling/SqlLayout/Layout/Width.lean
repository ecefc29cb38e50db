import SqlLayout.Layout

/-!
# Layouts that cannot be written

The width of an indentation is computed as a machine integer, and a layout takes memory. How much
there is of it is for the machine to say (`Memory`). A layout that memory holds, and in which every
width is a machine integer, is written as `render` says.
-/

namespace SqlLayout

/-- Why a layout cannot be written. -/
inductive LayoutFault where
  /-- The width of an indentation is no machine integer. -/
  | overflow
  /-- Memory does not hold the layout. -/
  | memory
deriving DecidableEq

/-- The memory of a machine. -/
structure Memory where
  /-- Whether it runs out over a token list that is laid out with some options. -/
  exhausted : Options → List Token → Bool

/-- The greatest machine integer. -/
def maxWidth : Int := 9223372036854775807

/-- Whether a width is a machine integer. -/
def isMachineWidth (width : Int) : Bool :=
  -maxWidth - 1 ≤ width && width ≤ maxWidth

/-- The width of a piece that is an indentation. -/
def Piece.indentWidth (options : Options) : Piece → Int
  | .indent level => options.indentSize * level
  | _ => 0

/-- Why the layout of a token list cannot be written, if it cannot. -/
def layoutFault? (memory : Memory) (options : Options) (tokens : List Token) :
    Option LayoutFault :=
  let layout := pieces options.commaPosition tokens
  if memory.exhausted options tokens then some .memory
  else if layout.all fun piece => isMachineWidth (piece.indentWidth options) then none
  else some .overflow

/-- The formatted text of a token list, if it can be written. -/
def render? (memory : Memory) (options : Options) (tokens : List Token) :
    Except LayoutFault String :=
  match layoutFault? memory options tokens with
  | some fault => .error fault
  | none => .ok (render options tokens)

end SqlLayout
