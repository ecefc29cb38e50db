import SqlLayout.Layout.Piece
import SqlLayout.Token.Lookahead

/-!
# The state of a layout

While tokens are laid out from left to right, the state keeps what later tokens depend on: the
indentation, whether a line or a statement has just begun, the parentheses and CASE expressions
that are open, and what the current statement defines.
-/

namespace SqlLayout

/-- Why a parenthesis was opened. -/
inductive ConstructKind where
  /-- Around a query. -/
  | subquery
  /-- Around arguments, a value list or a part of an expression; its contents stay inline. -/
  | grouping
  /-- Around column definitions or table properties. -/
  | block
  /-- Around the arguments of a concatenation of more than two parts. -/
  | concat
deriving DecidableEq

namespace ConstructKind

/-- Whether the contents go on lines of their own. -/
def isMultiline : ConstructKind → Bool
  | .grouping => false
  | _ => true

end ConstructKind

/-- An open parenthesis. -/
structure Construct where
  /-- Why it was opened. -/
  kind : ConstructKind
  /-- The indentation level that holds again behind the closing parenthesis. -/
  outerLevel : Int
  /-- The indentation level of a closing parenthesis on a line of its own. -/
  columnLevel : Int
deriving DecidableEq

/-- What the layout of later tokens depends on. -/
structure State where
  /-- The indentation level of clauses. -/
  indentLevel : Int := 0
  /-- Nothing stands on the current line. -/
  lineStart : Bool := true
  /-- No clause or item of the statement has been laid out. -/
  statementStart : Bool := true
  /-- The open parentheses, innermost first. -/
  constructs : List Construct := []
  /-- For every open CASE, innermost first, the level that holds again behind its END. -/
  caseLevels : List Int := []
  /-- The statement defines an object and its body has not begun. -/
  inDefinition : Bool := false
  /-- The next parenthesis holds column definitions or properties. -/
  awaitsColumns : Bool := false
  /-- The statement defines a function. -/
  inFunction : Bool := false
  /-- A parenthesis with lines of its own has just closed inside an inline one. -/
  afterBlock : Bool := false
  /-- The next selection item starts a line. -/
  awaitsFirstItem : Bool := false
  /-- The last token that is not layout. -/
  last : Option Token := none
deriving DecidableEq

namespace State

/-- The kind of the innermost open parenthesis. -/
def top (state : State) : Option ConstructKind :=
  state.constructs.head?.map Construct.kind

/-- The levels that an item at the start of a line is indented beyond the clauses around it. -/
def contentLevel (state : State) : Int :=
  if state.statementStart || state.top == some .block || state.top == some .concat then 0 else 1

/-- Whether the last token has the given kind. -/
def follows (state : State) (kind : Kind) : Bool :=
  state.last.any fun token => token.kind == kind

/-- The state at the start of the next statement; only the last token is kept. -/
def nextStatement (state : State) : State :=
  { last := state.last }

end State

end SqlLayout
