import SqlLayout.Text.Integer
import SqlLayout.Text.Quoted

/-!
# Setting values

Configuration files and editors supply values of any type for a setting. Messages show a value in
a fixed notation: quoted texts, bracketed lists, braced tables.
-/

namespace SqlLayout

open Text

/-- A value that was supplied for a setting. -/
inductive Setting where
  /-- No value. -/
  | null
  /-- A truth value. -/
  | bool (value : Bool)
  /-- An integer. -/
  | int (value : Int)
  /-- A floating-point number, by its shortest decimal text. -/
  | real (shown : String)
  /-- A text. -/
  | text (value : String)
  /-- A date, a time or both, by its text in messages. -/
  | moment (shown : String)
  /-- A list of values. -/
  | list (items : List Setting)
  /-- Values under names, in order. -/
  | table (entries : List (String × Setting))

namespace Setting

mutual

/-- A value as messages show it. -/
def shown : Setting → String
  | .null => "None"
  | .bool true => "True"
  | .bool false => "False"
  | .int value => Int.repr value
  | .real spelling => spelling
  | .text value => quoted value
  | .moment spelling => spelling
  | .list items => "[" ++ shownItems items ++ "]"
  | .table entries => "\x7b" ++ shownEntries entries ++ "\x7d"

/-- List items with commas between them. -/
def shownItems : List Setting → String
  | [] => ""
  | [item] => item.shown
  | item :: items => item.shown ++ ", " ++ shownItems items

/-- Table entries with commas between them. -/
def shownEntries : List (String × Setting) → String
  | [] => ""
  | [(name, value)] => quoted name ++ ": " ++ value.shown
  | (name, value) :: entries =>
    quoted name ++ ": " ++ value.shown ++ ", " ++ shownEntries entries

end

mutual

/-- Whether messages can show a value: every integer in it has at most `maxDigits` digits. -/
def isShowable : Setting → Bool
  | .int value => value.natAbs < Nat.pow 10 maxDigits
  | .list items => itemsShowable items
  | .table entries => entriesShowable entries
  | _ => true

/-- Whether messages can show list items. -/
def itemsShowable : List Setting → Bool
  | [] => true
  | item :: items => item.isShowable && itemsShowable items

/-- Whether messages can show table entries. -/
def entriesShowable : List (String × Setting) → Bool
  | [] => true
  | (_, value) :: entries => value.isShowable && entriesShowable entries

end

/-- The text of a value that is one. -/
def text? : Setting → Option String
  | .text value => some value
  | _ => none

/-- Whether a value is given. -/
def isGiven : Setting → Bool
  | .null => false
  | _ => true

end Setting

end SqlLayout
