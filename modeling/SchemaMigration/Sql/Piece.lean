import SchemaMigration.Sql.Quote

/-!
# SQL in pieces

A statement is a list of pieces: words that are written as they are, and names and texts that are
quoted.  Only here do pieces become text, so whatever a name contains, the pieces around it stay
what they are.  Rendering takes the pieces one after the other (`render_append`).
-/
namespace SchemaMigration

/-- A piece of a statement. -/
inductive Piece
  /-- Keywords and punctuation, written as they are. -/
  | word (text : String)
  /-- The name of a table or a column. -/
  | name (text : String)
  /-- The name of an index or a primary key, which was checked to hold no quote. -/
  | plainName (text : String)
  /-- A string that a catalog is asked with. -/
  | literal (text : String)
  /-- A default value. -/
  | value (text : String)
  deriving DecidableEq

/-- A statement in pieces. -/
abbrev Sql := List Piece

namespace Piece

/-- The text of a piece. -/
def render (d : Dialect) : Piece → String
  | word s => s
  | name s => Sql.quotedName d s
  | plainName s => Sql.plainName d s
  | literal s => Sql.literal d s
  | value s => Sql.textValue d s

end Piece

namespace Sql

/-- The text of a statement. -/
def render (d : Dialect) : Sql → String
  | [] => ""
  | piece :: rest => piece.render d ++ render d rest

/-- The parts, with a comma and a space between any two of them. -/
def commaSeparated : List Sql → Sql
  | [] => []
  | [part] => part
  | part :: rest => part ++ .word ", " :: commaSeparated rest

/-- Names of columns, separated by commas, between parentheses. -/
def columnList (columns : List String) : Sql :=
  .word "(" :: commaSeparated (columns.map fun c => [.name c]) ++ [.word ")"]

@[simp] theorem render_nil (d : Dialect) : render d [] = "" := rfl

@[simp] theorem render_cons (d : Dialect) (piece : Piece) (rest : Sql) :
    render d (piece :: rest) = piece.render d ++ render d rest := rfl

@[simp] theorem render_append (d : Dialect) (s t : Sql) :
    render d (s ++ t) = render d s ++ render d t := by
  induction s with
  | nil => simp
  | cons piece rest ih => simp [ih, String.append_assoc]

end Sql
end SchemaMigration
