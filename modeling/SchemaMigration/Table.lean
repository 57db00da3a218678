import SchemaMigration.Flaw

/-!
# Tables, indexes and constraints

Descriptions of the objects that a schema is made of, their checks, and the names that primary
keys, indexes and constraints are stored under.
-/
namespace SchemaMigration

/-- A table with its columns in order and its primary key. -/
structure Table where
  name : String
  columns : List Column := []
  primaryKey : List String := []
  primaryKeyName : Option String := none
  deriving DecidableEq

namespace Table

/-- The table with one more column. -/
def withColumn (t : Table) (c : Column) : Table :=
  { t with columns := t.columns ++ [c] }

/-- The table with one more column, which has no null values and joins the primary key. -/
def withKeyColumn (t : Table) (c : Column) : Table :=
  { t with columns := t.columns ++ [c.required], primaryKey := t.primaryKey ++ [c.name] }

/-- The name that the primary key is stored under. -/
def storedKeyName (d : Dialect) (t : Table) : String :=
  d.fit (t.primaryKeyName.getD ("pk_" ++ t.name))

/-- Checks the columns of the primary key: none twice, all declared, none nullable. -/
def checkKey (t : Table) (seen : List String) : List String → Except Flaw Unit
  | [] => .ok ()
  | key :: rest => do
    if key ∈ seen then throw (.keyListedTwice t.name key)
    match t.columns.find? (·.name = key) with
    | none => throw (.keyUndeclared t.name key)
    | some c =>
      if c.nullable then throw (.keyNullable t.name key)
      checkKey t (key :: seen) rest

/-- Checks the description of a table. -/
def check (d : Dialect) (t : Table) : Except Flaw Unit := do
  Name.require d "table" t.name
  Column.checkAll d t.name t.columns
  t.checkKey [] t.primaryKey

end Table

/-- An index on a table. -/
structure Index where
  table : String
  name : String
  columns : List String := []
  unique : Bool := false
  deriving DecidableEq

namespace Index

/-- The name that the index is stored under. -/
def storedName (d : Dialect) (i : Index) : String :=
  d.fit i.name

/-- Checks the description of an index. -/
def check (d : Dialect) (i : Index) : Except Flaw Unit := do
  Name.require d "table" i.table
  Name.requireDerived "index" i.name
  Name.requireColumns d (.index i.name) i.columns

end Index

/-- The kinds of constraints that are handled apart from their table. -/
inductive ConstraintKind
  | primaryKey
  | unique
  deriving DecidableEq

/-- A primary key or a unique constraint of a table. -/
structure Constraint where
  table : String
  name : String
  kind : ConstraintKind
  columns : List String := []
  deriving DecidableEq

namespace Constraint

/-- The name that the constraint is stored under. -/
def storedName (d : Dialect) (c : Constraint) : String :=
  d.fit c.name

/-- Checks the description of a constraint. -/
def check (d : Dialect) (c : Constraint) : Except Flaw Unit := do
  Name.require d "table" c.table
  Name.requireDerived "constraint" c.name
  Name.requireColumns d (.constraint c.name) c.columns

end Constraint
end SchemaMigration
