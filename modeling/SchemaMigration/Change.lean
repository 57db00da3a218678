import SchemaMigration.Error
import SchemaMigration.Statement

/-!
# Changes

A change of the schema as it is asked for.  `Change.build` checks it and turns it into the
statements that carry it out; a description with a flaw is refused before the question whether the
dialect supports the change at all.
-/
namespace SchemaMigration

/-- A change of the schema. -/
inductive Change
  | createTable (table : Table)
  | dropTable (table : String)
  | createIndex (index : Index)
  | dropIndex (table name : String)
  | addColumns (table : String) (columns : List Column)
  | dropColumns (table : String) (columns : List String)
  | alterColumnType (table : String) (column : Column)
  | addConstraint (constraint : Constraint)
  | dropConstraint (table name : String) (kind : ConstraintKind)
  deriving DecidableEq

namespace Change

/-- The name of the change in messages. -/
def operation : Change → String
  | createTable _ => "create table"
  | dropTable _ => "drop table"
  | createIndex _ => "create index"
  | dropIndex _ _ => "drop index"
  | addColumns _ _ => "add columns"
  | dropColumns _ _ => "drop columns"
  | alterColumnType _ _ => "alter column type"
  | addConstraint _ => "add constraint"
  | dropConstraint _ _ _ => "drop constraint"

/-- The table that is changed. -/
def table : Change → String
  | createTable t => t.name
  | createIndex i => i.table
  | addConstraint c => c.table
  | dropTable t | dropIndex t _ | addColumns t _ | dropColumns t _ | alterColumnType t _
  | dropConstraint t _ _ => t

/-- The name of an object to drop: anything but nothing. -/
def requireStored (kind name : String) : Except Flaw Unit :=
  if name = "" then .error (.badName kind name .missing) else .ok ()

/-- Every row of the table needs a value for an added column. -/
def requireValues (table : String) (columns : List Column) : Except Flaw Unit :=
  match columns.find? fun c => !c.nullable && c.default.isNone with
  | some c => .error (.addedWithoutValue table c.name)
  | none => .ok ()

/-- Checks the description. -/
def check (d : Dialect) : Change → Except Flaw Unit
  | createTable t => t.check d
  | dropTable t => Name.require d "table" t
  | createIndex i => i.check d
  | dropIndex t name => do
    Name.require d "table" t
    requireStored "index" name
  | addColumns t columns => do
    Name.require d "table" t
    Column.checkAll d t columns
    requireValues t columns
  | dropColumns t columns => do
    Name.require d "table" t
    Name.requireColumns d (.table t) columns
  | alterColumnType t c => do
    Name.require d "table" t
    c.check d
  | addConstraint c => c.check d
  | dropConstraint t name _ => do
    Name.require d "table" t
    requireStored "constraint" name

/-- Whether the dialect can carry out changes of this kind. -/
def supported (d : Dialect) : Change → Bool
  | alterColumnType _ _ => d.altersColumnTypes
  | addConstraint _ | dropConstraint _ _ _ => d.altersConstraints
  | _ => true

/-- The statements of a change without flaws.  Where one `ALTER TABLE` carries one change only, each
column has its own. -/
def statements (d : Dialect) : Change → List Statement
  | createTable t =>
    let key := if t.primaryKey = [] then none else some ⟨t.storedKeyName d, t.primaryKey⟩
    [.createTable t.name t.columns key]
  | dropTable t => [.dropTable t]
  | createIndex i => [.createIndex { i with name := i.storedName d }]
  | dropIndex t name => [.dropIndex t (d.fit name)]
  | addColumns t columns =>
    if d.combinesAlterations then [.addColumns t columns]
    else columns.map fun c => .addColumns t [c]
  | dropColumns t columns =>
    if d.combinesAlterations then [.dropColumns t columns]
    else columns.map fun c => .dropColumns t [c]
  | alterColumnType t c => [.alterColumn t c]
  | addConstraint c => [.addConstraint { c with name := c.storedName d }]
  | dropConstraint t name kind => [.dropConstraint t (d.fit name) kind]

/-- The statements that carry out the change, or why there are none. -/
def build (d : Dialect) (change : Change) : Except MigrationError (List Statement) := do
  (change.check d).mapError .malformed
  if change.supported d then return change.statements d
  else throw (.unsupported change.operation d)

end Change
end SchemaMigration
