import SchemaMigration.Program

/-!
# Guarded changes

A guarded change looks into the catalog first and carries out only what is still to do, so that a
step that was interrupted can be run again.  The result says whether anything was changed.

Creating, adding and altering check the whole description before they look; dropping looks first.
-/
namespace SchemaMigration
namespace Guarded

/-- The statements of the change, once it is known that something is to do. -/
def carryOut (d : Dialect) (change : Change) : Program Bool := do
  Program.perform d change
  return true

/-- There is nothing to do. -/
def skip (e : Event) : Program Bool := do
  Program.note e
  return false

/-- Fails if the description of the change has a flaw or the dialect does not support it. -/
def requireBuild (d : Dialect) (change : Change) : Program Unit := do
  let _ ← Program.ofExcept (change.build d)

/-- Fails if the description has a flaw. -/
def requireSound (r : Except Flaw Unit) : Program Unit :=
  Program.ofExcept (r.mapError .malformed)

/-- Fails if the table does not exist. -/
def requireTable (table : String) : Program Unit := do
  unless ← Program.holds (.table table) do
    Program.fail (.conflict (.tableMissing table))

/-- Fails if the dialect supports no changes of the kind. -/
def requireSupport (d : Dialect) (change : Change) : Program Unit :=
  if change.supported d then pure () else Program.fail (.unsupported change.operation d)

/-- Whether a list of names in lower case holds the name in any case. -/
def hasName (existing : List String) (name : String) : Bool :=
  Text.lower name ∈ existing

/-- Creates the table unless it exists.  An existing table has to have all columns. -/
def createTable (d : Dialect) (t : Table) : Program Bool := do
  requireSound (t.check d)
  if ← Program.holds (.table t.name) then
    let existing ← Program.askList (.columns t.name)
    let missing := (t.columns.map (·.name)).filter fun c => !hasName existing c
    if missing = [] then skip (.tableExists t.name)
    else Program.fail (.conflict (.columnsMissing t.name missing))
  else carryOut d (.createTable t)

/-- Drops the table if it exists. -/
def dropTable (d : Dialect) (table : String) : Program Bool := do
  if ← Program.holds (.table table) then carryOut d (.dropTable table)
  else skip (.tableAbsent table)

/-- Fails if index names are shared by all tables and another one has the name. -/
def requireFreeIndexName (d : Dialect) (i : Index) : Program Unit := do
  if d.sharesIndexNames then
    match ← Program.askList (.indexTables (i.storedName d)) with
    | [] => pure ()
    | owner :: _ => Program.fail (.conflict (.indexNameTaken i.table (i.storedName d) owner))

/-- Creates the index unless the table has one of that name. -/
def createIndex (d : Dialect) (i : Index) : Program Bool := do
  requireSound (i.check d)
  requireTable i.table
  if ← Program.holds (.index i.table (i.storedName d)) then
    skip (.indexExists i.table (i.storedName d))
  else
    requireFreeIndexName d i
    carryOut d (.createIndex i)

/-- Drops the index if the table has it. -/
def dropIndex (d : Dialect) (table name : String) : Program Bool := do
  if ← Program.holds (.index table (d.fit name)) then carryOut d (.dropIndex table (d.fit name))
  else skip (.indexAbsent table (d.fit name))

/-- Adds the columns that the table does not have. -/
def addColumns (d : Dialect) (table : String) (columns : List Column) : Program Bool := do
  requireBuild d (.addColumns table columns)
  requireTable table
  let existing ← Program.askList (.columns table)
  match columns.filter fun c => !hasName existing c.name with
  | [] => skip (.columnsExist table)
  | missing => carryOut d (.addColumns table missing)

/-- Drops the columns that the table has. -/
def dropColumns (d : Dialect) (table : String) (columns : List String) : Program Bool := do
  let existing ← Program.askList (.columns table)
  match columns.filter (hasName existing) with
  | [] => skip (.columnsAbsent table)
  | present => carryOut d (.dropColumns table present)

/-- Changes the type of a column, which has to exist. -/
def alterColumnType (d : Dialect) (table : String) (c : Column) : Program Bool := do
  requireBuild d (.alterColumnType table c)
  if ← Program.holds (.column table c.name) then carryOut d (.alterColumnType table c)
  else Program.fail (.conflict (.columnMissing table c.name))

/-- Whether the table has the constraint.  A table has one primary key at most, whatever its
name. -/
def holdsConstraint (table name : String) : ConstraintKind → Program Bool
  | .primaryKey => Program.hasPrimaryKey table
  | .unique => Program.holds (.constraint table name)

/-- Adds the constraint unless the table has it. -/
def addConstraint (d : Dialect) (c : Constraint) : Program Bool := do
  requireSound (c.check d)
  requireSupport d (.addConstraint c)
  requireTable c.table
  if ← holdsConstraint c.table (c.storedName d) c.kind then skip (.constraintExists c.table c.name)
  else carryOut d (.addConstraint c)

/-- Drops the constraint if the table has it. -/
def dropConstraint (d : Dialect) (table name : String) (kind : ConstraintKind) :
    Program Bool := do
  requireSupport d (.dropConstraint table name kind)
  if ← holdsConstraint table (d.fit name) kind then
    carryOut d (.dropConstraint table (d.fit name) kind)
  else skip (.constraintAbsent table (d.fit name))

end Guarded

namespace Change

/-- Carries out what is still to do of a change. -/
def ensure (d : Dialect) : Change → Program Bool
  | createTable t => Guarded.createTable d t
  | dropTable table => Guarded.dropTable d table
  | createIndex i => Guarded.createIndex d i
  | dropIndex table name => Guarded.dropIndex d table name
  | addColumns table columns => Guarded.addColumns d table columns
  | dropColumns table columns => Guarded.dropColumns d table columns
  | alterColumnType table c => Guarded.alterColumnType d table c
  | addConstraint c => Guarded.addConstraint d c
  | dropConstraint table name kind => Guarded.dropConstraint d table name kind

/-- Carries out what is still to do of changes, one after the other, up to the first that fails.
Each of them says whether anything was changed. -/
def ensureAll (d : Dialect) : List Change → Program (List Bool)
  | [] => pure []
  | change :: rest => do
    let changed ← change.ensure d
    let others ← ensureAll d rest
    return changed :: others

end Change
end SchemaMigration
