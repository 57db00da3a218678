import SchemaMigration.World

/-!
# A model of a database

A `Catalog` is what a schema holds: its tables with their columns in order, its indexes and its
constraints, and the versions that history tables record.  `Catalog.carryOut` gives each statement
its effect, `Catalog.server` answers lookups from the catalog.

Stored names are in lower case, and lookups compare names without regard to case.
-/
namespace SchemaMigration

/-- A table that a catalog holds. -/
structure StoredTable where
  name : String
  columns : List Column
  deriving DecidableEq

/-- What a schema holds. -/
structure Catalog where
  tables : List StoredTable := []
  indexes : List Index := []
  constraints : List Constraint := []
  /-- History tables with the versions that they record, in the order of recording. -/
  recorded : List (String × Version) := []
  deriving DecidableEq

/-- Why a database refuses a statement or a question. -/
inductive Fault
  | reservedName (name : String)
  | hiddenFunction (name : String)
  | tableExists (name : String)
  | tableMissing (name : String)
  | tableHasName (name : String)
  | indexExists (name : String)
  | indexMissing (name : String)
  | indexHasName (name : String)
  | columnExists (name : String)
  | columnMissing (name : String)
  | columnUsed (name : String)
  | constraintExists (name : String)
  | constraintMissing (name : String)
  | versionRecorded (history : String)
  | unreadable
  deriving DecidableEq

namespace Fault

/-- The refusal in words. -/
def message : Fault → String
  | reservedName n => "(code: 1) object name reserved for internal use: " ++ n
  | hiddenFunction n => "(code: 1) '" ++ n ++ "' is not a function"
  | tableExists n => "(code: 1) table \"" ++ n ++ "\" already exists"
  | tableMissing n => "(code: 1) no such table: " ++ n
  | tableHasName n => "(code: 1) there is already a table named " ++ n
  | indexExists n => "(code: 1) index " ++ n ++ " already exists"
  | indexMissing n => "(code: 1) no such index: " ++ n
  | indexHasName n => "(code: 1) there is already an index named " ++ n
  | columnExists n => "(code: 1) duplicate column name: " ++ n
  | columnMissing n => "(code: 1) no such column: " ++ n
  | columnUsed n => "(code: 1) cannot drop column: " ++ n
  | constraintExists n => "(code: 1) constraint already exists: " ++ n
  | constraintMissing n => "(code: 1) no such constraint: " ++ n
  | versionRecorded h =>
    "(code: 1555) UNIQUE constraint failed: " ++ h ++ "." ++ History.versionColumn
  | unreadable => "(code: 1) syntax error"

end Fault

namespace Catalog

/-- Whether two names are equal but for the case of their ASCII letters. -/
def sameName (a b : String) : Bool :=
  a.map Char.toLower = b.map Char.toLower

/-- The table of the name. -/
def table? (c : Catalog) (name : String) : Option StoredTable :=
  c.tables.find? fun t => sameName t.name name

/-- Whether there is a table of the name. -/
def hasTable (c : Catalog) (name : String) : Bool :=
  c.tables.any fun t => sameName t.name name

/-- The indexes of the name that stand in the way of another one: all of them where index names are
shared, those of the same table elsewhere. -/
def indexesNamed (d : Dialect) (c : Catalog) (table name : String) : List Index :=
  c.indexes.filter fun i => sameName i.name name && (d.sharesIndexNames || sameName i.table table)

/-- The constraint as it is stored.  MySQL calls every primary key the same. -/
def stored (d : Dialect) (k : Constraint) : Constraint :=
  if d = .mysql ∧ k.kind = .primaryKey then { k with name := "PRIMARY" } else k

/-- The constraints that a request to drop one means.  On MySQL a primary key goes without its
name. -/
def constraintsMeant (d : Dialect) (c : Catalog) (table name : String) (kind : ConstraintKind) :
    List Constraint :=
  c.constraints.filter fun k => sameName k.table table &&
    (if d = .mysql ∧ kind = .primaryKey then decide (k.kind = .primaryKey)
    else sameName k.name name)

/-- Replaces the columns of a table. -/
def setColumns (c : Catalog) (table : String) (columns : List Column) : Catalog :=
  { c with tables := c.tables.map fun t =>
      if sameName t.name table then { t with columns := columns } else t }

/-- The first of the names that is no column. -/
def unknownColumn? (columns : List Column) (names : List String) : Option String :=
  names.find? fun n => !columns.any fun col => sameName col.name n

/-- The effect of adding one column after another. -/
def appendColumns (sofar : List Column) : List Column → Except Fault (List Column)
  | [] => .ok sofar
  | k :: rest =>
    if sofar.any fun old => sameName old.name k.name then .error (.columnExists k.name)
    else appendColumns (sofar ++ [k]) rest

/-- The effect of dropping one column after another. -/
def removeColumns (sofar : List Column) : List String → Except Fault (List Column)
  | [] => .ok sofar
  | name :: rest =>
    if sofar.any fun old => sameName old.name name then
      removeColumns (sofar.filter fun old => !sameName old.name name) rest
    else .error (.columnMissing name)

/-- Whether an index or a constraint of the table is over the column. -/
def usesColumn (c : Catalog) (table column : String) : Bool :=
  (c.indexes.any fun i => sameName i.table table && i.columns.any (sameName · column)) ||
    c.constraints.any fun k => sameName k.table table && k.columns.any (sameName · column)

/-- What is left of the columns of an index or a constraint when columns of its table are dropped.
MySQL takes these columns out of the list and drops what has none left, PostgreSQL drops whatever
is over one of them. -/
def columnsLeft (d : Dialect) (dropped columns : List String) : Option (List String) :=
  let left := columns.filter fun k => !dropped.any (sameName k ·)
  if left = columns then some columns
  else if d = .mysql && left ≠ [] then some left
  else none

/-- Takes dropped columns of a table out of its indexes and constraints. -/
def releaseColumns (d : Dialect) (c : Catalog) (table : String) (dropped : List String) :
    Catalog :=
  { c with
    indexes := c.indexes.filterMap fun i =>
      if sameName i.table table then
        (columnsLeft d dropped i.columns).map fun left => { i with columns := left }
      else some i
    constraints := c.constraints.filterMap fun k =>
      if sameName k.table table then
        (columnsLeft d dropped k.columns).map fun left => { k with columns := left }
      else some k }

/-- The column after `ALTER TABLE` has changed it.  On PostgreSQL the default stays, unless another
one is given. -/
def altered (d : Dialect) (old new : Column) : Column :=
  match d with
  | .postgres => { new with default := new.default.or old.default }
  | _ => new

/-- The effect of a statement. -/
def carryOut (d : Dialect) (c : Catalog) : Statement → Except Fault Catalog
  | .createTable name columns key =>
    if c.hasTable name then .error (.tableExists name)
    else if d.sharesIndexNames && c.indexes.any fun i => sameName i.name name then
      .error (.indexHasName name)
    else
      match unknownColumn? columns (key.toList.flatMap (·.columns)) with
      | some k => .error (.columnMissing k)
      | none =>
        let keys := key.toList.map fun k => stored d ⟨name, k.name, .primaryKey, k.columns⟩
        .ok { c with
          tables := c.tables ++ [⟨name, columns⟩]
          constraints := c.constraints ++ keys }
  | .dropTable name =>
    if c.hasTable name then
      .ok {
        tables := c.tables.filter fun t => !sameName t.name name
        indexes := c.indexes.filter fun i => !sameName i.table name
        constraints := c.constraints.filter fun k => !sameName k.table name
        recorded := c.recorded.filter fun r => !sameName r.1 name }
    else .error (.tableMissing name)
  | .createIndex i =>
    match c.table? i.table with
    | none => .error (.tableMissing i.table)
    | some t =>
      if d.sharesIndexNames && c.hasTable i.name then .error (.tableHasName i.name)
      else if c.indexesNamed d i.table i.name ≠ [] then .error (.indexExists i.name)
      else
        match unknownColumn? t.columns i.columns with
        | some k => .error (.columnMissing k)
        | none => .ok { c with indexes := c.indexes ++ [i] }
  | .dropIndex table name =>
    match c.indexesNamed d table name with
    | [] => .error (.indexMissing name)
    | found => .ok { c with indexes := c.indexes.filter fun i => i ∉ found }
  | .addColumns name columns =>
    match c.table? name with
    | none => .error (.tableMissing name)
    | some t => (appendColumns t.columns columns).map (c.setColumns name)
  | .dropColumns name columns =>
    match c.table? name with
    | none => .error (.tableMissing name)
    | some t =>
      match if d = .sqlite then columns.find? (c.usesColumn name) else none with
      | some used => .error (.columnUsed used)
      | none =>
        (removeColumns t.columns columns).map ((c.releaseColumns d name columns).setColumns name)
  | .alterColumn name column =>
    match c.table? name with
    | none => .error (.tableMissing name)
    | some t =>
      if t.columns.any fun old => sameName old.name column.name then
        .ok <| c.setColumns name <| t.columns.map fun old =>
          if sameName old.name column.name then altered d old column else old
      else .error (.columnMissing column.name)
  | .addConstraint k =>
    match c.table? k.table with
    | none => .error (.tableMissing k.table)
    | some t =>
      if c.constraints.any fun old => sameName old.table k.table &&
          (sameName old.name k.name ||
            (decide (old.kind = .primaryKey) && decide (k.kind = .primaryKey))) then
        .error (.constraintExists k.name)
      else
        match unknownColumn? t.columns k.columns with
        | some n => .error (.columnMissing n)
        | none => .ok { c with constraints := c.constraints ++ [stored d k] }
  | .dropConstraint table name kind =>
    match c.constraintsMeant d table name kind with
    | [] => .error (.constraintMissing name)
    | found => .ok { c with constraints := c.constraints.filter fun k => k ∉ found }
  | .recordVersion history v =>
    if !c.hasTable history then .error (.tableMissing history)
    else if c.recorded.any fun r => sameName r.1 history && decide (r.2 = v) then
      .error (.versionRecorded history)
    else .ok { c with recorded := c.recorded ++ [(history, v)] }
  | .verbatim _ => .error .unreadable

/-- The number of entries that pass a test. -/
def number {α : Type} (p : α → Bool) (l : List α) : Int :=
  (l.countP p : Nat)

/-- The answer to a question after an object. -/
def countObject (c : Catalog) : SchemaObject → Int
  | .table t => number (fun s => sameName s.name t) c.tables
  | .column t n =>
    match c.table? t with
    | some s => number (fun k => sameName k.name n) s.columns
    | none => 0
  | .index t n => number (fun i => sameName i.table t && sameName i.name n) c.indexes
  | .constraint t n => number (fun k => sameName k.table t && sameName k.name n) c.constraints

/-- The answer to a question for a number. -/
def count (c : Catalog) : CountQuery → Except Fault Int
  | .object o => .ok (c.countObject o)
  | .primaryKey t =>
    .ok (number (fun k => sameName k.table t && decide (k.kind = .primaryKey)) c.constraints)
  | .verbatim _ => .error .unreadable

/-- The answer to a question for texts. -/
def list (c : Catalog) : ListQuery → Except Fault (List String)
  | .columns t =>
    .ok (((c.table? t).map (·.columns)).getD [] |>.map fun k => k.name.map Char.toLower)
  | .indexTables n =>
    .ok ((c.indexes.filter fun i => sameName i.name n).map
      fun i => i.table.map Char.toLower).eraseDups
  | .completedVersions h =>
    if c.hasTable h then
      .ok ((c.recorded.filter fun r => sameName r.1 h).map fun r => r.2.text)
    else .error (.tableMissing h)
  | .verbatim _ => .error .unreadable

/-- The error that a client sees. -/
def refusal (f : Fault) : DriverError :=
  .database f.message

/-- A database with this content, which can always be reached. -/
def server (d : Dialect) : Server Catalog where
  connect c := (.ok (), c)
  execute s c :=
    match c.carryOut d s with
    | .ok c' => (.ok (), c')
    | .error f => (.error (refusal f), c)
  count q c := ((c.count q).mapError refusal, c)
  list q c := ((c.list q).mapError refusal, c)

end Catalog
end SchemaMigration
