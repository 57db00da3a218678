import SchemaMigration.Catalog

/-!
# The database in memory

A catalog kept by SQLite.  Two rules come before the effects that `Catalog.carryOut` describes.
Names that begin with `sqlite_` are not for tables of one's own.  And the columns of a table are
read through a function (`columnsFunction`): once there is a table of that very name, the name means
the table, and every lookup that calls the function fails.
-/
namespace SchemaMigration

/-- Whether the question is answered from the columns of a table. -/
def CountQuery.readsColumns : CountQuery → Bool
  | object (.column _ _) => true
  | primaryKey _ => true
  | _ => false

/-- Whether the question is answered from the columns of a table. -/
def ListQuery.readsColumns : ListQuery → Bool
  | columns _ => true
  | _ => false

namespace Memory

/-- The function that lists the columns of a table. -/
def columnsFunction : String := "pragma_table_info"

/-- Names that begin like this belong to the database itself. -/
def isReserved (name : String) : Bool :=
  "sqlite_".toList.isPrefixOf (name.map Char.toLower).toList

/-- What forbids a statement, whatever the database holds. -/
def fault? : Statement → Option Fault
  | .createTable name _ _ => if isReserved name then some (.reservedName name) else none
  | _ => none

/-- What forbids a question, given whether it reads columns. -/
def hidden? (readsColumns : Bool) (c : Catalog) : Option Fault :=
  if readsColumns && c.hasTable columnsFunction then some (.hiddenFunction columnsFunction)
  else none

/-- The database, which can always be reached. -/
def server : Server Catalog where
  connect := (Catalog.server .sqlite).connect
  execute s c :=
    match fault? s with
    | some f => (.error (Catalog.refusal f), c)
    | none => (Catalog.server .sqlite).execute s c
  count q c :=
    match hidden? q.readsColumns c with
    | some f => (.error (Catalog.refusal f), c)
    | none => (Catalog.server .sqlite).count q c
  list q c :=
    match hidden? q.readsColumns c with
    | some f => (.error (Catalog.refusal f), c)
    | none => (Catalog.server .sqlite).list q c

end Memory
end SchemaMigration
