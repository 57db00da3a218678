import SchemaMigration.Guarded

/-!
# History

The completed versions are recorded in a table of the database itself, one row each.
-/
namespace SchemaMigration
namespace History

/-- The history table of the given name. -/
def table (name : String) : Table :=
  { name := name
    columns := [
      { name := versionColumn, type := .varchar 40, nullable := false },
      { name := statusColumn, type := .varchar 16, nullable := false },
      { name := completedAtColumn, type := .bigInteger, nullable := false }]
    primaryKey := [versionColumn] }

/-- Creates the history table unless it exists. -/
def prepare (d : Dialect) (name : String) : Program Unit := do
  if ← Guarded.createTable d (table name) then Program.note (.historyCreated name)

/-- The versions in rows of the table.  The first row that is no version counts. -/
def readRows (name : String) : List String → Except MigrationError (List Version)
  | [] => .ok []
  | row :: rest =>
    match Version.read row with
    | .error flaw => .error (.invalidHistory (.unreadable name row flaw))
    | .ok v => (readRows name rest).map (v :: ·)

/-- The completed versions.  Without a history table there are none. -/
def completed (name : String) : Program VersionSet := do
  if ← Program.holds (.table name) then
    let rows ← Program.askList (.completedVersions name)
    return VersionSet.ofList (← Program.ofExcept (readRows name rows))
  else return VersionSet.empty

/-- Records that a version is completed. -/
def record (name : String) (v : Version) : Program Unit :=
  Program.send (.recordVersion name v)

end History
end SchemaMigration
