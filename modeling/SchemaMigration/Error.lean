import SchemaMigration.Flaw
import SchemaMigration.SchemaObject
import SchemaMigration.Version

/-!
# Errors

What can go wrong while a schema is brought up to date.  Errors of the connection or the database
come from outside; all others are found here and name their cause.
-/
namespace SchemaMigration

/-- An error of the connection to a database or of the database itself. -/
inductive DriverError
  | io (text : String)
  | tls (text : String)
  | poolTimedOut
  | poolClosed
  | workerCrashed
  | rowNotFound
  | columnNotFound (text : String)
  | configuration (text : String)
  | database (text : String)
  | protocol (text : String)
  deriving DecidableEq

namespace DriverError

/-- The error in words. -/
def message : DriverError → String
  | io text => "error communicating with database: " ++ text
  | tls text => "error occurred while attempting to establish a TLS connection: " ++ text
  | poolTimedOut => "pool timed out while waiting for an open connection"
  | poolClosed => "attempted to acquire a connection on a closed pool"
  | workerCrashed => "attempted to communicate with a crashed background worker"
  | rowNotFound => "no rows returned by a query that expected to return at least one row"
  | columnNotFound text => "no column found for name: " ++ text
  | configuration text => "error with configuration: " ++ text
  | database text => "error returned from database: " ++ text
  | protocol text => "encountered unexpected or invalid data: " ++ text

/-- Whether the database could not be reached, so that trying again later may help. -/
def isConnectivity : DriverError → Bool
  | io _ | tls _ | poolTimedOut | poolClosed | workerCrashed => true
  | _ => false

end DriverError

/-- How the schema that is there contradicts the one that a step expects. -/
inductive Conflict
  | tableMissing (table : String)
  | columnMissing (table column : String)
  /-- A table exists, but some of the columns that it should have do not. -/
  | columnsMissing (table : String) (columns : List String)
  /-- Another table has an index of the same name. -/
  | indexNameTaken (table index owner : String)
  /-- A conflict in the words of a step. -/
  | stated (object detail : String)
  deriving DecidableEq

namespace Conflict

/-- The object that the conflict is about. -/
def object : Conflict → String
  | tableMissing table => (SchemaObject.table table).describe
  | columnMissing table column => (SchemaObject.column table column).describe
  | columnsMissing table _ => (SchemaObject.table table).describe
  | indexNameTaken table index _ => (SchemaObject.index table index).describe
  | stated object _ => object

/-- What is wrong with the object. -/
def detail : Conflict → String
  | tableMissing _ => "does not exist"
  | columnMissing _ _ => "does not exist"
  | columnsMissing _ columns => "exists without column(s) " ++ ", ".intercalate columns
  | indexNameTaken _ _ owner => "index name already used on table " ++ owner
  | stated _ detail => detail

end Conflict

/-- Why a list of steps is no registry. -/
inductive RegistryFlaw
  | blankDescription (version : Version)
  | declaredTwice (version : Version)
  | outOfOrder (version last : Version)
  | stated (text : String)
  deriving DecidableEq

/-- The complaint in words. -/
def RegistryFlaw.message : RegistryFlaw → String
  | blankDescription version => "version " ++ version.text ++ " has an empty description"
  | declaredTwice version => "version " ++ version.text ++ " is declared twice"
  | outOfOrder version last => "version " ++ version.text ++ " is declared after " ++ last.text
  | stated text => text

/-- Why the recorded history cannot be read. -/
inductive HistoryFlaw
  | unreadable (table row : String) (flaw : NumeralFlaw)
  | stated (text : String)
  deriving DecidableEq

/-- The complaint in words. -/
def HistoryFlaw.message : HistoryFlaw → String
  | unreadable table row flaw =>
    "table '" ++ table ++ "': version '" ++ row ++ "' is not a version number: " ++ flaw.message
  | stated text => text

/-- Why a schema could not be brought up to date. -/
inductive MigrationError
  | driver (cause : DriverError)
  | conflict (cause : Conflict)
  | malformed (flaw : Flaw)
  | unsupported (operation : String) (dialect : Dialect)
  | unsupportedDatabase (name : String)
  | invalidRegistry (flaw : RegistryFlaw)
  | invalidHistory (flaw : HistoryFlaw)
  /-- A version was completed although an earlier one was not. -/
  | historyGap (missing found : Version)
  /-- The database has seen a version newer than all known ones. -/
  | databaseAhead (database latest : Version)
  | step (version : Version) (description : String) (source : MigrationError)
  deriving DecidableEq

namespace MigrationError

/-- The error in words. -/
def message : MigrationError → String
  | driver cause =>
    (if cause.isConnectivity then "cannot reach database: " else "database: ") ++ cause.message
  | conflict cause => "schema conflict on " ++ cause.object ++ ": " ++ cause.detail
  | malformed flaw => "malformed descriptor: " ++ flaw.message
  | unsupported operation dialect => operation ++ " is not supported by " ++ dialect.name
  | unsupportedDatabase name =>
    "'" ++ name ++ "' not supported, consider using SQLite, PostgreSQL or MySQL"
  | invalidRegistry flaw => "invalid registry: " ++ flaw.message
  | invalidHistory flaw => "invalid history record: " ++ flaw.message
  | historyGap missing found =>
    "migration history has a gap: " ++ missing.text ++ " never completed but " ++ found.text
      ++ " did"
  | databaseAhead database latest =>
    "database is at version " ++ database.text ++ ", newer than the latest known migration "
      ++ latest.text
  | step version description source =>
    "migration " ++ version.text ++ " (" ++ description ++ ") failed: " ++ source.message

/-- The error below all steps that it passed through. -/
def root : MigrationError → MigrationError
  | step _ _ source => source.root
  | e => e

/-- Whether the database could not be reached. -/
def isConnectivity (e : MigrationError) : Bool :=
  match e.root with
  | driver cause => cause.isConnectivity
  | _ => false

end MigrationError

namespace Dialect

/-- Reads the name of a dialect.  Capital letters of ASCII count as small ones. -/
def read (s : String) : Except MigrationError Dialect :=
  let folded := s.map Char.toLower
  match ofText? folded with
  | some d => .ok d
  | none => .error (.unsupportedDatabase folded)

/-- The dialect of a connection, from the name that its driver goes by. -/
def ofDriverName (s : String) : Except MigrationError Dialect :=
  match ofDriverName? s with
  | some d => .ok d
  | none => .error (.unsupportedDatabase s)

end Dialect
end SchemaMigration
