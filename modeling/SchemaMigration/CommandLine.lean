import SchemaMigration.Arguments
import SchemaMigration.DatabaseUrl
import SchemaMigration.Memory
import SchemaMigration.Report
import SchemaMigration.Shipped

/-!
# Command line

Applies the shipped steps to a database, or reports how far it has come.  The databases at hand are
those in memory, which are new and empty; files and servers are out of reach.
-/
namespace SchemaMigration

/-- What the command line answers: an exit code and the two outputs. -/
structure Answer where
  exitCode : Nat
  output : String := ""
  errors : String := ""
  deriving DecidableEq

namespace CommandLine

/-- The name and the version of the program. -/
def banner : String := "stepwise 0.1.0\n"

/-- How the program is called. -/
def usage : String :=
  "Usage: stepwise [OPTIONS] --database-url <DATABASE_URL> [run|status [--json]]\n"

/-- The work failed. -/
def failure (message : String) : Answer :=
  { exitCode := 1, errors := "Error: " ++ message ++ "\n" }

/-- The pool cannot be set up, whatever the database. -/
def abort (message : String) : Answer :=
  { exitCode := 101, errors := "cannot set up the pool: " ++ message ++ "\n" }

/-- The last second that the clock can show. -/
def lastSecond : Nat := 0x7fffffffffffffff

/-- The second that the clock shows.  It starts with the machine, and one day is taken for the time
since then. -/
def now : Nat := 86400

/-- What keeps a pool from being opened.  The clock has to show the deadline, there is room for at
least one connection, and opening one takes some time; a server that does not answer is waited
for. -/
def obstacle? (o : Options) (place : Location) : Option Answer :=
  if lastSecond < now + o.acquireTimeout then some (abort "the deadline is out of range")
  else if o.maxConnections = 0 then some (abort "there is no room for a connection")
  else if o.acquireTimeout = 0 then some (failure DriverError.poolTimedOut.message)
  else
    match place with
    | .memory => none
    | .file =>
      let refusal : DriverError := .database "(code: 14) unable to open database file"
      some (failure refusal.message)
    | .server => some (failure DriverError.poolTimedOut.message)

/-- The name that the driver of a dialect goes by. -/
def driverName : Dialect → String
  | .sqlite => "SQLite"
  | .mysql => "MySQL"
  | .postgres => "PostgreSQL"

/-- Carries out a command on a new database in memory. -/
def carryOut (u : Upgrade) (c : Command) : Answer :=
  let world : World Catalog := { server := {} }
  match c with
  | .run =>
    match u.run Memory.server world with
    | .ok _ _ => { exitCode := 0 }
    | .error e _ => failure e.message
  | .status json =>
    match u.status Memory.server world with
    | .ok report _ => { exitCode := 0, output := if json then report.json else report.text }
    | .error e _ => failure e.message

/-- Carries out a command on the database of a URL. -/
def invoke (o : Options) (url : String) (c : Command) : Answer :=
  match DatabaseUrl.locate url with
  | .error flaw => failure flaw.message
  | .ok (d, place) =>
    match obstacle? o place with
    | some answer => answer
    | none =>
      match Shipped.registry with
      | .error e => failure e.message
      | .ok registry =>
        carryOut ⟨driverName d, registry, ⟨o.historyTable, o.policy⟩⟩ c

/-- Answers a call of the program. -/
def answer (environment : Option String) (args : List String) : Answer :=
  match Arguments.read environment args with
  | .help => { exitCode := 0, output := usage }
  | .version => { exitCode := 0, output := banner }
  | .misuse => { exitCode := 2, errors := "error: invalid arguments\n\n" ++ usage }
  | .invoke o url c => invoke o url c

end CommandLine
end SchemaMigration
