import SchemaMigration.Settings
import SchemaMigration.Version

/-!
# Arguments of the command line

Options with a value come before the command; each may be given once, either as `--name value` or
as `--name=value`.  A value that is an argument of its own must not look like an option.  The first
argument that breaks a rule decides, so a request for the version that comes earlier is answered.
-/
namespace SchemaMigration

/-- What the command line is asked to do with a database. -/
inductive Command
  | run
  | status (json : Bool)
  deriving DecidableEq

/-- The options that have a value. -/
inductive OptionName
  | databaseUrl
  | historyTable
  | policy
  | maxConnections
  | acquireTimeout
  deriving DecidableEq

/-- The values of the options. -/
structure Options where
  databaseUrl : Option String := none
  historyTable : String := ({} : Settings).historyTable
  policy : Policy := .contiguous
  maxConnections : Nat := 2
  /-- Seconds to wait for a connection. -/
  acquireTimeout : Nat := 30
  deriving DecidableEq

/-- What the arguments say. -/
inductive Request
  | help
  | version
  /-- The arguments break a rule. -/
  | misuse
  | invoke (options : Options) (url : String) (command : Command)
  deriving DecidableEq

namespace OptionName

/-- The option of a name. -/
def ofName? (s : String) : Option OptionName :=
  match s with
  | "database-url" => some databaseUrl
  | "history-table" => some historyTable
  | "policy" => some policy
  | "max-connections" => some maxConnections
  | "acquire-timeout" => some acquireTimeout
  | _ => none

end OptionName

namespace Options

/-- Reads a number below 2³² with an optional sign. -/
def readCount (s : List Char) : Option Nat :=
  let number (digits : List Char) : Option Nat :=
    match digits, Version.readDigits .zero digits with
    | _ :: _, .ok n => if n.number < 0x100000000 then some n.number else none
    | _, _ => none
  match s with
  | '-' :: digits => (number digits).filter (· = 0)
  | '+' :: digits => number digits
  | digits => number digits

/-- Sets an option to a value, if the value is a good one. -/
def set (o : Options) (name : OptionName) (value : String) : Option Options :=
  match name with
  | .databaseUrl => some { o with databaseUrl := some value }
  | .historyTable => some { o with historyTable := value }
  | .policy => (Policy.ofName? value).map fun p => { o with policy := p }
  | .maxConnections => (readCount value.toList).map fun n => { o with maxConnections := n }
  | .acquireTimeout =>
    match Version.readNumeral value.toList with
    | .ok n => some { o with acquireTimeout := n.number }
    | .error _ => none

end Options

namespace Arguments

/-- Whether an argument is an option and not a value.  A single dash is a value. -/
def looksLikeOption (arg : String) : Bool :=
  match arg.toList with
  | '-' :: _ :: _ => true
  | _ => false

/-- The name of a long option, and its value where one is attached. -/
def splitLong (name : List Char) : String × Option String :=
  let value := match name.dropWhile (· ≠ '=') with
    | _ :: v => some (String.ofList v)
    | [] => none
  (String.ofList (name.takeWhile (· ≠ '=')), value)

/-- Answers once all arguments are read. -/
def finish (o : Options) (c : Command) : Request :=
  match o.databaseUrl with
  | some url => .invoke o url c
  | none => .misuse

/-- Whether an argument asks for help. -/
def asksHelp (arg : String) : Bool :=
  arg = "--help" || "-h".toList.isPrefixOf arg.toList

/-- Reads what follows the command `run`. -/
def afterRun (o : Options) : List String → Request
  | [] => finish o .run
  | ["--"] => finish o .run
  | arg :: _ => if asksHelp arg then .help else .misuse

/-- Reads what follows the command `status`. -/
def afterStatus (o : Options) (json : Bool) : List String → Request
  | [] => finish o (.status json)
  | ["--"] => finish o (.status json)
  | arg :: rest =>
    if asksHelp arg then .help
    else if arg = "--json" && !json then afterStatus o true rest
    else .misuse

/-- Reads what follows the command `help`: the name of one other command at most. -/
def afterHelp : List String → Request
  | [] => .help
  | [command] => if command ∈ ["run", "status", "help"] then .help else .misuse
  | _ => .misuse

/-- Reads the arguments before the command, given the options read so far, the names of those that
were given, and the option that waits for its value. -/
def readFrom (o : Options) (given : List OptionName) : Option OptionName → List String → Request
  | none, [] => finish o .run
  | some _, [] => .misuse
  | some option, value :: rest =>
    if looksLikeOption value then .misuse
    else
      match o.set option value with
      | some o => readFrom o given none rest
      | none => .misuse
  | none, arg :: rest =>
    match arg.toList with
    | ['-', '-'] => if rest = [] then finish o .run else .misuse
    | '-' :: '-' :: long =>
      match splitLong long with
      | ("help", none) => .help
      | ("version", none) => .version
      | (name, attached) =>
        match OptionName.ofName? name with
        | none => .misuse
        | some option =>
          if option ∈ given then .misuse
          else
            match attached with
            | none => readFrom o (option :: given) (some option) rest
            | some value =>
              match o.set option value with
              | some o => readFrom o (option :: given) none rest
              | none => .misuse
    | '-' :: 'h' :: _ => .help
    | '-' :: 'V' :: _ => .version
    | _ =>
      match arg with
      | "run" => afterRun o rest
      | "status" => afterStatus o false rest
      | "help" => afterHelp rest
      | _ => .misuse

/-- Reads all arguments.  The database may also be given by the environment. -/
def read (environment : Option String) (args : List String) : Request :=
  readFrom { databaseUrl := environment } [] none args

end Arguments
end SchemaMigration
