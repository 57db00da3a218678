import SchemaMigration.Error
import SchemaMigration.Lookup
import SchemaMigration.Settings

/-!
# Events

What an upgrade tells an observer while it works.  An event is a cause with its data; its level,
message and fields are computed from it.
-/
namespace SchemaMigration

/-- How much an event matters. -/
inductive Level
  | trace
  | debug
  | info
  | warn
  | error
  deriving DecidableEq

/-- Something worth telling. -/
inductive Event
  /-- A statement or question is about to be sent. -/
  | executing (s : Statement)
  | counting (q : CountQuery)
  | listing (q : ListQuery)
  /-- A guarded change found nothing to do. -/
  | tableExists (table : String)
  | tableAbsent (table : String)
  | indexExists (table index : String)
  | indexAbsent (table index : String)
  | columnsExist (table : String)
  | columnsAbsent (table : String)
  | constraintExists (table constraint : String)
  | constraintAbsent (table constraint : String)
  | historyCreated (table : String)
  /-- A completed version is not registered. -/
  | versionUnknown (version : Version)
  | planned (completed pending : Nat) (policy : Policy)
  | stepApplied
  | stepFailed (e : MigrationError)
  | upToDate (dialect : Dialect) (completed : Nat)
  | migrated (dialect : Dialect) (applied : Nat)
  | failed (e : MigrationError)
  deriving DecidableEq

namespace Event

/-- How much the event matters. -/
def level : Event → Level
  | counting _ | listing _ => .trace
  | historyCreated _ | stepApplied | upToDate _ _ | migrated _ _ => .info
  | versionUnknown _ => .warn
  | stepFailed _ | failed _ => .error
  | _ => .debug

/-- The event in words. -/
def message : Event → String
  | executing _ => "execute"
  | counting _ => "fetch count"
  | listing _ => "fetch strings"
  | tableExists _ => "table already exists, skipping"
  | tableAbsent _ => "table does not exist, skipping"
  | indexExists _ _ => "index already exists, skipping"
  | indexAbsent _ _ => "index does not exist, skipping"
  | columnsExist _ => "columns already exist, skipping"
  | columnsAbsent _ => "columns do not exist, skipping"
  | constraintExists _ _ => "constraint already exists, skipping"
  | constraintAbsent _ _ => "constraint does not exist, skipping"
  | historyCreated _ => "created migration history table"
  | versionUnknown _ => "ignoring completed version unknown to this build"
  | planned _ _ _ => "planned migration run"
  | stepApplied => "migration applied"
  | stepFailed _ => "migration failed"
  | upToDate _ _ => "database schema is up to date"
  | migrated _ _ => "database schema migrated"
  | failed _ => "database schema migration failed"

/-- The data of the event, by name. -/
def fields (d : Dialect) : Event → List (String × String)
  | executing s => [("sql", s.text d)]
  | counting q => [("sql", q.text d)]
  | listing q => [("sql", q.text d)]
  | tableExists t | tableAbsent t | columnsExist t | columnsAbsent t | historyCreated t =>
    [("table", t)]
  | indexExists t i | indexAbsent t i => [("table", t), ("index", i)]
  | constraintExists t c | constraintAbsent t c => [("table", t), ("constraint", c)]
  | versionUnknown v => [("version", v.text)]
  | planned completed pending policy =>
    [("completed", toString completed), ("pending", toString pending), ("policy", policy.name)]
  | stepApplied => []
  | stepFailed e | failed e => [("error", e.message)]
  | upToDate dialect completed =>
    [("dialect", dialect.name), ("completed", toString completed)]
  | migrated dialect applied => [("dialect", dialect.name), ("applied", toString applied)]

end Event
end SchemaMigration
