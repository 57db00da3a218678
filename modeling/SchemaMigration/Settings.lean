/-!
# Settings of an upgrade

Which table records the completed versions, and which steps count as pending.
-/
namespace SchemaMigration

/-- Which registered steps are still to run. -/
inductive Policy
  /-- All after the completed ones, which have to be an initial segment. -/
  | contiguous
  /-- All that are not completed, wherever they stand. -/
  | completedSet
  deriving DecidableEq

namespace Policy

/-- The name of the policy. -/
def name : Policy → String
  | contiguous => "contiguous"
  | completedSet => "completed-set"

/-- Reads the name of a policy. -/
def ofName? (s : String) : Option Policy :=
  match s with
  | "contiguous" => some contiguous
  | "completed-set" => some completedSet
  | _ => none

/-- The complaint about a text that names no policy. -/
def unknown (s : String) : String :=
  "unknown history policy '" ++ s ++ "', expected 'contiguous' or 'completed-set'"

theorem ofName?_name (p : Policy) : ofName? p.name = some p := by
  cases p <;> rfl

end Policy

/-- The settings of an upgrade. -/
structure Settings where
  historyTable : String := "schema_migrations"
  policy : Policy := .contiguous

end SchemaMigration
