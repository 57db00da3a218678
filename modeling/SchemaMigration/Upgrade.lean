import SchemaMigration.History
import SchemaMigration.Plan
import SchemaMigration.World

/-!
# Upgrades

An upgrade brings a database to the latest registered version.  It makes sure that there is a
history table, reads which versions are completed, and runs the pending steps one by one; each step
is recorded before the next one starts, and the first failure ends the run.  Every unit of work has
a connection of its own: reading the history, each step, and each record.
-/
namespace SchemaMigration

/-- A registry that is to be applied to a database. -/
structure Upgrade where
  /-- The name that the driver of the database goes by. -/
  driverName : String
  registry : Registry
  settings : Settings := {}

/-- The result of a run without errors. -/
structure RunReport where
  dialect : Dialect
  applied : List Version
  alreadyCompleted : Nat
  deriving DecidableEq

/-- Nothing was to do. -/
def RunReport.isNoop (r : RunReport) : Bool :=
  r.applied.isEmpty

/-- How far a database has come. -/
structure StatusReport where
  dialect : Dialect
  completed : List Version
  pending : List Version
  latest : Option Version
  deriving DecidableEq

/-- No step is to run. -/
def StatusReport.isUpToDate (r : StatusReport) : Bool :=
  r.pending.isEmpty

namespace Upgrade

variable {σ : Type}

/-- The step as events refer to it. -/
def spanOf (s : Step) : Span :=
  ⟨s.version, s.description⟩

/-- The dialect of the database. -/
def dialect (u : Upgrade) : Except MigrationError Dialect :=
  Dialect.ofDriverName u.driverName

/-- Fails with the error of a result. -/
def demand {α : Type} (r : Except MigrationError α) : Action σ α := fun w =>
  match r with
  | .ok a => .ok a w
  | .error e => .error e w

/-- Selects the steps to run, and warns about completed versions that are not registered. -/
def choose (u : Upgrade) (completed : VersionSet) : Action σ (List Step) := do
  modify (World.record <|
    (u.registry.ignored completed).map fun v => .event (.versionUnknown v) none)
  demand (u.registry.plan u.settings.policy completed)

/-- Makes sure that there is a history table, and reads it. -/
def bootstrap (u : Upgrade) (srv : Server σ) (d : Dialect) : Action σ VersionSet := do
  World.connect srv
  (do
    History.prepare d u.settings.historyTable
    History.completed u.settings.historyTable : Program VersionSet).run srv none

/-- Runs the body of a step and records its version, each on a connection of its own. -/
def applyAndRecord (u : Upgrade) (srv : Server σ) (d : Dialect) (s : Step) : Action σ Unit := do
  World.connect srv
  (s.body d).run srv (some (spanOf s))
  World.connect srv
  (History.record u.settings.historyTable s.version).run srv (some (spanOf s))

/-- Runs one step, and keeps the progress up to date. -/
def applyStep (u : Upgrade) (srv : Server σ) (d : Dialect) (s : Step) : Action σ Unit := do
  World.update (·.mark s.version .running)
  match ← World.settle (u.applyAndRecord srv d s) with
  | .ok () =>
    World.update (·.stepDone s.version)
    World.tell .stepApplied (some (spanOf s))
  | .error e =>
    World.update (·.mark s.version .failed)
    World.tell (.stepFailed e) (some (spanOf s))
    throw (.step s.version s.description e)

/-- Runs steps one by one, and yields their versions. -/
def applyAll (u : Upgrade) (srv : Server σ) (d : Dialect) :
    List Step → Action σ (List Version)
  | [] => pure []
  | s :: rest => do
    u.applyStep srv d s
    let applied ← u.applyAll srv d rest
    return s.version :: applied

/-- A run, apart from what its beginning and its end do to the progress. -/
def proceed (u : Upgrade) (srv : Server σ) : Action σ RunReport := do
  let d ← demand u.dialect
  let completed ← u.bootstrap srv d
  let pending ← u.choose completed
  World.tell (.planned completed.size pending.length u.settings.policy) none
  World.update (·.planned (pending.map (·.version)))
  let applied ← u.applyAll srv d pending
  return ⟨d, applied, completed.size⟩

/-- Brings the database to the latest version. -/
def run (u : Upgrade) (srv : Server σ) : Action σ RunReport := do
  World.update fun _ => .begun
  match ← World.settle (u.proceed srv) with
  | .ok report =>
    World.update (·.succeeded)
    World.tell (if report.isNoop then .upToDate report.dialect report.alreadyCompleted
      else .migrated report.dialect report.applied.length) none
    return report
  | .error e =>
    World.update (·.failed e.message)
    World.tell (.failed e) none
    throw e

/-- Brings the database to the latest version with the usual settings.  The progress of this run is
its own; steps go on seeing the progress that is there. -/
def runApart (u : Upgrade) (srv : Server σ) : Action σ RunReport := fun w =>
  let apart := { w with progress := {}, shown := some w.visibleProgress }
  match ({ u with settings := {} } : Upgrade).run srv apart with
  | .ok report w' => .ok report { w' with progress := w.progress, shown := w.shown }
  | .error e w' => .error e { w' with progress := w.progress, shown := w.shown }

/-- Reads how far the database has come, and changes nothing. -/
def status (u : Upgrade) (srv : Server σ) : Action σ StatusReport := do
  let d ← demand u.dialect
  World.connect srv
  let completed ← (History.completed u.settings.historyTable).run srv none
  let pending ← u.choose completed
  return ⟨d, completed.toList, pending.map (·.version), u.registry.latest?⟩

end Upgrade
end SchemaMigration
