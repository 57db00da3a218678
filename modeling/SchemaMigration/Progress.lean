import SchemaMigration.Version

/-!
# Progress

How far the latest run has come, for whoever hosts it.
-/
namespace SchemaMigration

/-- How a run stands as a whole. -/
inductive RunStatus
  | idle
  | running
  | succeeded
  | failed
  deriving DecidableEq

/-- How one step of a run stands. -/
inductive StepStatus
  | pending
  | running
  | succeeded
  | failed
  deriving DecidableEq

/-- The state of the latest run.  Of its start and its end only matters whether they have come. -/
structure Progress where
  status : RunStatus := .idle
  started : Bool := false
  finished : Bool := false
  /-- The number of steps that were selected. -/
  total : Nat := 0
  /-- The number of selected steps that were applied and recorded. -/
  completed : Nat := 0
  current : Option (Version × StepStatus) := none
  /-- The selected steps. -/
  steps : List (Version × StepStatus) := []
  error : Option String := none
  deriving DecidableEq

namespace Progress

/-- The state at the start of a run. -/
def begun : Progress :=
  { status := .running, started := true }

/-- The selected steps are known. -/
def planned (versions : List Version) (p : Progress) : Progress :=
  { p with total := versions.length, steps := versions.map fun v => (v, .pending) }

/-- Sets the status of one step, which becomes the current one. -/
def mark (v : Version) (s : StepStatus) (p : Progress) : Progress :=
  { p with
    current := some (v, s)
    steps := p.steps.map fun entry => if entry.1 = v then (v, s) else entry }

/-- A step is applied and recorded. -/
def stepDone (v : Version) (p : Progress) : Progress :=
  let p := p.mark v .succeeded
  { p with completed := p.completed + 1 }

/-- The run has ended well. -/
def succeeded (p : Progress) : Progress :=
  { p with finished := true, status := .succeeded, current := none }

/-- The run has failed. -/
def failed (message : String) (p : Progress) : Progress :=
  { p with finished := true, status := .failed, error := some message }

end Progress
end SchemaMigration
