import SchemaMigration.Registry

/-!
# Plan

Which steps are still to run, given the versions that are completed.  Completed versions that are
not registered are ignored, unless one is newer than all registered ones.
-/
namespace SchemaMigration
namespace Registry

/-- The newest completed version and the newest registered one, if the first is newer.  A registry
without steps counts as version 0. -/
def overtakenBy (r : Registry) (completed : VersionSet) : Option (Version × Version) :=
  match completed.max? with
  | none => none
  | some database =>
    let latest := r.latest?.getD .zero
    if latest < database then some (database, latest) else none

/-- The completed versions that are ignored. -/
def ignored (r : Registry) (completed : VersionSet) : List Version :=
  if (r.overtakenBy completed).isSome then []
  else completed.toList.filter fun v => !r.contains v

/-- The steps to run, apart from the check that the database is not ahead. -/
def select (r : Registry) (completed : VersionSet) : Policy → Except MigrationError (List Step)
  | .completedSet => .ok (r.steps.toList.filter fun s => s.version ∉ completed)
  | .contiguous =>
    match r.steps.toList.dropWhile fun s => s.version ∈ completed with
    | [] => .ok []
    | first :: rest =>
      match rest.find? fun s => s.version ∈ completed with
      | some found => .error (.historyGap first.version found.version)
      | none => .ok (first :: rest)

/-- The steps to run, in ascending order of versions. -/
def plan (r : Registry) (policy : Policy) (completed : VersionSet) :
    Except MigrationError (List Step) :=
  match r.overtakenBy completed with
  | some (database, latest) => .error (.databaseAhead database latest)
  | none => r.select completed policy

end Registry
end SchemaMigration
