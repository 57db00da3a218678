import SchemaMigration.Program

/-!
# Registry

The steps that a build knows, each under its version, in ascending order of versions.  Declarations
without a flaw are in that order (`ascending_of_firstFlaw`), so a version is found by halving.
-/
namespace SchemaMigration

/-- One step on the way of a schema from its beginning to its latest version. -/
structure Step where
  version : Version
  description : String
  body : Dialect → Program Unit

/-- The step as it is shown for inspection. -/
def Step.describe (s : Step) : String :=
  "RegisteredStep \x7b version: Version(" ++ s.version.text ++ "), description: "
    ++ Text.shown s.description ++ ", .. \x7d"

/-- Steps in strictly ascending order of versions. -/
structure Registry where
  steps : Array Step
  ascending : steps.toList.Pairwise fun s t => s.version < t.version

namespace Registry

/-- What is wrong with a step, given the version of the step before it. -/
def flawOf (last : Option Version) (s : Step) : Option RegistryFlaw :=
  if Text.isAllBlank s.description.toList then some (.blankDescription s.version)
  else
    match last with
    | none => none
    | some v =>
      if v < s.version then none
      else if v = s.version then some (.declaredTwice s.version)
      else some (.outOfOrder s.version v)

/-- The flaw of the first step that has one. -/
def firstFlaw (last : Option Version) : List Step → Option RegistryFlaw
  | [] => none
  | s :: rest => (flawOf last s).or (firstFlaw (some s.version) rest)

theorem lt_of_flawOf {v : Version} {s : Step} (h : flawOf (some v) s = none) : v < s.version := by
  unfold flawOf at h
  split at h
  · simp at h
  · dsimp only at h
    split at h
    · assumption
    · split at h <;> simp at h

theorem ascending_of_firstFlaw {last : Option Version} {steps : List Step}
    (h : firstFlaw last steps = none) :
    (∀ v ∈ last, ∀ s ∈ steps, v < s.version) ∧
      steps.Pairwise fun s t => s.version < t.version := by
  induction steps generalizing last with
  | nil => exact ⟨by simp, .nil⟩
  | cons s rest ih =>
    rw [firstFlaw, Option.or_eq_none_iff] at h
    obtain ⟨hall, hrest⟩ := ih h.2
    refine ⟨?_, List.pairwise_cons.2 ⟨fun t ht => hall _ rfl t ht, hrest⟩⟩
    intro v hv t ht
    cases Option.mem_def.1 hv
    have hs := lt_of_flawOf h.1
    rcases List.mem_cons.1 ht with rfl | ht
    · exact hs
    · exact Version.lt_trans hs (hall _ rfl t ht)

/-- Registers steps in the order in which they are declared. -/
def ofSteps (steps : List Step) : Except MigrationError Registry :=
  match h : firstFlaw none steps with
  | some flaw => .error (.invalidRegistry flaw)
  | none => .ok ⟨steps.toArray, by simpa using (ascending_of_firstFlaw h).2⟩

/-- The versions of the steps. -/
def versions (r : Registry) : List Version :=
  r.steps.toList.map (·.version)

/-- The version of the last step. -/
def latest? (r : Registry) : Option Version :=
  r.versions.getLast?

/-- Looks for a version in the half-open part of the steps from `low` to `high`. -/
def search (steps : Array Step) (v : Version) (low high : Nat) (h : high ≤ steps.size) :
    Option Step :=
  if hlt : low < high then
    let middle := (low + high) / 2
    have : middle < steps.size := by omega
    let s := steps[middle]
    if s.version = v then some s
    else if s.version < v then search steps v (middle + 1) high h
    else search steps v low middle (by omega)
  else none
termination_by high - low

/-- The step of a version, found by halving. -/
def get? (r : Registry) (v : Version) : Option Step :=
  search r.steps v 0 r.steps.size (Nat.le_refl _)

/-- Whether a version is registered. -/
def contains (r : Registry) (v : Version) : Bool :=
  (r.get? v).isSome

end Registry
end SchemaMigration
