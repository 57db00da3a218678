import SchemaMigration.Progress
import Mathlib.Data.List.Nodup

/-!
# The stages of a run

At any time the selected steps of a run are those that are done, at most one that is at work or has
failed, and those that are still to come.  `Progress.stage` is the progress that says exactly this.
The changes that a run makes to its progress lead from stage to stage, as long as no version is
selected twice.
-/
namespace SchemaMigration
namespace Progress

/-- The progress of a run with the steps `done` behind it, the step `now` in front of it, and the
steps `rest` still to come. -/
def stage (status : RunStatus) (done : List Version) (now : Option (Version × StepStatus))
    (rest : List Version) (error : Option String) : Progress where
  status := status
  started := true
  finished := status ≠ .running
  total := done.length + now.toList.length + rest.length
  completed := done.length
  current := now
  steps := done.map (·, .succeeded) ++ now.toList ++ rest.map (·, .pending)
  error := error

/-- The progress after the steps `done` have been run one after the other. -/
def advance (done : List Version) (p : Progress) : Progress :=
  done.foldl (fun p v => (p.mark v .running).stepDone v) p

variable {done rest : List Version} {v : Version}

theorem planned_begun (versions : List Version) :
    begun.planned versions = stage .running [] none versions none := by
  simp [begun, planned, stage]

/-- Marking a step leaves the entries of others alone. -/
theorem map_mark_others {s t : StepStatus} {versions : List Version} (h : v ∉ versions) :
    (versions.map (·, s)).map (fun entry => if entry.1 = v then (v, t) else entry) =
      versions.map (·, s) := by
  rw [List.map_map]
  refine List.map_congr_left fun u hu => if_neg ?_
  rintro rfl
  exact h hu

theorem mark_next (h : (done ++ v :: rest).Nodup) (c : Option (Version × StepStatus)) :
    ({ stage .running done none (v :: rest) none with current := c } : Progress).mark v .running =
      stage .running done (some (v, .running)) rest none := by
  obtain ⟨hdone, hrest⟩ : v ∉ done ∧ v ∉ rest := by
    have := List.nodup_middle.mp h
    simpa using (List.nodup_cons.mp this).1
  simp only [stage, mark, Option.toList_none, List.append_nil, List.map_append, List.map_cons,
    map_mark_others hdone, map_mark_others hrest]
  simp
  omega

/-- The step in front changes its status. -/
theorem mark_now (h : (done ++ v :: rest).Nodup) (s t : StepStatus) :
    (stage .running done (some (v, s)) rest none).mark v t =
      stage .running done (some (v, t)) rest none := by
  obtain ⟨hdone, hrest⟩ : v ∉ done ∧ v ∉ rest := by
    have := List.nodup_middle.mp h
    simpa using (List.nodup_cons.mp this).1
  simp only [stage, mark, List.map_append, map_mark_others hdone, map_mark_others hrest]
  simp

theorem stepDone_now (h : (done ++ v :: rest).Nodup) (s : StepStatus) :
    (stage .running done (some (v, s)) rest none).stepDone v =
      { stage .running (done ++ [v]) none rest none with current := some (v, .succeeded) } := by
  rw [stepDone, mark_now h]
  simp [stage]

/-- **From stage to stage**: the steps that are run move from those to come to those done. -/
theorem advance_stage {new : List Version} (h : (done ++ (new ++ rest)).Nodup)
    (c : Option (Version × StepStatus)) :
    ∃ c', ({ stage .running done none (new ++ rest) none with
        current := c } : Progress).advance new =
      { stage .running (done ++ new) none rest none with current := c' } := by
  induction new generalizing done c with
  | nil => exact ⟨c, by simp [advance]⟩
  | cons u new ih =>
    rw [List.cons_append] at h ⊢
    have hnext : ((done ++ [u]) ++ (new ++ rest)).Nodup := by rwa [List.append_cons] at h
    obtain ⟨c', hc'⟩ := ih hnext (some (u, .succeeded))
    refine ⟨c', ?_⟩
    rw [advance, List.foldl_cons, mark_next h, stepDone_now h, ← advance, hc', ← List.append_cons]

theorem advance_planned {versions : List Version} (h : versions.Nodup)
    (hv : versions = done ++ rest) :
    ∃ c, (begun.planned versions).advance done =
      { stage .running done none rest none with current := c } := by
  subst hv
  rw [planned_begun]
  exact advance_stage h none

/-- The progress that the body of a step sees. -/
theorem running_planned {versions : List Version} (h : versions.Nodup)
    (hv : versions = done ++ v :: rest) :
    ((begun.planned versions).advance done).mark v .running =
      stage .running done (some (v, .running)) rest none := by
  obtain ⟨c, hc⟩ := advance_planned h hv
  rw [hc, mark_next (hv ▸ h)]

/-- The progress at the end of a run whose steps are all done. -/
theorem succeeded_planned {versions : List Version} (h : versions.Nodup) :
    ((begun.planned versions).advance versions).succeeded =
      stage .succeeded versions none [] none := by
  obtain ⟨c, hc⟩ := advance_planned h (List.append_nil versions).symm
  rw [hc]
  simp [stage, succeeded]

/-- The progress at the end of a run with a step that failed. -/
theorem failed_planned {versions : List Version} (h : versions.Nodup)
    (hv : versions = done ++ v :: rest) (message : String) :
    ((((begun.planned versions).advance done).mark v .running).mark v .failed).failed message =
      stage .failed done (some (v, .failed)) rest (some message) := by
  rw [running_planned h hv, mark_now (hv ▸ h)]
  simp [stage, failed]

/-- The progress at the end of a run that selected no steps. -/
theorem failed_begun (message : String) :
    begun.failed message = stage .failed [] none [] (some message) := by
  simp [begun, failed, stage]

end Progress
end SchemaMigration
