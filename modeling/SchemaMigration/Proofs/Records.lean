import SchemaMigration.Proofs.HistoryRows

/-!
# What a run records

The versions that a run records, read off its log: they are those of the steps that it applies
(`Upgrade.RunLog.recordedIn`), and at any time in the body of a step those of the steps before it
(`Upgrade.InStep.recordedIn`).  On a database that keeps the history exactly, the rows grow by them
and by nothing else (`Server.KeepsExactly.rows_eq`).
-/
namespace SchemaMigration
open Program

/-- The version that an exchange records with success. -/
def Exchange.recorded? (table : String) : Exchange → Option Version
  | .execute (.recordVersion t v) (.ok _) => if t = table then some v else none
  | _ => none

/-- The versions that are recorded with success, in order. -/
def recordedIn (table : String) (xs : List Exchange) : List Version :=
  xs.filterMap (·.recorded? table)

theorem recordedIn_append (table : String) (xs ys : List Exchange) :
    recordedIn table (xs ++ ys) = recordedIn table xs ++ recordedIn table ys :=
  List.filterMap_append

theorem recordedIn_quiet {table : String} {xs : List Exchange}
    (h : ∀ x ∈ xs, ¬ x.IsRecord table) : recordedIn table xs = [] := by
  refine List.filterMap_eq_nil_iff.mpr fun x hx => ?_
  have hx := h x hx
  cases x with
  | execute st a =>
    cases st with
    | recordVersion t v =>
      have hne : t ≠ table := hx
      cases a <;> simp [Exchange.recorded?, hne]
    | _ => cases a <;> rfl
  | _ => rfl

namespace Server

variable {σ : Type} {srv : Server σ} {table : String} {rows : σ → List String}
  {present : σ → Prop} {s : σ} {xs : List Exchange}

/-- **The rows grow by what is recorded**, and by nothing else. -/
theorem KeepsExactly.rows_eq (hdb : srv.KeepsExactly table rows present) (hg : srv.Gives s xs)
    (hq : srv.Undisturbed table rows s xs) :
    rows (srv.after s xs) = rows s ++ (recordedIn table xs).map (·.text) := by
  induction xs generalizing s with
  | nil => simp [recordedIn]
  | cons x xs ih =>
    have hone : rows (srv.next s x) = rows s ++ (recordedIn table [x]).map (·.text) := by
      by_cases hx : x.IsRecord table
      · cases x with
        | execute st a =>
          cases st with
          | recordVersion t v =>
            cases hx
            have ha := (Exchange.execute.inj (Option.some.inj hg.1)).2
            cases a with
            | ok =>
              have hstored := hdb.recorded v s ha
              simpa [recordedIn, Exchange.recorded?, Server.next] using hstored
            | error e =>
              have hsame := hdb.unstored v s e ha
              simpa [recordedIn, Exchange.recorded?, Server.next] using hsame
          | _ => exact hx.elim
        | _ => exact hx.elim
      · have hnone : recordedIn table [x] = [] :=
          recordedIn_quiet fun y hy => List.mem_singleton.mp hy ▸ hx
        rw [hnone, hq.1 hx]
        exact (List.append_nil _).symm
    rw [after_cons, ih hg.2 hq.2, hone, ← List.singleton_append (l := xs), recordedIn_append,
      List.map_append, List.append_assoc]

end Server

namespace Upgrade

variable {σ : Type} {u : Upgrade} {d : Dialect} {xs : List Exchange}

/-- A step records its version if it succeeds, and nothing else. -/
theorem StepLog.recordedIn {t : Step} {r : Except MigrationError Unit} (h : u.StepLog d t xs r)
    (hbody : (t.body d).SparesHistory u.settings.historyTable) :
    recordedIn u.settings.historyTable xs = match r with
      | .ok _ => [t.version]
      | .error _ => [] := by
  rcases h.record_last hbody with ⟨⟨e, rfl⟩, hnone⟩ | ⟨quiet, a, rfl, hquiet, rfl⟩
  · exact recordedIn_quiet hnone
  · rw [recordedIn_append, recordedIn_quiet hquiet]
    cases a with
    | error e => rfl
    | ok a =>
      show [] ++ SchemaMigration.recordedIn _ _ = [t.version]
      simp [SchemaMigration.recordedIn, Exchange.recorded?, recordOf]

theorem AllRecorded.recordedIn {steps : List Step} (h : u.AllRecorded d steps xs)
    (hbodies : ∀ t ∈ steps, (t.body d).SparesHistory u.settings.historyTable) :
    recordedIn u.settings.historyTable xs = steps.map (·.version) := by
  induction h with
  | nil => rfl
  | cons hrec _ ih =>
    obtain ⟨hbody, hrest⟩ := List.forall_mem_cons.mp hbodies
    rw [recordedIn_append, StepLog.recordedIn (r := .ok ()) hrec hbody, ih hrest]
    rfl

/-- Opening the history records nothing. -/
theorem recordedIn_opening {boot : List Exchange} {q : Except MigrationError VersionSet}
    (h : u.Opened d boot q) :
    SchemaMigration.recordedIn u.settings.historyTable (.acquire (.ok ()) :: boot) = [] :=
  recordedIn_quiet (List.forall_mem_cons.mpr ⟨id, (u.opening_spares _ _).of_path h.path⟩)

/-- **A run records the steps that it applies.** -/
theorem RunLog.recordedIn {closed : Bool} {planned : Option (List Step)} {applied : List Step}
    {r : Except MigrationError RunReport} (h : u.RunLog closed xs planned applied r)
    (hbodies : u.registry.SparesHistory u.settings.historyTable) :
    recordedIn u.settings.historyTable xs = applied.map (·.version) := by
  cases h with
  | unsupported | closed | unreached => rfl
  | unopened hd hc hopen | unplanned hd hc hopen => exact recordedIn_opening hopen
  | finished hd hc hopen hp hs =>
    rw [← List.cons_append, recordedIn_append, recordedIn_opening hopen,
      hs.recordedIn fun t ht => hbodies t (Registry.plan_mem hp ht) _]
    rfl
  | @stopped d boot completed before t rest ys zs e hd hc hopen hp hs hz =>
    have hmem : ∀ t' ∈ applied ++ t :: rest, (t'.body d).SparesHistory u.settings.historyTable :=
      fun t' ht => hbodies t' (Registry.plan_mem hp ht) d
    rw [← List.cons_append, recordedIn_append, recordedIn_opening hopen, recordedIn_append,
      hs.recordedIn fun t' ht => hmem t' (List.mem_append_left _ ht),
      StepLog.recordedIn (r := .error e) hz (hmem t (by simp))]
    simp

/-- In the body of a step, the steps before it are recorded, and nothing else is. -/
theorem InStep.recordedIn {before rest : List Step} {t : Step} {pre : List Exchange} {x : Exchange}
    (h : u.InStep d before t pre x)
    (hbodies : ∀ t' ∈ before ++ t :: rest, (t'.body d).SparesHistory u.settings.historyTable) :
    recordedIn u.settings.historyTable pre = before.map (·.version) := by
  obtain ⟨boot, completed, ys, part, tail, r, rfl, hopen, hall, hpath⟩ := h
  have hpart : ∀ y ∈ .acquire (.ok ()) :: part, ¬ y.IsRecord u.settings.historyTable := by
    have hbody := (hbodies t (by simp)).of_path hpath
    exact List.forall_mem_cons.mpr ⟨id, fun y hy => hbody y (List.mem_append_left _ hy)⟩
  rw [← List.cons_append, recordedIn_append, recordedIn_opening hopen, recordedIn_append,
    hall.recordedIn fun t' ht => hbodies t' (List.mem_append_left _ ht), recordedIn_quiet hpart]
  simp

end Upgrade
end SchemaMigration
