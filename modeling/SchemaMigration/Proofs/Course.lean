import SchemaMigration.Upgrade
import SchemaMigration.Proofs.Paths

/-!
# The course of a run

What a run can do, said once.  A step is either applied and recorded (`Upgrade.Recorded`) or fails:
it may get no connection, fail itself, get no second connection for its record, or have its record
refused (`Upgrade.Stopped`).  `Upgrade.StepsCourse` puts steps one after the other up to the first
that fails, and `Upgrade.Course` puts the opening in front: the connection, the history table, and
the plan.

Each of them also says how the progress develops and what a step sees of it.  The function that
runs a step, several steps, or everything performs such a course (`Upgrade.applyStep_performs`,
`Upgrade.applyAll_performs`, `Upgrade.run_performs`); whatever holds of all runs is proved by
induction on courses, and nothing below unfolds a run again.
-/
namespace SchemaMigration
namespace Upgrade
open Program

variable {σ : Type} (u : Upgrade)

/-- What a run does on its first connection: it makes sure that there is a history table, then
reads it. -/
def opening (d : Dialect) : Program VersionSet := do
  History.prepare d u.settings.historyTable
  History.completed u.settings.historyTable

/-- The statement that records a version. -/
def recordOf (v : Version) : Statement :=
  .recordVersion u.settings.historyTable v

/-- The exchanges of a step that is applied and recorded: a connection, all that its body asks for,
a second connection, and the record. -/
def Recorded (d : Dialect) (s : Step) (xs : List Exchange) : Prop :=
  ∃ body, (s.body d).Path body (.ok ()) ∧
    xs = .acquire (.ok ()) ::
      (body ++ [.acquire (.ok ()), .execute (u.recordOf s.version) (.ok ())])

/-- The exchanges of a step that fails, and the error.  The record is sent in one case only. -/
inductive Stopped (d : Dialect) (s : Step) : List Exchange → MigrationError → Prop
  | unreached (e) : Stopped d s [.acquire (.error e)] (.driver e)
  | failed {body e} (h : (s.body d).Path body (.error e)) :
    Stopped d s (.acquire (.ok ()) :: body) e
  | unrecordable {body} (e) (h : (s.body d).Path body (.ok ())) :
    Stopped d s (.acquire (.ok ()) :: (body ++ [.acquire (.error e)])) (.driver e)
  | unrecorded {body} (e) (h : (s.body d).Path body (.ok ())) :
    Stopped d s (.acquire (.ok ()) ::
      (body ++ [.acquire (.ok ()), .execute (u.recordOf s.version) (.error e)])) (.driver e)

/-- The exchanges of one step, and its result. -/
def StepLog (d : Dialect) (s : Step) (xs : List Exchange) : Except MigrationError Unit → Prop
  | .ok _ => u.Recorded d s xs
  | .error e => u.Stopped d s xs e

/-- The exchanges of steps one after the other, and their result.  The indices before and after are
the progress at the beginning and at the end; `shown` is what steps see instead of the progress. -/
inductive StepsCourse (d : Dialect) (shown : Option Progress) : Progress → List Step →
    List Exchange → Except MigrationError (List Version) → Progress → Prop
  | done (p) : StepsCourse d shown p [] [] (.ok []) p
  | stop {p s rest xs e} (h : u.Stopped d s xs e)
    (sees : Exchange.Sees (shown.getD (p.mark s.version .running)) xs) :
    StepsCourse d shown p (s :: rest) xs (.error (.step s.version s.description e))
      ((p.mark s.version .running).mark s.version .failed)
  | step {p s rest xs ys r q} (h : u.Recorded d s xs)
    (sees : Exchange.Sees (shown.getD (p.mark s.version .running)) xs)
    (tail : StepsCourse d shown ((p.mark s.version .running).stepDone s.version) rest ys r q) :
    StepsCourse d shown p (s :: rest) (xs ++ ys) (r.map (s.version :: ·)) q

/-- The progress at the end of a run. -/
def closing (r : Except MigrationError RunReport) (p : Progress) : Progress :=
  match r with
  | .ok _ => p.succeeded
  | .error e => p.failed e.message

/-- The exchanges of a run, its result, and the progress before its end; `closed` says whether the
pool is closed. -/
inductive Course (closed : Bool) (shown : Option Progress) :
    List Exchange → Except MigrationError RunReport → Progress → Prop
  | unsupported {e} (hd : u.dialect = .error e) : Course closed shown [] (.error e) .begun
  | closed {d} (hd : u.dialect = .ok d) (hc : closed = true) :
    Course closed shown [] (.error (.driver .poolClosed)) .begun
  | unreached {d} (e) (hd : u.dialect = .ok d) (hc : closed = false) :
    Course closed shown [.acquire (.error e)] (.error (.driver e)) .begun
  | unopened {d xs e} (hd : u.dialect = .ok d) (hc : closed = false)
    (h : (u.opening d).Path xs (.error e)) :
    Course closed shown (.acquire (.ok ()) :: xs) (.error e) .begun
  | unplanned {d xs completed e} (hd : u.dialect = .ok d) (hc : closed = false)
    (h : (u.opening d).Path xs (.ok completed))
    (hp : u.registry.plan u.settings.policy completed = .error e) :
    Course closed shown (.acquire (.ok ()) :: xs) (.error e) .begun
  | planned {d xs completed pending ys r p} (hd : u.dialect = .ok d) (hc : closed = false)
    (h : (u.opening d).Path xs (.ok completed))
    (hp : u.registry.plan u.settings.policy completed = .ok pending)
    (steps : u.StepsCourse d shown (Progress.begun.planned (pending.map (·.version))) pending ys
      r p) :
    Course closed shown (.acquire (.ok ()) :: (xs ++ ys))
      (r.map fun applied => ⟨d, applied, completed.size⟩) p

/-- The exchanges of a look at the history without a run, and its result. -/
inductive StatusCourse (closed : Bool) :
    List Exchange → Except MigrationError StatusReport → Prop
  | unsupported {e} (hd : u.dialect = .error e) : StatusCourse closed [] (.error e)
  | closed {d} (hd : u.dialect = .ok d) (hc : closed = true) :
    StatusCourse closed [] (.error (.driver .poolClosed))
  | unreached {d} (e) (hd : u.dialect = .ok d) (hc : closed = false) :
    StatusCourse closed [.acquire (.error e)] (.error (.driver e))
  | unread {d xs e} (hd : u.dialect = .ok d) (hc : closed = false)
    (h : (History.completed u.settings.historyTable).Path xs (.error e)) :
    StatusCourse closed (.acquire (.ok ()) :: xs) (.error e)
  | read {d xs completed} (hd : u.dialect = .ok d) (hc : closed = false)
    (h : (History.completed u.settings.historyTable).Path xs (.ok completed)) :
    StatusCourse closed (.acquire (.ok ()) :: xs)
      ((u.registry.plan u.settings.policy completed).map fun pending =>
        ⟨d, completed.toList, pending.map (·.version), u.registry.latest?⟩)

section Performs

variable {u} (srv : Server σ) {w : World σ} {d : Dialect}

theorem applyAndRecord_performs (s : Step) (hw : w.closed = false) :
    ∃ xs r w', Performs srv (u.applyAndRecord srv d s) w xs r w' ∧ u.StepLog d s xs r ∧
      w'.progress = w.progress ∧ Exchange.Sees w.visibleProgress xs := by
  have hconn := Performs.connect srv hw
  cases ha : (srv.connect w.server).1 with
  | error e =>
    rw [ha] at hconn
    exact ⟨_, .error _, _, hconn.bind_error, Stopped.unreached e, rfl, by simp [Exchange.Sees]⟩
  | ok =>
    rw [ha] at hconn
    obtain ⟨body, r, w₁, hbody, hpath, hprog, hsees⟩ :=
      (s.body d).run_performs srv (some (spanOf s)) (w.served [.acquire] (srv.connect w.server).2)
    change Exchange.Sees w.visibleProgress body at hsees
    cases r with
    | error e =>
      -- the body has failed, so no second connection is taken
      refine ⟨_, .error e, _, hconn.bind_ok hbody.bind_error, Stopped.failed hpath, hprog, ?_⟩
      exact Exchange.sees_append.mpr ⟨by simp [Exchange.Sees], hsees⟩
    | ok =>
      -- the record has a connection of its own, which may fail too
      have hw₁ : w₁.closed = false := hbody.leads.closed.trans hw
      have hconn₁ := Performs.connect srv hw₁
      cases hb : (srv.connect w₁.server).1 with
      | error e =>
        rw [hb] at hconn₁
        refine ⟨_, .error _, _, hconn.bind_ok (hbody.bind_ok hconn₁.bind_error),
          Stopped.unrecordable e hpath, hprog, ?_⟩
        simp only [Exchange.sees_append]
        exact ⟨by simp [Exchange.Sees], hsees, by simp [Exchange.Sees]⟩
      | ok =>
        rw [hb] at hconn₁
        obtain ⟨ys, r, w₂, hrec, hsent, hprog₂, -⟩ :=
          (History.record u.settings.historyTable s.version).run_performs srv (some (spanOf s))
            (w₁.served [.acquire] (srv.connect w₁.server).2)
        obtain ⟨a, rfl, rfl⟩ := Path.of_send hsent
        refine ⟨_, _, _, hconn.bind_ok (hbody.bind_ok (hconn₁.bind_ok hrec)), ?_,
          hprog₂.trans hprog, ?_⟩
        · cases a with
          | ok => exact ⟨body, hpath, rfl⟩
          | error e => exact Stopped.unrecorded e hpath
        · simp only [Exchange.sees_append]
          exact ⟨by simp [Exchange.Sees], hsees, by simp [Exchange.Sees], by simp [Exchange.Sees]⟩

/-- **One step**: it becomes the running one, goes one of its ways, and is done or has failed. -/
theorem applyStep_performs (s : Step) (hw : w.closed = false) :
    ∃ xs r w', Performs srv (u.applyStep srv d s) w xs
        (r.mapError (.step s.version s.description)) w' ∧
      u.StepLog d s xs r ∧
      Exchange.Sees (w.shown.getD (w.progress.mark s.version .running)) xs ∧
      w'.progress = match r with
        | .ok _ => (w.progress.mark s.version .running).stepDone s.version
        | .error _ => (w.progress.mark s.version .running).mark s.version .failed := by
  let w₀ : World σ := { w with progress := w.progress.mark s.version .running }
  have hmark : Performs srv (World.update (·.mark s.version .running)) w [] (.ok ()) w₀ :=
    .update srv _ w
  -- the body and the record see the step marked as running
  obtain ⟨xs, r, w₁, hrun, hlog, hprog, hsees⟩ := applyAndRecord_performs srv s (d := d) (u := u)
    (show w₀.closed = false from hw)
  cases r with
  | ok =>
    have hupd := Performs.update srv (·.stepDone s.version) w₁
    have htell := Performs.tell srv .stepApplied (some (spanOf s))
      { w₁ with progress := w₁.progress.stepDone s.version }
    refine ⟨xs, .ok (), _, hmark.bind_ok (hrun.settle.bind_silent (hupd.bind_silent htell)), hlog,
      hsees, ?_⟩
    show w₁.progress.stepDone s.version = _
    rw [hprog]
  | error e =>
    have hupd := Performs.update srv (·.mark s.version .failed) w₁
    have htell := Performs.tell srv (.stepFailed e) (some (spanOf s))
      { w₁ with progress := w₁.progress.mark s.version .failed }
    refine ⟨xs, .error e, _, hmark.bind_ok (hrun.settle.bind_silent
      (hupd.bind_silent (htell.bind_silent (.throw srv _ _)))), hlog, hsees, ?_⟩
    show w₁.progress.mark s.version .failed = _
    rw [hprog]

theorem applyAll_performs (steps : List Step) (hw : w.closed = false) :
    ∃ xs r w', Performs srv (u.applyAll srv d steps) w xs r w' ∧
      u.StepsCourse d w.shown w.progress steps xs r w'.progress := by
  induction steps generalizing w with
  | nil => exact ⟨[], .ok [], w, .pure srv [] w, .done _⟩
  | cons s rest ih =>
    obtain ⟨xs, r, w₁, hstep, hlog, hsees, hprog⟩ := applyStep_performs srv s hw (d := d) (u := u)
    cases r with
    | error e =>
      exact ⟨_, _, _, hstep.bind_error, hprog ▸ .stop hlog hsees⟩
    | ok =>
      obtain ⟨ys, q, w₂, hrest, hcourse⟩ := ih (hstep.leads.closed.trans hw)
      rw [hprog, hstep.leads.shown] at hcourse
      cases q with
      | error e =>
        exact ⟨_, _, _, hstep.bind_ok hrest.bind_error, .step hlog hsees hcourse⟩
      | ok applied =>
        have hpure := Performs.pure srv (s.version :: applied) w₂
        exact ⟨_, _, _, hstep.bind_ok (hrest.bind_silent hpure), .step hlog hsees hcourse⟩

theorem demand_performs {α : Type} {r q : Except MigrationError α} (h : r = q) (w : World σ) :
    Performs srv (demand r) w [] q w := by
  subst h
  cases r <;> exact ⟨rfl, .refl w⟩

theorem bootstrap_performs (hw : w.closed = false) :
    ∃ xs r w', Performs srv (u.bootstrap srv d) w xs r w' ∧ w'.progress = w.progress ∧
      ((∃ e, xs = [.acquire (.error e)] ∧ r = .error (.driver e)) ∨
        ∃ ys, xs = .acquire (.ok ()) :: ys ∧ (u.opening d).Path ys r) := by
  have hconn := Performs.connect srv hw
  cases ha : (srv.connect w.server).1 with
  | error e =>
    rw [ha] at hconn
    exact ⟨_, _, _, hconn.bind_error, rfl, Or.inl ⟨e, rfl, rfl⟩⟩
  | ok =>
    rw [ha] at hconn
    obtain ⟨ys, r, w₁, hrun, hpath, hprog, -⟩ := (u.opening d).run_performs srv none
      (w.served [.acquire] (srv.connect w.server).2)
    exact ⟨_, _, _, hconn.bind_ok hrun, hprog, Or.inr ⟨ys, rfl, hpath⟩⟩

/-- Choosing the steps asks for nothing. -/
theorem choose_performs (completed : VersionSet) (w : World σ) :
    ∃ w', Performs srv (u.choose completed) w [] (u.registry.plan u.settings.policy completed) w' ∧
      w'.progress = w.progress := by
  have hwarn := Performs.record srv
    ((u.registry.ignored completed).map fun v => (.versionUnknown v, none)) w
  rw [List.map_map] at hwarn
  exact ⟨_, hwarn.bind_silent (demand_performs srv rfl _), rfl⟩

/-- Everything but the beginning and the end of a run follows a course. -/
theorem proceed_performs (w : World σ) (hp : w.progress = .begun) :
    ∃ xs r w', Performs srv (u.proceed srv) w xs r w' ∧
      u.Course w.closed w.shown xs r w'.progress := by
  cases hd : u.dialect with
  | error e =>
    have hdemand := demand_performs srv hd w
    exact ⟨_, _, _, hdemand.bind_error, hp ▸ .unsupported hd⟩
  | ok d =>
    have hdemand := demand_performs srv hd w
    cases hw : w.closed with
    | true =>
      -- a closed pool ends the run before anything is asked for
      have hconn := Performs.connect_closed srv hw
      exact ⟨_, _, _, hdemand.bind_ok (hconn.bind_error.bind_error), hp ▸ .closed hd rfl⟩
    | false =>
      obtain ⟨xs, r, w₁, hboot, hprog, ⟨e, rfl, rfl⟩ | ⟨ys, rfl, hpath⟩⟩ :=
        bootstrap_performs srv hw (d := d) (u := u)
      · exact ⟨_, _, _, hdemand.bind_ok hboot.bind_error, hprog ▸ hp ▸ .unreached e hd rfl⟩
      · cases r with
        | error e =>
          exact ⟨_, _, _, hdemand.bind_ok hboot.bind_error, hprog ▸ hp ▸ .unopened hd rfl hpath⟩
        | ok completed =>
          obtain ⟨w₂, hchoose, hprog₂⟩ := choose_performs srv completed w₁ (u := u)
          cases hplan : u.registry.plan u.settings.policy completed with
          | error e =>
            rw [hplan] at hchoose
            exact ⟨_, _, _, hdemand.bind_ok (hboot.bind_silent hchoose.bind_error),
              hprog₂ ▸ hprog ▸ hp ▸ .unplanned hd rfl hpath hplan⟩
          | ok pending =>
            rw [hplan] at hchoose
            have htell := Performs.tell srv
              (.planned completed.size pending.length u.settings.policy) none w₂
            let w₃ := w₂.record [.event (.planned completed.size pending.length u.settings.policy)
              none]
            have hupd := Performs.update srv (·.planned (pending.map (·.version))) w₃
            let w₄ : World σ :=
              { w₃ with progress := w₃.progress.planned (pending.map (·.version)) }
            have hclosed : w₄.closed = false :=
              (hchoose.leads.closed.trans hboot.leads.closed).trans hw
            have hshown : w₄.shown = w.shown := hchoose.leads.shown.trans hboot.leads.shown
            have hbegun : w₄.progress = Progress.begun.planned (pending.map (·.version)) :=
              congrArg (Progress.planned _) ((hprog₂.trans hprog).trans hp)
            obtain ⟨zs, r, w₅, hall, hcourse⟩ :=
              applyAll_performs srv pending hclosed (d := d) (u := u)
            rw [hbegun, hshown] at hcourse
            cases r with
            | error e =>
              exact ⟨_, _, _, hdemand.bind_ok (hboot.bind_ok (hchoose.bind_ok (htell.bind_ok
                (hupd.bind_ok hall.bind_error)))), .planned hd rfl hpath hplan hcourse⟩
            | ok applied =>
              have hpure := Performs.pure srv (⟨d, applied, completed.size⟩ : RunReport) w₅
              exact ⟨_, _, _, hdemand.bind_ok (hboot.bind_ok (hchoose.bind_ok (htell.bind_ok
                (hupd.bind_ok (hall.bind_silent hpure))))), .planned hd rfl hpath hplan hcourse⟩

/-- **Every run follows a course**, from the beginning of its progress to its end. -/
theorem run_performs (w : World σ) :
    ∃ xs r w' p, Performs srv (u.run srv) w xs r w' ∧ u.Course w.closed w.shown xs r p ∧
      w'.progress = closing r p := by
  have hbegin := Performs.update srv (fun _ => .begun) w
  obtain ⟨xs, r, w₁, hrun, hcourse⟩ := proceed_performs srv { w with progress := .begun } rfl
    (u := u)
  cases r with
  | ok report =>
    have hupd := Performs.update srv (·.succeeded) w₁
    have htell := Performs.tell srv
      (if report.isNoop then .upToDate report.dialect report.alreadyCompleted
        else .migrated report.dialect report.applied.length) none
      { w₁ with progress := w₁.progress.succeeded }
    exact ⟨xs, _, _, _, hbegin.bind_ok (hrun.settle.bind_silent
      (hupd.bind_silent (htell.bind_silent (.pure srv report _)))), hcourse, rfl⟩
  | error e =>
    have hupd := Performs.update srv (·.failed e.message) w₁
    have htell := Performs.tell srv (.failed e) none
      { w₁ with progress := w₁.progress.failed e.message }
    exact ⟨xs, _, _, _, hbegin.bind_ok (hrun.settle.bind_silent
      (hupd.bind_silent (htell.bind_silent (.throw srv e _)))), hcourse, rfl⟩

/-- **Every look at the history follows its course**, and leaves the progress alone. -/
theorem status_performs (w : World σ) :
    ∃ xs r w', Performs srv (u.status srv) w xs r w' ∧ u.StatusCourse w.closed xs r ∧
      w'.progress = w.progress := by
  cases hd : u.dialect with
  | error e =>
    have hdemand := demand_performs srv hd w
    exact ⟨_, _, _, hdemand.bind_error, .unsupported hd, rfl⟩
  | ok d =>
    have hdemand := demand_performs srv hd w
    cases hw : w.closed with
    | true =>
      have hconn := Performs.connect_closed srv hw
      exact ⟨_, _, _, hdemand.bind_ok hconn.bind_error, .closed hd rfl, rfl⟩
    | false =>
      have hconn := Performs.connect srv hw
      cases ha : (srv.connect w.server).1 with
      | error e =>
        rw [ha] at hconn
        exact ⟨_, _, _, hdemand.bind_ok hconn.bind_error, .unreached e hd rfl, rfl⟩
      | ok =>
        rw [ha] at hconn
        obtain ⟨ys, r, w₁, hrun, hpath, hprog, -⟩ :=
          (History.completed u.settings.historyTable).run_performs srv none
            (w.served [.acquire] (srv.connect w.server).2)
        cases r with
        | error e =>
          exact ⟨_, _, _, hdemand.bind_ok (hconn.bind_ok hrun.bind_error), .unread hd rfl hpath,
            hprog⟩
        | ok completed =>
          obtain ⟨w₂, hchoose, hprog₂⟩ := choose_performs srv completed w₁ (u := u)
          have hcourse := (StatusCourse.read hd rfl hpath : u.StatusCourse false _ _)
          cases hplan : u.registry.plan u.settings.policy completed with
          | error e =>
            rw [hplan] at hchoose hcourse
            exact ⟨_, _, _, hdemand.bind_ok (hconn.bind_ok (hrun.bind_silent hchoose.bind_error)),
              hcourse, hprog₂.trans hprog⟩
          | ok pending =>
            rw [hplan] at hchoose hcourse
            have hpure := Performs.pure srv (⟨d, completed.toList, pending.map (·.version),
              u.registry.latest?⟩ : StatusReport) w₂
            exact ⟨_, _, _, hdemand.bind_ok (hconn.bind_ok (hrun.bind_silent
              (hchoose.bind_silent hpure))), hcourse, hprog₂.trans hprog⟩

end Performs

end Upgrade
end SchemaMigration
