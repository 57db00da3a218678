import SchemaMigration.Proofs.Records

/-!
# What a host sees

Whoever hosts an upgrade may look at its progress between calls, and the body of a step may look at
it while it is at work.  Whatever was called before, the progress tells how far the latest run came,
and how it ended (`progress_consistent`).

A progress is consistent if its steps read as those done, then at most one that is at work or has
failed, then those still to come (`Progress.Tells`).  Every stage of a run is consistent
(`Progress.stage_tells`), a run only ever shows stages, and no other call changes the progress
(`Call.after_progress`).
-/
namespace SchemaMigration
open Program

/-- The error names a step that failed. -/
def MigrationError.IsStep : MigrationError → Prop
  | .step _ _ _ => True
  | _ => False

namespace Progress

/-- The progress tells of the selected `versions` that the first `done` of them are done. -/
structure Tells (p : Progress) (versions : List Version) (done : Nat) : Prop where
  /-- The steps are the selected ones, in ascending order. -/
  selected : p.steps.map (·.1) = versions
  ascending : versions.Pairwise (· < ·)
  total : p.total = versions.length
  completed : p.completed = done
  /-- First come those done, then at most one at work or failed, then only those still to come. -/
  states : ∃ (now : Option StepStatus) (left : Nat), (∀ s ∈ now, s = .running ∨ s = .failed) ∧
    p.steps.map (·.2) =
      List.replicate done .succeeded ++ (now.toList ++ List.replicate left .pending)

/-- The run is at work on the step `v`, and on no other one. -/
structure WorksOn (p : Progress) (v : Version) : Prop where
  status : p.status = .running
  current : p.current = some (v, .running)
  only : p.steps.filter (·.2 = .running) = [(v, .running)]
  error : p.error = none
  unfinished : p.finished = false

/-- The run has ended well. -/
structure EndedWell (p : Progress) : Prop where
  status : p.status = .succeeded
  completed : p.completed = p.total
  current : p.current = none
  error : p.error = none
  finished : p.finished = true

/-- The run has ended with the error `e`. -/
structure EndedWith (p : Progress) (e : MigrationError) : Prop where
  status : p.status = .failed
  finished : p.finished = true
  error : p.error = some e.message
  still : ∀ entry ∈ p.steps, entry.2 ≠ .running
  /-- A step has failed just when the error says so, and it is the step that the error names. -/
  failed : ∀ v, (v, .failed) ∈ p.steps ↔ ∃ description cause, e = .step v description cause

variable {status : RunStatus} {done rest : List Version} {now : Option (Version × StepStatus)}
  {error : Option String} {v : Version}

/-- **Every stage of a run is consistent.** -/
theorem stage_tells {versions : List Version} {k : Nat} (hsorted : versions.Pairwise (· < ·))
    (hv : versions = done ++ (now.toList.map (·.1) ++ rest)) (hk : k = done.length)
    (hnow : ∀ entry ∈ now, entry.2 = .running ∨ entry.2 = .failed) :
    (stage status done now rest error).Tells versions k := by
  subst hv hk
  refine ⟨?_, hsorted, ?_, rfl, now.map (·.2), rest.length, ?_, ?_⟩
  · simp [stage, Function.comp_def]
  · simp [stage, Nat.add_assoc]
  · intro s hs
    obtain ⟨entry, hentry, rfl⟩ := Option.map_eq_some_iff.mp hs
    exact hnow entry hentry
  · cases now <;> simp [stage, Function.comp_def]

theorem stage_worksOn : (stage .running done (some (v, .running)) rest none).WorksOn v := by
  refine ⟨rfl, rfl, ?_, rfl, rfl⟩
  have hdone : (done.map (·, StepStatus.succeeded)).filter (·.2 = .running) = [] := by simp
  have hrest : (rest.map (·, StepStatus.pending)).filter (·.2 = .running) = [] := by simp
  simp only [stage, List.filter_append, hdone, hrest]
  rfl

theorem stage_endedWell : (stage .succeeded done none [] none).EndedWell :=
  ⟨rfl, rfl, rfl, rfl, rfl⟩

/-- Without a selection there is no step that could have failed. -/
theorem stage_endedWith {e : MigrationError} (he : ¬ e.IsStep) :
    (stage .failed [] none [] (some e.message)).EndedWith e := by
  refine ⟨rfl, rfl, rfl, fun _ h => (List.not_mem_nil h).elim, fun v => ?_⟩
  constructor
  · intro h
    exact (List.not_mem_nil h).elim
  · rintro ⟨description, cause, rfl⟩
    exact (he trivial).elim

theorem stage_endedWith_step {description : String} {cause : MigrationError} :
    (stage .failed done (some (v, .failed)) rest
      (some (MigrationError.step v description cause).message)).EndedWith
        (.step v description cause) := by
  refine ⟨rfl, rfl, rfl, ?_, fun w => ?_⟩
  · rintro ⟨w, s⟩ hentry rfl
    simp [stage] at hentry
  · constructor
    · intro hentry
      have hw : w = v := by simpa [stage] using hentry
      exact ⟨description, cause, hw ▸ rfl⟩
    · rintro ⟨description', cause', he⟩
      cases he
      simp [stage]

end Progress

/-! ## Runs -/

namespace Upgrade

variable {σ : Type} {u : Upgrade} {closed : Bool} {log : List Exchange}
  {planned : Option (List Step)} {applied : List Step} {r : Except MigrationError RunReport}

/-- A run that selects no steps does not blame one. -/
theorem RunLog.not_isStep {e : MigrationError} (h : u.RunLog closed log none applied (.error e)) :
    ¬ e.IsStep := by
  cases h with
  | unsupported hd =>
    cases dialect_error hd
    exact id
  | closed | unreached => exact id
  | @unopened d boot e hd hc hopen =>
    have hopening := ((u.opening_orderly d).within.of_path hopen.path).2 e rfl
    cases e <;> first | exact id | exact hopening.elim
  | unplanned hd hc hopen hp =>
    rcases Registry.plan_error hp with ⟨missing, found, rfl⟩ | ⟨database, latest, rfl⟩ <;> exact id

/-- The selected steps stand in ascending order. -/
theorem RunLog.ascending (h : u.RunLog closed log planned applied r) {steps : List Step}
    (hsteps : planned = some steps) : (steps.map (·.version)).Pairwise (· < ·) := by
  cases h with
  | finished _ _ _ hp _ | stopped _ _ _ hp _ _ =>
    cases hsteps
    exact List.pairwise_map.mpr (Registry.plan_ascending hp)
  | _ => cases hsteps

theorem RunLog.planned_registered (h : u.RunLog closed log planned applied r) {steps : List Step}
    (hsteps : planned = some steps) {t : Step} (ht : t ∈ steps) : t ∈ u.registry.steps.toList := by
  cases h with
  | finished _ _ _ hp _ | stopped _ _ _ hp _ _ =>
    cases hsteps
    exact Registry.plan_mem hp ht
  | _ => cases hsteps

/-- What the progress says at the end of a run with this log and this result. -/
def Rests (u : Upgrade) (closed : Bool) (log : List Exchange)
    (r : Except MigrationError RunReport) (p : Progress) : Prop :=
  ∃ planned applied, u.RunLog closed log planned applied r ∧
    p.Tells ((planned.getD []).map (·.version)) applied.length ∧
    (match r with
      | .ok _ => p.EndedWell
      | .error e => p.EndedWith e) ∧
    (u.registry.SparesHistory u.settings.historyTable →
      recordedIn u.settings.historyTable log = applied.map (·.version))

/-- What the progress says when the body of a step, after the exchanges `pre` of a run with this log
and this result, looks at it. -/
def AtWork (u : Upgrade) (closed : Bool) (log : List Exchange)
    (r : Except MigrationError RunReport) (pre : List Exchange) (p : Progress) : Prop :=
  ∃ d before t rest applied, u.RunLog closed log (some (before ++ t :: rest)) applied r ∧
    u.InStep d before t pre (.observe p) ∧
    p.Tells ((before ++ t :: rest).map (·.version)) before.length ∧ p.WorksOn t.version ∧
    (u.registry.SparesHistory u.settings.historyTable →
      recordedIn u.settings.historyTable pre = before.map (·.version))

/-- **At the end of a run** its progress is consistent, and says how it ended. -/
theorem RunLog.rests {p : Progress} (h : u.RunLog closed log planned applied r)
    (hp : Settled planned applied r p) : u.Rests closed log r p := by
  refine ⟨planned, applied, h, ?_, ?_, h.recordedIn⟩
  · cases hp with
    | unplanned e => exact Progress.stage_tells .nil rfl rfl (by simp)
    | finished steps report =>
      exact Progress.stage_tells (h.ascending rfl) (by simp) (by simp) (by simp)
    | stopped before t rest e =>
      exact Progress.stage_tells (h.ascending rfl) (by simp) (by simp) (by simp)
  · cases hp with
    | unplanned e => exact Progress.stage_endedWith h.not_isStep
    | finished steps report => exact Progress.stage_endedWell
    | stopped before t rest e => exact Progress.stage_endedWith_step

/-- **In the body of a step** the progress of its run is consistent, and says that the run works on
the step. -/
theorem Placed.atWork {pre post : List Exchange} {p : Progress}
    (h : u.RunLog closed log planned applied r)
    (hplaced : u.Placed none planned r pre (.observe p) post) :
    u.AtWork closed log r pre p := by
  obtain ⟨d, before, t, rest, rfl, hbody, rfl⟩ := hplaced.observed
  refine ⟨d, before, t, rest, applied, h, hbody, ?_, Progress.stage_worksOn, fun hbodies => ?_⟩
  · exact Progress.stage_tells (h.ascending rfl) (by simp) (by simp) (by simp)
  · exact hbody.recordedIn fun t' ht => hbodies t' (h.planned_registered rfl ht) d

end Upgrade

/-! ## Calls -/

/-- What a host calls. -/
inductive Call
  /-- A run with the settings of the upgrade. -/
  | run
  /-- A run with the usual settings, and a progress of its own. -/
  | runApart
  | status
  /-- A look at the progress. -/
  | progress
  | dialect
  /-- Closing the pool. -/
  | close

namespace Call

variable {σ : Type} (u : Upgrade) (srv : Server σ)

/-- The world after a call, whether it failed or not. -/
def after (w : World σ) : Call → World σ
  | run => World.leftBy (u.run srv w)
  | runApart => World.leftBy (u.runApart srv w)
  | status => World.leftBy (u.status srv w)
  | progress | dialect => w
  | close => { w with closed := true }

/-- The world after calls, one after the other. -/
def afterAll (w : World σ) (calls : List Call) : World σ :=
  calls.foldl (after u srv) w

variable {u srv} {w : World σ}

/-- A run apart is a run of its own, after which the progress is what it was before. -/
theorem runApart_performs (u : Upgrade) (srv : Server σ) (w : World σ) :
    ∃ xs r w', Performs srv (u.runApart srv) w xs r w' ∧ w'.progress = w.progress ∧
      ∃ p, ({ u with settings := {} } : Upgrade).Course w.closed (some w.visibleProgress) xs r
        p := by
  obtain ⟨xs, r, w', p, hrun, hcourse, -⟩ := ({ u with settings := {} } : Upgrade).run_performs srv
    { w with progress := {}, shown := some w.visibleProgress }
  refine ⟨xs, r, { w' with progress := w.progress, shown := w.shown }, ⟨?_, ?_⟩, rfl, p, hcourse⟩
  · simp only [Upgrade.runApart, hrun.eq]
    cases r <;> rfl
  · exact ⟨hrun.leads.journal, hrun.leads.server, hrun.leads.closed, rfl⟩

/-- No call changes what is shown to steps. -/
theorem after_shown (call : Call) : (call.after u srv w).shown = w.shown := by
  cases call with
  | run =>
    obtain ⟨xs, r, w', p, hrun, -, -⟩ := u.run_performs srv w
    rw [after, hrun.eq, World.leftBy_ended, hrun.leads.shown]
  | runApart =>
    obtain ⟨xs, r, w', hrun, -, -⟩ := runApart_performs u srv w
    rw [after, hrun.eq, World.leftBy_ended, hrun.leads.shown]
  | status =>
    obtain ⟨xs, r, w', hstatus, -, -⟩ := u.status_performs srv w
    rw [after, hstatus.eq, World.leftBy_ended, hstatus.leads.shown]
  | progress | dialect | close => rfl

/-- **Only a run changes the progress.** -/
theorem after_progress {call : Call} (h : call ≠ .run) :
    (call.after u srv w).progress = w.progress := by
  cases call with
  | run => exact (h rfl).elim
  | runApart =>
    obtain ⟨xs, r, w', hrun, hprogress, -⟩ := runApart_performs u srv w
    rw [after, hrun.eq, World.leftBy_ended, hprogress]
  | status =>
    obtain ⟨xs, r, w', hstatus, -, hprogress⟩ := u.status_performs srv w
    rw [after, hstatus.eq, World.leftBy_ended, hprogress]
  | progress | dialect | close => rfl

theorem afterAll_shown (calls : List Call) : (afterAll u srv w calls).shown = w.shown := by
  induction calls generalizing w with
  | nil => rfl
  | cons call rest ih => exact ih.trans (after_shown call)

/-- **After any calls the progress is that of the latest run**, or the one at the beginning. -/
theorem afterAll_progress (calls : List Call) :
    (.run ∉ calls ∧ (afterAll u srv w calls).progress = w.progress) ∨
      ∃ earlier later, calls = earlier ++ .run :: later ∧ .run ∉ later ∧
        (afterAll u srv w calls).progress =
          (World.leftBy (u.run srv (afterAll u srv w earlier))).progress := by
  induction calls generalizing w with
  | nil => exact Or.inl ⟨List.not_mem_nil, rfl⟩
  | cons call rest ih =>
    rcases ih (w := call.after u srv w) with ⟨hnone, hsame⟩ | ⟨earlier, later, rfl, hlater, hsame⟩
    · by_cases hcall : call = .run
      · subst hcall
        exact Or.inr ⟨[], rest, rfl, hnone, hsame⟩
      · refine Or.inl ⟨?_, hsame.trans (after_progress hcall)⟩
        intro hmem
        rcases List.mem_cons.mp hmem with hrun | hrun
        · exact hcall hrun.symm
        · exact hnone hrun
    · exact Or.inr ⟨call :: earlier, later, rfl, hlater, hsame⟩

/-- A look at the history asks for nothing but the history. -/
theorem blind_status {closed : Bool} {xs : List Exchange}
    {r : Except MigrationError StatusReport} (h : u.StatusCourse closed xs r) (p : Progress) :
    .observe p ∉ xs := by
  have hread : ∀ {read : List Exchange} {q : Except MigrationError VersionSet},
      (History.completed u.settings.historyTable).Path read q →
      .observe p ∉ .acquire (.ok ()) :: read := by
    intro read q hpath hin
    have hasks : (History.completed u.settings.historyTable).Orderly
        (fun e => ∀ p, e ≠ .progress p) MigrationError.OfOpening :=
      History.completed_orderly (by simp) (by simp) _
    have hin := (List.mem_cons.mp hin).resolve_left (by simp)
    exact (hasks.within.of_path hpath).1 _ hin p rfl
  cases h with
  | unsupported | closed | unreached => simp
  | unread hd hc hpath | read hd hc hpath => exact hread hpath

/-- **What steps see during a call**: that of their run, or that of the latest run if their own run
is one apart. -/
theorem look (call : Call) (hw : w.shown = none) {pre post : List Exchange} {p : Progress}
    (hx : srv.exchanges w (call.after u srv w) = pre ++ .observe p :: post) :
    (call = .run ∧ u.AtWork w.closed (srv.exchanges w (World.leftBy (u.run srv w)))
        (World.outcome (u.run srv w)) pre p) ∨
      (call = .runApart ∧ p = w.progress) := by
  have hidle : ∀ w' : World σ, w'.journal = w.journal → srv.exchanges w w' = [] := by
    intro w' hw'
    rw [Server.exchanges, hw', List.drop_length]
    rfl
  cases call with
  | run =>
    obtain ⟨xs, r, w', q, hrun, hcourse, -⟩ := u.run_performs srv w
    obtain ⟨planned, applied, hlog, -, hplaced⟩ := hcourse.log
    rw [after, hrun.eq, World.leftBy_ended, hrun.leads.exchanges] at hx
    rw [hrun.eq, World.leftBy_ended, World.outcome_ended, hrun.leads.exchanges]
    have hseen := hplaced pre (.observe p) post hx
    rw [hw] at hseen
    exact Or.inl ⟨rfl, hseen.atWork hlog⟩
  | runApart =>
    -- its steps are shown the progress of the latest run, not that of their own
    obtain ⟨xs, r, w', hrun, -, q, hcourse⟩ := runApart_performs u srv w
    obtain ⟨planned, applied, -, -, hplaced⟩ := hcourse.log
    rw [after, hrun.eq, World.leftBy_ended, hrun.leads.exchanges] at hx
    obtain ⟨d, before, t, rest, -, -, hseen⟩ := (hplaced pre (.observe p) post hx).observed
    refine Or.inr ⟨rfl, hseen.trans ?_⟩
    rw [Option.getD_some, World.visibleProgress, hw, Option.getD_none]
  | status =>
    obtain ⟨xs, r, w', hstatus, hcourse, -⟩ := u.status_performs srv w
    rw [after, hstatus.eq, World.leftBy_ended, hstatus.leads.exchanges] at hx
    exact (blind_status hcourse p (by simp [hx])).elim
  | progress | dialect | close =>
    have hnil := (hidle _ rfl).symm.trans hx
    simp at hnil

end Call

/-- **The progress is consistent whenever it can be read**, after any calls and in the steps of the
next one. -/
theorem progress_consistent {σ : Type} (u : Upgrade) (srv : Server σ) (start : σ)
    (calls : List Call) :
    let fresh : World σ := { server := start }
    let w := Call.afterAll u srv fresh calls
    ((.run ∉ calls ∧ w.progress = {}) ∨
      ∃ earlier later, calls = earlier ++ .run :: later ∧ .run ∉ later ∧
        let v := Call.afterAll u srv fresh earlier
        u.Rests v.closed (srv.exchanges v (World.leftBy (u.run srv v)))
          (World.outcome (u.run srv v)) w.progress) ∧
    ∀ call pre p post, srv.exchanges w (Call.after u srv w call) = pre ++ .observe p :: post →
      (call = .run ∧ u.AtWork w.closed (srv.exchanges w (World.leftBy (u.run srv w)))
          (World.outcome (u.run srv w)) pre p) ∨
        (call = .runApart ∧ p = w.progress) := by
  intro fresh w
  constructor
  · rcases Call.afterAll_progress calls with
      ⟨hnone, hsame⟩ | ⟨earlier, later, hcalls, hlater, hsame⟩
    · exact Or.inl ⟨hnone, hsame⟩
    · refine Or.inr ⟨earlier, later, hcalls, hlater, ?_⟩
      intro v
      obtain ⟨xs, r, w', q, hrun, hcourse, hclosing⟩ := u.run_performs srv v
      obtain ⟨planned, applied, hlog, hsettled, -⟩ := hcourse.log
      have hprogress : w.progress = w'.progress := by
        rw [hsame, hrun.eq, World.leftBy_ended]
      rw [hrun.eq, World.leftBy_ended, World.outcome_ended, hrun.leads.exchanges, hprogress,
        hclosing]
      exact hlog.rests hsettled
  · intro call pre p post hx
    exact Call.look call (Call.afterAll_shown calls) hx

end SchemaMigration
