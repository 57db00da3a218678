import SchemaMigration.Script
import SchemaMigration.Proofs.CatalogHistory
import SchemaMigration.Proofs.Records

/-!
# Resuming

Run after run of one upgrade on a database that keeps its history exactly: the versions that the
runs record follow the plan that was there at the beginning, without a gap and without a repetition,
until it is finished (`resume_exact`).

What a run finds completed is what was completed at the beginning and what the runs before it have
recorded; by the law of resuming (`Registry.plan_advance`) its plan is what is left of the first
one.
-/
namespace SchemaMigration
open Program

/-! ## The history table -/

namespace History

variable {σ : Type} {srv : Server σ} {name : String} {rows : σ → List String} {present : σ → Prop}
  {s : σ} {d : Dialect} {ens : List Exchange} {q : Except MigrationError Bool}

/-- Nothing is sent to make sure of a history table that is there. -/
theorem creating_sends_nothing (h : Guarded.Creating d (table name) ens q)
    (hdb : srv.KeepsExactly name rows present) (hg : srv.Gives s ens) (hs : present s)
    (st : Statement) (a : Except DriverError Unit) : .execute st a ∉ ens := by
  cases h with
  | flawed | unanswered | unlisted | present | incomplete => simp
  | @created n st' hsound hn hst b =>
    have hcount : (srv.count (.object (.table name)) s).1 = .ok n :=
      (Exchange.count.inj (Option.some.inj hg.1)).2
    have hpos := (hdb.found s n hcount).mpr hs
    omega

/-- When that succeeds, the history table is there. -/
theorem creating_present {made : Bool} (h : Guarded.Creating d (table name) ens (.ok made))
    (hdb : srv.KeepsExactly name rows present) (hg : srv.Gives s ens)
    (hl : srv.Lasts present s ens) : present (srv.after s ens) := by
  generalize hq : (Except.ok made : Except MigrationError Bool) = q at h
  cases h with
  | flawed | unanswered | unlisted | incomplete => cases hq
  | @present n columns hsound hn hall =>
    have hcount : (srv.count (.object (.table name)) s).1 = .ok n :=
      (Exchange.count.inj (Option.some.inj hg.1)).2
    exact hl.after ((hdb.found s n hcount).mp hn)
  | @created n st hsound hn hst b =>
    have hsent := (Exchange.execute.inj (Option.some.inj hg.2.1)).2
    have hmem : st ∈ creation d name := by
      rw [creation, hst]
      exact List.mem_singleton_self st
    cases b with
    | ok => exact hdb.created d st _ hmem hsent
    | error e => cases hq

end History

namespace Upgrade

variable {σ : Type} {u : Upgrade} {srv : Server σ} {rows : σ → List String} {present : σ → Prop}
  {s : σ} {d : Dialect} {boot : List Exchange} {r : Except MigrationError VersionSet}

/-- The opening sends nothing when the history table is there. -/
theorem Opened.sends_nothing (h : u.Opened d boot r)
    (hdb : srv.KeepsExactly u.settings.historyTable rows present) (hg : srv.Gives s boot)
    (hs : present s) (st : Statement) (a : Except DriverError Unit) : .execute st a ∉ boot := by
  cases h with
  | unprepared h => exact History.creating_sends_nothing h hdb hg hs st a
  | read h hread =>
    have hens := ((Server.gives_append ..).mp hg).1
    rw [List.mem_append]
    exact not_or.mpr
      ⟨History.creating_sends_nothing h hdb hens hs st a, hread.sends_nothing st a⟩

theorem Opened.leaves_present {completed : VersionSet} (h : u.Opened d boot (.ok completed))
    (hdb : srv.KeepsExactly u.settings.historyTable rows present) (hg : srv.Gives s boot)
    (hl : srv.Lasts present s boot) : present (srv.after s boot) := by
  cases h with
  | read h hread =>
    rw [Server.lasts_append] at hl
    rw [Server.after_append]
    exact hl.2.after (History.creating_present h hdb ((Server.gives_append ..).mp hg).1 hl.1)

end Upgrade

/-! ## What is left of a plan -/

namespace Upgrade

variable {σ : Type} {u : Upgrade} {d : Dialect} {xs : List Exchange}

/-- The run gets a connection and opens the history without an error. -/
def PastBootstrap (u : Upgrade) (xs : List Exchange) : Prop :=
  ∃ d boot completed rest, u.dialect = .ok d ∧ xs = .acquire (.ok ()) :: (boot ++ rest) ∧
    u.Opened d boot (.ok completed)

/-- The run fails without a plan, before or while it opens the history, or its plan is `left`. -/
def TakesUp (u : Upgrade) (left : List Step) (xs : List Exchange) (planned : Option (List Step))
    (r : Except MigrationError RunReport) : Prop :=
  (¬ u.PastBootstrap xs ∧ planned = none ∧ ∃ e, r = .error e ∧ ¬ e.BlamesHistory) ∨
    (u.PastBootstrap xs ∧ planned = some left)

variable {srv : Server σ} {rows : σ → List String} {present : σ → Prop} {s : σ} {closed : Bool}
  {planned : Option (List Step)} {applied : List Step} {r : Except MigrationError RunReport}

/-- The opening leads to the plan of what is left, or fails without blaming the history. -/
theorem opening_left {d : Dialect} {boot rest : List Exchange}
    {q : Except MigrationError VersionSet} (h : u.Opened d boot q)
    (hxs : xs = .acquire (.ok ()) :: (boot ++ rest))
    (hdb : srv.KeepsHistory u.settings.historyTable rows) {initial : VersionSet}
    {plan : List Step} {k : Nat}
    (hplan : u.registry.plan u.settings.policy initial = .ok plan)
    (hrows : History.Readable (rows s))
    (hnames : ∀ v, History.Names (rows s) v ↔ v ∈ initial ∨ v ∈ (plan.take k).map (·.version))
    (hg : srv.Gives s xs) (hq : srv.Undisturbed u.settings.historyTable rows s xs) :
    match q with
    | .ok completed => u.registry.plan u.settings.policy completed = .ok (plan.drop k)
    | .error e => ¬ e.BlamesHistory := by
  subst hxs
  rw [← List.cons_append, Server.gives_append] at hg
  rw [← List.cons_append, Server.undisturbed_append] at hq
  rcases opening_completed h.path hdb hrows hg.1 hq.1 with ⟨e, rfl, he⟩ | ⟨completed, rfl, hmem⟩
  · exact he.not_blamesHistory
  · exact Registry.plan_advance hplan fun v => (hmem v).trans (hnames v)

/-- The answers determine whether a run gets past the bootstrap. -/
theorem not_pastBootstrap {d : Dialect} {boot : List Exchange} {e : MigrationError}
    (hd : u.dialect = .ok d) (h : u.Opened d boot (.error e)) :
    ¬ u.PastBootstrap (.acquire (.ok ()) :: boot) := by
  rintro ⟨d', boot', completed, rest, hd', hxs, hopen⟩
  cases Except.ok.inj (hd.symm.trans hd')
  have hboot : boot ++ [] = boot' ++ rest := (List.append_nil boot).trans (List.cons.inj hxs).2
  cases (h.path.unique hopen.path hboot).2

/-- **One run that resumes**: it takes up what the runs before it have left of the plan. -/
theorem RunLog.takesUp (h : u.RunLog closed xs planned applied r)
    (hdb : srv.KeepsHistory u.settings.historyTable rows) {initial : VersionSet}
    {plan : List Step} {k : Nat}
    (hplan : u.registry.plan u.settings.policy initial = .ok plan)
    (hrows : History.Readable (rows s))
    (hnames : ∀ v, History.Names (rows s) v ↔ v ∈ initial ∨ v ∈ (plan.take k).map (·.version))
    (hg : srv.Gives s xs) (hq : srv.Undisturbed u.settings.historyTable rows s xs) :
    u.TakesUp (plan.drop k) xs planned r := by
  cases h with
  | @unsupported e hd =>
    refine Or.inl ⟨?_, rfl, e, rfl, not_blamesHistory_of_dialect hd⟩
    rintro ⟨d, boot, completed, rest, -, hxs, -⟩
    cases hxs
  | closed hd hc =>
    refine Or.inl ⟨?_, rfl, _, rfl, id⟩
    rintro ⟨d, boot, completed, rest, -, hxs, -⟩
    cases hxs
  | unreached e hd hc =>
    refine Or.inl ⟨?_, rfl, _, rfl, id⟩
    rintro ⟨d, boot, completed, rest, -, hxs, -⟩
    cases hxs
  | @unopened d boot e hd hc hopen =>
    refine Or.inl ⟨not_pastBootstrap hd hopen, rfl, e, rfl, ?_⟩
    have hboot : Exchange.acquire (.ok ()) :: boot = .acquire (.ok ()) :: (boot ++ []) := by simp
    exact opening_left hopen hboot hdb hplan hrows hnames hg hq
  | @unplanned d boot completed e hd hc hopen hp =>
    have hboot : Exchange.acquire (.ok ()) :: boot = .acquire (.ok ()) :: (boot ++ []) := by simp
    have hleft := opening_left hopen hboot hdb hplan hrows hnames hg hq
    rw [hleft] at hp
    cases hp
  | @finished d boot completed planned ys hd hc hopen hp hs =>
    have hleft := opening_left hopen rfl hdb hplan hrows hnames hg hq
    rw [hleft] at hp
    exact Or.inr ⟨⟨d, boot, completed, ys, hd, rfl, hopen⟩, congrArg some (Except.ok.inj hp).symm⟩
  | @stopped d boot completed before t rest ys zs e hd hc hopen hp hs hz =>
    have hleft := opening_left hopen rfl hdb hplan hrows hnames hg hq
    rw [hleft] at hp
    exact Or.inr ⟨⟨d, boot, completed, ys ++ zs, hd, rfl, hopen⟩,
      congrArg some (Except.ok.inj hp).symm⟩

/-- Without a plan no step is applied; with one all of it is and the run succeeds, or it stops at a
step. -/
theorem RunLog.planned_cases (h : u.RunLog closed xs planned applied r) :
    (planned = none ∧ applied = []) ∨ ∃ steps, planned = some steps ∧
      ((applied = steps ∧ ∃ d n, r = .ok ⟨d, steps.map (·.version), n⟩) ∨
        ∃ t rest e, steps = applied ++ t :: rest ∧
          r = .error (.step t.version t.description e)) := by
  cases h with
  | unsupported | closed | unreached | unopened | unplanned => exact Or.inl ⟨rfl, rfl⟩
  | finished => exact Or.inr ⟨_, rfl, Or.inl ⟨rfl, _, _, rfl⟩⟩
  | stopped => exact Or.inr ⟨_, rfl, Or.inr ⟨_, _, _, rfl, rfl⟩⟩

/-- The applied steps are the first of those that were left, and a run succeeds exactly when nothing
remains of them. -/
theorem RunLog.applied_left {left : List Step} (h : u.RunLog closed xs planned applied r)
    (ht : u.TakesUp left xs planned r) :
    applied <+: left ∧ ((∃ report, r = .ok report) ↔ u.PastBootstrap xs ∧ applied = left) := by
  rcases h.planned_cases with ⟨rfl, rfl⟩ | ⟨steps, rfl, hsteps⟩
  · rcases ht with ⟨hnot, -, e, rfl, -⟩ | ⟨-, hnone⟩
    · exact ⟨List.nil_prefix, ⟨fun ⟨_, hr⟩ => (nomatch hr), fun hboth => (hnot hboth.1).elim⟩⟩
    · cases hnone
  · rcases ht with ⟨-, hsome, -⟩ | ⟨hpast, hsome⟩
    · cases hsome
    · cases hsome
      rcases hsteps with ⟨rfl, d, n, rfl⟩ | ⟨t, rest, e, rfl, rfl⟩
      · exact ⟨List.prefix_rfl, ⟨fun _ => ⟨hpast, rfl⟩, fun _ => ⟨_, rfl⟩⟩⟩
      · have hstopped : applied ≠ applied ++ t :: rest := by simp
        refine ⟨List.prefix_append applied _, ⟨fun ⟨_, hr⟩ => (nomatch hr), fun hboth => ?_⟩⟩
        exact (hstopped hboth.2).elim

/-- A run that takes up a plan does not blame the history. -/
theorem RunLog.blameless {left : List Step} (h : u.RunLog closed xs planned applied r)
    (ht : u.TakesUp left xs planned r) {e : MigrationError} (he : r = .error e) :
    ¬ e.BlamesHistory := by
  subst he
  rcases ht with ⟨-, -, e', he, hblame⟩ | ⟨-, rfl⟩
  · cases he
    exact hblame
  · rcases h.planned_cases with ⟨hnone, -⟩ | ⟨steps, -, ⟨-, d, n, hok⟩ | ⟨t, rest, e', -, hstep⟩⟩
    · cases hnone
    · cases hok
    · cases hstep
      exact id

/-- When nothing is left, a run that gets past the bootstrap has nothing to do. -/
theorem RunLog.nothing_left (h : u.RunLog closed xs planned applied r)
    (ht : u.TakesUp [] xs planned r) : applied = [] ∧ (∀ steps ∈ planned, steps = []) ∧
      (u.PastBootstrap xs → ∃ d n, r = .ok ⟨d, [], n⟩) := by
  have happlied : applied = [] := List.prefix_nil.mp (h.applied_left ht).1
  rcases ht with ⟨hnot, rfl, -⟩ | ⟨-, rfl⟩
  · exact ⟨happlied, fun _ hnone => (nomatch hnone), fun hpast => (hnot hpast).elim⟩
  · refine ⟨happlied, fun steps hsteps => (Option.some.inj hsteps).symm, fun _ => ?_⟩
    rcases h.planned_cases with ⟨hnone, -⟩ | ⟨steps, hsteps, ⟨-, d, n, hok⟩ | ⟨t, rest, e, hlt, -⟩⟩
    · cases hnone
    · cases hsteps
      exact ⟨d, n, hok⟩
    · cases hsteps
      simp at hlt

/-- A run without a step sends nothing when the history table is there. -/
theorem RunLog.sends_nothing (h : u.RunLog closed xs planned applied r)
    (hnone : ∀ steps ∈ planned, steps = [])
    (hdb : srv.KeepsExactly u.settings.historyTable rows present) (hg : srv.Gives s xs)
    (hl : srv.Lasts present s xs) (hs : present s) (st : Statement)
    (a : Except DriverError Unit) : .execute st a ∉ xs := by
  have hopened : ∀ {d : Dialect} {boot : List Exchange} {q : Except MigrationError VersionSet},
      u.Opened d boot q → srv.Gives s (.acquire (.ok ()) :: boot) →
      srv.Lasts present s (.acquire (.ok ()) :: boot) →
      .execute st a ∉ .acquire (.ok ()) :: boot := by
    intro d boot q hopen hg hl hin
    exact hopen.sends_nothing hdb hg.2 (hl.1 hs) st a
      ((List.mem_cons.mp hin).resolve_left (by simp))
  cases h with
  | unsupported | closed | unreached => simp
  | unopened hd hc hopen | unplanned hd hc hopen => exact hopened hopen hg hl
  | finished hd hc hopen hp hall =>
    cases hnone _ rfl
    cases hall
    rw [List.append_nil] at hg hl ⊢
    exact hopened hopen hg hl
  | stopped => simpa using hnone _ rfl

/-- After a run that succeeds, the history table is there. -/
theorem RunLog.leaves_present {report : RunReport}
    (h : u.RunLog closed xs planned applied (.ok report))
    (hdb : srv.KeepsExactly u.settings.historyTable rows present) (hg : srv.Gives s xs)
    (hl : srv.Lasts present s xs) : present (srv.after s xs) := by
  cases h with
  | finished hd hc hopen hp hall =>
    rw [← List.cons_append, Server.gives_append] at hg
    rw [← List.cons_append, Server.lasts_append] at hl
    rw [← List.cons_append, Server.after_append]
    have hstart := hopen.leaves_present hdb hg.1.2 hl.1.2
    exact hl.2.after hstart

/-- How a run goes after others that have recorded the versions `recorded`: `log` is what it
exchanges and `r` its result.  One of the others has come to its end if `ended` says so. -/
structure Resumption (u : Upgrade) (plan : List Step) (recorded : List Version)
    (ended closed : Bool) (log : List Exchange) (r : Except MigrationError RunReport) : Prop where
  /-- What is recorded is the beginning of the plan. -/
  first : recorded ++ recordedIn u.settings.historyTable log <+: plan.map (·.version)
  /-- The run starts with the first step that is not recorded, and records those that it applies. -/
  next : u.PastBootstrap log → ∃ applied,
    u.RunLog closed log (some (plan.drop recorded.length)) applied r ∧
      recordedIn u.settings.historyTable log = applied.map (·.version)
  blameless : ∀ e, r = .error e → ¬ e.BlamesHistory
  /-- The run succeeds when all of the plan is recorded. -/
  finished : (∃ report, r = .ok report) ↔ u.PastBootstrap log ∧
    recorded ++ recordedIn u.settings.historyTable log = plan.map (·.version)
  /-- When the plan was carried out before, no step is started and nothing is sent. -/
  afterwards : ended = true → recorded = plan.map (·.version) ∧
    recordedIn u.settings.historyTable log = [] ∧ (∀ st a, .execute st a ∉ log) ∧
    (∃ planned, u.RunLog closed log planned [] r ∧ ∀ steps ∈ planned, steps = []) ∧
    (u.PastBootstrap log → ∃ d n, r = .ok ⟨d, [], n⟩)

end Upgrade

/-! ## Run after run -/

section Resumed

variable {σ : Type} (u : Upgrade) (srv : Server σ) (rows : σ → List String) (present : σ → Prop)

/-- The run changes the rows by its records only, and does not lose the history table. -/
structure Calm (w : World σ) : Prop where
  undisturbed : srv.Undisturbed u.settings.historyTable rows w.server
    (srv.exchanges w (World.leftBy (u.run srv w)))
  lasts : srv.Lasts present w.server (srv.exchanges w (World.leftBy (u.run srv w)))

/-- Runs of one upgrade, one after the other, from the state `start` of the database to another:
which versions they have recorded, and whether one of them has come to its end.  Each run fails
anywhere or succeeds.  In between anything may happen that leaves the history table alone. -/
inductive Resumed (start : σ) : σ → List Version → Bool → Prop
  | start : Resumed start start [] false
  | idle {s s' recorded ended} (h : Resumed start s recorded ended) (same : rows s' = rows s)
    (kept : present s → present s') : Resumed start s' recorded ended
  | run {recorded ended} (w : World σ) (h : Resumed start w.server recorded ended)
    (calm : Calm u srv rows present w) :
    Resumed start (World.leftBy (u.run srv w)).server
      (recorded ++ recordedIn u.settings.historyTable
        (srv.exchanges w (World.leftBy (u.run srv w))))
      (ended || (World.outcome (u.run srv w)).isOk)

/-- Where the database stands between runs: it names the versions of the beginning and those that
were recorded, which are the first ones of the plan. -/
structure Standing (initial : VersionSet) (plan : List Step) (s : σ) (recorded : List Version)
    (ended : Bool) : Prop where
  readable : History.Readable (rows s)
  names : ∀ v, History.Names (rows s) v ↔ v ∈ initial ∨ v ∈ recorded
  first : recorded <+: plan.map (·.version)
  ended : ended = true → recorded = plan.map (·.version) ∧ present s

variable {u srv rows present} {start s : σ} {recorded : List Version} {ended : Bool}
  {initial : VersionSet} {plan : List Step} {w : World σ}

/-- What a run after the others is like, and which rows it leaves behind. -/
theorem Standing.course (h : Standing rows present initial plan w.server recorded ended)
    (hdb : srv.KeepsExactly u.settings.historyTable rows present)
    (hbodies : u.registry.SparesHistory u.settings.historyTable)
    (hplan : u.registry.plan u.settings.policy initial = .ok plan)
    (calm : Calm u srv rows present w) : ∃ log r w' planned applied,
      srv.exchanges w (World.leftBy (u.run srv w)) = log ∧ World.outcome (u.run srv w) = r ∧
      World.leftBy (u.run srv w) = w' ∧ w'.server = srv.after w.server log ∧
      srv.Gives w.server log ∧ u.RunLog w.closed log planned applied r ∧
      u.TakesUp (plan.drop recorded.length) log planned r ∧
      recordedIn u.settings.historyTable log = applied.map (·.version) ∧
      rows w'.server = rows w.server ++ (applied.map (·.version)).map (·.text) := by
  obtain ⟨log, r, w', p, hrun, hcourse, -⟩ := u.run_performs srv w
  obtain ⟨planned, applied, hrunlog, -, -⟩ := hcourse.log
  have hq := calm.undisturbed
  rw [hrun.eq, World.leftBy_ended, hrun.leads.exchanges] at hq ⊢
  rw [World.outcome_ended]
  have hg := hrun.leads.gives
  have hrec := hrunlog.recordedIn hbodies
  have htake : recorded = (plan.take recorded.length).map (·.version) := by
    rw [List.map_take]
    exact List.prefix_iff_eq_take.mp h.first
  refine ⟨log, r, w', planned, applied, rfl, rfl, rfl, hrun.leads.server, hg, hrunlog, ?_, hrec, ?_⟩
  · exact hrunlog.takesUp hdb.toKeepsHistory hplan h.readable (htake ▸ h.names) hg hq
  · rw [hrun.leads.server, hdb.rows_eq hg hq, hrec]

/-- What is recorded so far and what is left make up the plan. -/
theorem Standing.recorded_left (h : Standing rows present initial plan s recorded ended) :
    recorded ++ (plan.drop recorded.length).map (·.version) = plan.map (·.version) := by
  obtain ⟨left, hleft⟩ := h.first
  rw [List.map_drop, ← hleft, List.drop_left]

/-- Once a run has come to its end, nothing is left. -/
theorem Standing.nothing_left (h : Standing rows present initial plan s recorded true) :
    plan.drop recorded.length = [] := by
  rw [(h.ended rfl).1, List.length_map, List.drop_length]

/-- What is recorded grows by the applied steps, which are the first of those left; a run succeeds
exactly when that makes up the plan. -/
theorem Standing.grows (h : Standing rows present initial plan s recorded ended)
    {log : List Exchange} {applied : List Step} {r : Except MigrationError RunReport}
    (happlied : applied <+: plan.drop recorded.length ∧ ((∃ report, r = .ok report) ↔
      u.PastBootstrap log ∧ applied = plan.drop recorded.length)) :
    recorded ++ applied.map (·.version) <+: plan.map (·.version) ∧ ((∃ report, r = .ok report) ↔
      u.PastBootstrap log ∧ recorded ++ applied.map (·.version) = plan.map (·.version)) := by
  obtain ⟨hleft, hok⟩ := happlied
  rw [← h.recorded_left]
  constructor
  · exact (List.prefix_append_right_inj recorded).mpr (hleft.map _)
  · rw [hok, List.append_cancel_left_eq]
    refine and_congr_right fun _ => ⟨congrArg _, fun hsame => ?_⟩
    exact hleft.eq_of_length (by simpa using congrArg List.length hsame)

/-- **One run after the others**, and how it goes. -/
theorem Standing.resumption (h : Standing rows present initial plan w.server recorded ended)
    (hdb : srv.KeepsExactly u.settings.historyTable rows present)
    (hbodies : u.registry.SparesHistory u.settings.historyTable)
    (hplan : u.registry.plan u.settings.policy initial = .ok plan)
    (calm : Calm u srv rows present w) :
    u.Resumption plan recorded ended w.closed (srv.exchanges w (World.leftBy (u.run srv w)))
      (World.outcome (u.run srv w)) := by
  obtain ⟨log, r, w', planned, applied, hlog, hr, -, -, hg, hrunlog, htakes, hrec, -⟩ :=
    h.course hdb hbodies hplan calm
  have hl := calm.lasts
  rw [hlog] at hl ⊢
  rw [hr]
  obtain ⟨hfirst, hfinished⟩ := h.grows (hrunlog.applied_left htakes)
  refine ⟨?_, ?_, fun _ => hrunlog.blameless htakes, ?_, ?_⟩
  · rw [hrec]
    exact hfirst
  · intro hpast
    rcases htakes with ⟨hnot, -⟩ | ⟨-, rfl⟩
    · exact (hnot hpast).elim
    · exact ⟨applied, hrunlog, hrec⟩
  · rw [hrec]
    exact hfinished
  · -- the plan was carried out before: nothing is left, and the history table is there
    rintro rfl
    obtain ⟨hall, hpresent⟩ := h.ended rfl
    obtain ⟨rfl, hnone, hpast⟩ := hrunlog.nothing_left (h.nothing_left ▸ htakes)
    exact ⟨hall, hrec, hrunlog.sends_nothing hnone hdb hg hl hpresent, ⟨planned, hrunlog, hnone⟩,
      hpast⟩

/-- **Where the database stands after one more run.** -/
theorem Standing.run (h : Standing rows present initial plan w.server recorded ended)
    (hdb : srv.KeepsExactly u.settings.historyTable rows present)
    (hbodies : u.registry.SparesHistory u.settings.historyTable)
    (hplan : u.registry.plan u.settings.policy initial = .ok plan)
    (calm : Calm u srv rows present w) :
    Standing rows present initial plan (World.leftBy (u.run srv w)).server
      (recorded ++ recordedIn u.settings.historyTable
        (srv.exchanges w (World.leftBy (u.run srv w))))
      (ended || (World.outcome (u.run srv w)).isOk) := by
  obtain ⟨log, r, w', planned, applied, hlog, hr, hw', hafter, hg, hrunlog, htakes, hrec, hrows⟩ :=
    h.course hdb hbodies hplan calm
  have hl := calm.lasts
  rw [hlog] at hl ⊢
  rw [hr, hw', hrec]
  obtain ⟨hfirst, hfinished⟩ := h.grows (hrunlog.applied_left htakes)
  refine ⟨?_, ?_, hfirst, ?_⟩
  · intro row hrow
    rw [hrows] at hrow
    exact (List.mem_append.mp hrow).elim (h.readable row) (History.readable_texts _ row)
  · intro v
    rw [hrows, History.names_append, History.names_texts, h.names, List.mem_append, or_assoc]
  · intro hend
    rw [hafter]
    rcases Bool.or_eq_true_iff.mp hend with rfl | hisOk
    · obtain ⟨hall, hpresent⟩ := h.ended rfl
      obtain ⟨rfl, -, -⟩ := hrunlog.nothing_left (h.nothing_left ▸ htakes)
      rw [List.map_nil, List.append_nil]
      exact ⟨hall, hl.after hpresent⟩
    · cases r with
      | error e => cases hisOk
      | ok report => exact ⟨(hfinished.mp ⟨report, rfl⟩).2, hrunlog.leaves_present hdb hg hl⟩

/-- Where the database stands after any number of runs. -/
theorem Resumed.standing (h : Resumed u srv rows present start s recorded ended)
    (hdb : srv.KeepsExactly u.settings.historyTable rows present)
    (hbodies : u.registry.SparesHistory u.settings.historyTable)
    (hplan : u.registry.plan u.settings.policy initial = .ok plan)
    (hreadable : History.Readable (rows start))
    (hinitial : ∀ v, History.Names (rows start) v ↔ v ∈ initial) :
    Standing rows present initial plan s recorded ended := by
  induction h with
  | start =>
    refine ⟨hreadable, fun v => ?_, List.nil_prefix, fun hfalse => (nomatch hfalse)⟩
    rw [hinitial, or_iff_left List.not_mem_nil]
  | idle _ same kept ih =>
    refine ⟨same ▸ ih.readable, same ▸ ih.names, ih.first, fun hend => ?_⟩
    exact (ih.ended hend).imp id kept
  | run w _ calm ih => exact ih.run hdb hbodies hplan calm

/-- **Resuming is exact.**  Whatever versions are completed at the beginning, if there is a plan for
them, then runs of one upgrade record the versions of that plan, one after the other. -/
theorem resume_exact (h : Resumed u srv rows present start w.server recorded ended)
    (hdb : srv.KeepsExactly u.settings.historyTable rows present)
    (hbodies : u.registry.SparesHistory u.settings.historyTable)
    (hplan : u.registry.plan u.settings.policy initial = .ok plan)
    (hreadable : History.Readable (rows start))
    (hinitial : ∀ v, History.Names (rows start) v ↔ v ∈ initial)
    (calm : Calm u srv rows present w) :
    u.Resumption plan recorded ended w.closed (srv.exchanges w (World.leftBy (u.run srv w)))
      (World.outcome (u.run srv w)) := by
  have hstanding := h.standing hdb hbodies hplan hreadable hinitial
  exact hstanding.resumption hdb hbodies hplan calm

end Resumed

/-- A run on a catalog keeps the history calm, if no step drops the history table or records in
it. -/
theorem Catalog.calm {d : Dialect} {u : Upgrade} {w : World Catalog} (hw : w.server.Tidy)
    (hbodies : u.registry.Sends (Spares u.settings.historyTable)) :
    Calm u (server d) (historyRows u.settings.historyTable)
      (fun c => c.hasTable u.settings.historyTable = true) w :=
  ⟨(run_sparesOrRecords hbodies).undisturbed hw, (run_sparesOrRecords hbodies).lasts⟩

/-- The shipped schema on an empty SQLite database: the second run goes on from the first. -/
theorem shipped_resume_exact :
    let u := Shipped.upgrade
    let srv := Catalog.server .sqlite
    let w : World Catalog := { server := {} }
    let w' := World.leftBy (u.run srv w)
    u.Resumption u.registry.steps.toList
      (recordedIn u.settings.historyTable (srv.exchanges w w'))
      (World.outcome (u.run srv w)).isOk w'.closed
      (srv.exchanges w' (World.leftBy (u.run srv w'))) (World.outcome (u.run srv w')) := by
  intro u srv w w'
  have hbodies : u.registry.Sends (Catalog.Spares u.settings.historyTable) :=
    Shipped.bodies_spare _
  have hplan : u.registry.plan u.settings.policy .empty = .ok u.registry.steps.toList :=
    Registry.plan_empty fun _ => List.not_mem_nil
  have hinitial : ∀ v, History.Names [] v ↔ v ∈ VersionSet.empty := fun v =>
    iff_of_false (fun ⟨_, h, _⟩ => List.not_mem_nil h) List.not_mem_nil
  have hrows : Catalog.historyRows u.settings.historyTable w.server = [] := rfl
  have hserver : w.server.Tidy := fun _ h => (List.not_mem_nil h).elim
  -- the two runs are not carried out here, so what they start from does not matter any more
  clear_value u w
  have hcalm : Calm u srv _ _ w := Catalog.calm hserver hbodies
  have hfirst := Resumed.run w Resumed.start hcalm
  rw [List.nil_append, Bool.false_or] at hfirst
  exact resume_exact hfirst (Catalog.keepsExactly .sqlite u.settings.historyTable)
    (Catalog.sparesHistory hbodies) hplan
    (hrows ▸ fun _ h => (List.not_mem_nil h).elim) (hrows ▸ hinitial)
    (Catalog.calm (Catalog.run_tidy hserver) hbodies)

/-- A run that gets no connection fails, even when the one before it has left nothing to do. -/
theorem resume_unreached :
    let u : Upgrade := {
      driverName := "SQLite"
      registry := ⟨#[⟨⟨1, by decide⟩, "a", fun _ => pure ()⟩], by simp⟩ }
    let w : World Script := {
      server := {
        replies := [.number 0, .success, .number 1, .texts [], .success]
        connections := [.ok (), .ok (), .ok (), .error .poolTimedOut] } }
    let w' := World.leftBy (u.run Script.server w)
    u.registry.plan u.settings.policy .empty = .ok u.registry.steps.toList ∧
      World.outcome (u.run Script.server w) = .ok ⟨.sqlite, u.registry.versions, 0⟩ ∧
      recordedIn u.settings.historyTable (Script.server.exchanges w w') = u.registry.versions ∧
      World.outcome (u.run Script.server w') = .error (.driver .poolTimedOut) := by
  refine ⟨Registry.plan_empty fun _ => List.not_mem_nil, ?_, ?_, ?_⟩
  · decide +kernel
  · decide +kernel
  · decide +kernel

end SchemaMigration
