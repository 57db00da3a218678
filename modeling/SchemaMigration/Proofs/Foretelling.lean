import SchemaMigration.Proofs.CatalogHistory
import SchemaMigration.Proofs.DueStatements

/-!
# Looking foretells running

A look at the history and a run come to the plan on different ways: the run makes sure of the
history table first, the look does without one.  On a database that answers both from the same state
(`Server.ShowsHistory`) they read the same rows, whether the table is there or not
(`Upgrade.StatusCourse.reports`, `Upgrade.Opened.on`), so the run does what the look says
(`Upgrade.status_foretells`).
-/
namespace SchemaMigration
open Program

/-- What a history table holds. -/
structure HistoryTable where
  /-- The names of its columns, in lower case. -/
  columns : List String
  /-- The texts in its rows, each of which is to be a version. -/
  rows : List String
  deriving DecidableEq

namespace HistoryTable

/-- The table has the columns that a history table is created with. -/
def Suits (t : HistoryTable) : Prop :=
  ∀ k ∈ [History.versionColumn, History.statusColumn, History.completedAtColumn], k ∈ t.columns

/-- The rows of a history table, if there is one. -/
def rowsOf (t : Option HistoryTable) : List String :=
  (t.map (·.rows)).getD []

end HistoryTable

/-- The server has a connection at any time, and answers questions about the history table from its
state.  Only in a `valid` state something is known about the answers. -/
structure Server.ShowsHistory {σ : Type} (srv : Server σ) (d : Dialect) (name : String)
    (valid : σ → Prop) (history : σ → Option HistoryTable) : Prop where
  connects : ∀ s, ∃ s', srv.connect s = (.ok (), s') ∧
    (valid s → valid s' ∧ history s' = history s)
  finds : ∀ s, valid s → ∃ n s', srv.count (.object (.table name)) s = (.ok n, s') ∧
    (0 < n ↔ (history s).isSome) ∧ valid s' ∧ history s' = history s
  columns : ∀ s t, valid s → history s = some t → ∃ s',
    srv.list (.columns name) s = (.ok t.columns, s') ∧ valid s' ∧ history s' = history s
  rows : ∀ s t, valid s → history s = some t → ∃ s',
    srv.list (.completedVersions name) s = (.ok t.rows, s')
  /-- A history table that is created is empty. -/
  creates : ∀ s st, valid s → history s = none → st ∈ History.creation d name →
    (srv.execute st s).1 = .ok () → valid (srv.execute st s).2 ∧
      ∃ columns, history (srv.execute st s).2 = some ⟨columns, []⟩

namespace Server.ShowsHistory

variable {σ : Type} {srv : Server σ} {d : Dialect} {name : String} {valid : σ → Prop}
  {history : σ → Option HistoryTable} {s : σ} {xs : List Exchange}

/-- Who looks for the history table finds it where it is, and changes nothing by that. -/
theorem found (hs : srv.ShowsHistory d name valid history) (hv : valid s)
    {a : Except DriverError Int} (hg : srv.Gives s (.count (.object (.table name)) a :: xs)) :
    ∃ n s', a = .ok n ∧ (0 < n ↔ (history s).isSome) ∧ valid s' ∧ history s' = history s ∧
      srv.next s (.count (.object (.table name)) a) = s' ∧ srv.Gives s' xs := by
  obtain ⟨n, s', hcount, hn, hv', hsame⟩ := hs.finds s hv
  have ha : (srv.count (.object (.table name)) s).1 = a :=
    (Exchange.count.inj (Option.some.inj hg.1)).2
  have hnext : srv.next s (.count (.object (.table name)) a) = s' := by
    rw [Server.next, hcount]
  rw [hcount] at ha
  exact ⟨n, s', ha.symm, hn, hv', hsame, hnext, hnext ▸ hg.2⟩

/-- Who asks for the columns of the history table gets them. -/
theorem listed (hs : srv.ShowsHistory d name valid history) (hv : valid s) {t : HistoryTable}
    (ht : history s = some t) {a : Except DriverError (List String)}
    (hg : srv.Gives s (.list (.columns name) a :: xs)) :
    a = .ok t.columns ∧ valid (srv.next s (.list (.columns name) a)) ∧
      history (srv.next s (.list (.columns name) a)) = some t := by
  obtain ⟨s', hlist, hv', hsame⟩ := hs.columns s t hv ht
  have ha : (srv.list (.columns name) s).1 = a :=
    (Exchange.list.inj (Option.some.inj hg.1)).2
  rw [Server.next, hlist]
  rw [hlist] at ha
  exact ⟨ha.symm, hv', hsame.trans ht⟩

/-- Who asks for the rows of the history table gets them. -/
theorem shown (hs : srv.ShowsHistory d name valid history) (hv : valid s) {t : HistoryTable}
    (ht : history s = some t) {a : Except DriverError (List String)}
    (hg : srv.Gives s (.list (.completedVersions name) a :: xs)) : a = .ok t.rows := by
  obtain ⟨s', hlist⟩ := hs.rows s t hv ht
  have ha : (srv.list (.completedVersions name) s).1 = a :=
    (Exchange.list.inj (Option.some.inj hg.1)).2
  rw [hlist] at ha
  exact ha.symm

end Server.ShowsHistory

namespace History

variable {σ : Type} {srv : Server σ} {d : Dialect} {name : String} {valid : σ → Prop}
  {history : σ → Option HistoryTable} {s : σ} {xs : List Exchange}

/-- With a good name, the description of the history table has no flaw. -/
theorem table_check (h : Name.check d name = .ok ()) : (table name).check d = .ok () := by
  have hcolumns : Column.checkAll d name (table name).columns = .ok () := by
    cases d <;> rfl
  have hkey : (table name).checkKey [] (table name).primaryKey = .ok () := rfl
  refine check_bind_eq_ok.mpr ⟨Name.require_eq_ok.mpr h, ?_⟩
  exact check_bind_eq_ok.mpr ⟨hcolumns, hkey⟩

/-- A table with the three columns lacks none of them. -/
theorem lacking_eq_nil {t : HistoryTable} (h : t.Suits) : (table name).lacking t.columns = [] := by
  refine List.filter_eq_nil_iff.mpr fun c hc => ?_
  have hlower : ∀ k ∈ [versionColumn, statusColumn, completedAtColumn], Text.lower k = k := by
    decide
  have hin : Guarded.hasName t.columns c = true := by
    rw [Guarded.hasName, decide_eq_true_eq, hlower c hc]
    exact h c hc
  rw [hin]
  exact Bool.false_ne_true

/-- The versions in the rows of a history table, if there is one. -/
def reading (name : String) (t : Option HistoryTable) : Except MigrationError VersionSet :=
  (readRows name (HistoryTable.rowsOf t)).map VersionSet.ofList

/-- What makes sure of a history table: one that is there is looked for and looked at, and where
there is none, one is created, which has no rows. -/
inductive Prepared (d : Dialect) (name : String) :
    Option HistoryTable → List Exchange → HistoryTable → Prop
  | found {n} (hn : 0 < n) (t) : Prepared d name (some t)
      [.count (.object (.table name)) (.ok n), .list (.columns name) (.ok t.columns)] t
  | created {n st} (hn : n ≤ 0) (hst : st ∈ creation d name) (columns) : Prepared d name none
      [.count (.object (.table name)) (.ok n), .execute st (.ok ())] ⟨columns, []⟩

/-- The history table is not there, and the statement that creates it is refused. -/
inductive Uncreated (d : Dialect) (name : String) : List Exchange → MigrationError → Prop
  | refused {n st} (hn : n ≤ 0) (hst : st ∈ creation d name) (e) : Uncreated d name
      [.count (.object (.table name)) (.ok n), .execute st (.error e)] (.driver e)

theorem Prepared.rows {t : Option HistoryTable} {t' : HistoryTable}
    (h : Prepared d name t xs t') : HistoryTable.rowsOf t = t'.rows := by
  cases h <;> rfl

/-- **Creating the history table where there is none** leads to one with the same rows, unless it is
not there and refused. -/
theorem prepared_of_creating (hs : srv.ShowsHistory d name valid history) (hv : valid s)
    (hname : Name.check d name = .ok ()) (hsuits : ∀ t, history s = some t → t.Suits)
    {q : Except MigrationError Bool} (h : Guarded.Creating d (table name) xs q)
    (hg : srv.Gives s xs) :
    ((∃ made, q = .ok made) ∧ valid (srv.after s xs) ∧
        ∃ t, history (srv.after s xs) = some t ∧ Prepared d name (history s) xs t) ∨
      (history s = none ∧ ∃ e, Uncreated d name xs e ∧ q = .error e) := by
  cases h with
  | flawed hflaw =>
    rw [table_check hname] at hflaw
    cases hflaw
  | unanswered _ e =>
    obtain ⟨n, s', ha, -⟩ := hs.found hv hg
    cases ha
  | @unlisted n _ hn e =>
    obtain ⟨_, s₁, ha, hsome, hv₁, hsame, -, hg₁⟩ := hs.found hv hg
    cases ha
    obtain ⟨t, ht⟩ := Option.isSome_iff_exists.mp (hsome.mp hn)
    cases (hs.listed hv₁ (hsame.trans ht) hg₁).1
  | @present n columns _ hn hall =>
    obtain ⟨_, s₁, ha, hsome, hv₁, hsame, hnext, hg₁⟩ := hs.found hv hg
    cases ha
    obtain ⟨t, ht⟩ := Option.isSome_iff_exists.mp (hsome.mp hn)
    obtain ⟨hcolumns, hv₂, ht₂⟩ := hs.listed hv₁ (hsame.trans ht) hg₁
    cases hcolumns
    rw [Server.after_cons,
      show srv.next s (.count (.object (.table (table name).name)) (.ok n)) = s₁ from hnext, ht]
    exact Or.inl ⟨⟨false, rfl⟩, hv₂, t, ht₂, .found hn t⟩
  | @incomplete n columns _ hn hsome' =>
    obtain ⟨_, s₁, ha, hsome, hv₁, hsame, -, hg₁⟩ := hs.found hv hg
    cases ha
    obtain ⟨t, ht⟩ := Option.isSome_iff_exists.mp (hsome.mp hn)
    cases (hs.listed hv₁ (hsame.trans ht) hg₁).1
    exact (hsome' (lacking_eq_nil (hsuits t ht))).elim
  | @created n st _ hn hst a =>
    obtain ⟨_, s₁, ha, hsome, hv₁, hsame, hnext, hg₁⟩ := hs.found hv hg
    cases ha
    have hmem : st ∈ creation d name := by
      rw [creation, hst]
      exact List.mem_singleton_self st
    have hnone : history s = none := Option.not_isSome_iff_eq_none.mp fun h =>
      Int.not_lt.mpr hn (hsome.mpr h)
    cases a with
    | error e => exact Or.inr ⟨hnone, _, .refused hn hmem e, rfl⟩
    | ok =>
      have hmade := (Exchange.execute.inj (Option.some.inj hg₁.1)).2
      obtain ⟨hv₂, columns, hnew⟩ := hs.creates s₁ st hv₁ (hsame.trans hnone) hmem hmade
      rw [Server.after_cons,
        show srv.next s (.count (.object (.table (table name).name)) (.ok n)) = s₁ from hnext,
        hnone]
      exact Or.inl ⟨⟨true, rfl⟩, hv₂, _, hnew, .created hn hmem columns⟩

/-- **Reading the history yields the versions in its rows.** -/
theorem Reading.yields {r : Except MigrationError VersionSet} (h : Reading name xs r)
    (hs : srv.ShowsHistory d name valid history) (hv : valid s) (hg : srv.Gives s xs) :
    r = reading name (history s) ∧ ∀ t, history s = some t → ∃ n, 0 < n ∧
      xs = [.count (.object (.table name)) (.ok n),
        .list (.completedVersions name) (.ok t.rows)] := by
  cases h with
  | unanswered e =>
    obtain ⟨n, s', ha, -⟩ := hs.found hv hg
    cases ha
  | @absent n hn =>
    obtain ⟨_, s', ha, hsome, -⟩ := hs.found hv hg
    cases ha
    have hnone : history s = none := Option.not_isSome_iff_eq_none.mp fun h =>
      Int.not_lt.mpr hn (hsome.mpr h)
    rw [hnone]
    exact ⟨rfl, fun t ht => nomatch ht⟩
  | @unread n hn e =>
    obtain ⟨_, s₁, ha, hsome, hv₁, hsame, -, hg₁⟩ := hs.found hv hg
    cases ha
    obtain ⟨t, ht⟩ := Option.isSome_iff_exists.mp (hsome.mp hn)
    cases hs.shown hv₁ (hsame.trans ht) hg₁
  | @read n hn rows =>
    obtain ⟨_, s₁, ha, hsome, hv₁, hsame, -, hg₁⟩ := hs.found hv hg
    cases ha
    obtain ⟨t, ht⟩ := Option.isSome_iff_exists.mp (hsome.mp hn)
    cases hs.shown hv₁ (hsame.trans ht) hg₁
    rw [ht]
    exact ⟨rfl, fun t' ht' => by cases ht'; exact ⟨n, hn, rfl⟩⟩

end History

namespace Upgrade

variable {σ : Type} {u : Upgrade} {srv : Server σ} {d : Dialect} {valid : σ → Prop}
  {history : σ → Option HistoryTable} {s : σ} {xs : List Exchange}

/-- The exchanges that open the history of a database with that history table, and the versions that
are read: the table is made sure of, and then found and read. -/
inductive OpenedOn (u : Upgrade) (d : Dialect) (t : Option HistoryTable) :
    List Exchange → Except MigrationError VersionSet → Prop
  | read {ens t' n} (h : History.Prepared d u.settings.historyTable t ens t') (hn : 0 < n) :
    OpenedOn u d t
      (ens ++ [.count (.object (.table u.settings.historyTable)) (.ok n),
        .list (.completedVersions u.settings.historyTable) (.ok t'.rows)])
      (History.reading u.settings.historyTable (some t'))

/-- What is read are the rows that were there before the opening. -/
theorem OpenedOn.reads {t : Option HistoryTable} {r : Except MigrationError VersionSet}
    (h : u.OpenedOn d t xs r) : r = History.reading u.settings.historyTable t := by
  cases h with
  | read h hn => rw [History.reading, History.reading, h.rows]; rfl

/-- **The opening of a run reads the rows that were there before it**, unless the history table is
not there and refused. -/
theorem Opened.on {r : Except MigrationError VersionSet} (h : u.Opened d xs r)
    (hs : srv.ShowsHistory d u.settings.historyTable valid history)
    (hv : valid s) (hname : Name.check d u.settings.historyTable = .ok ())
    (hsuits : ∀ t, history s = some t → t.Suits) (hg : srv.Gives s xs) :
    u.OpenedOn d (history s) xs r ∨
      (history s = none ∧
        ∃ e, History.Uncreated d u.settings.historyTable xs e ∧ r = .error e) := by
  cases h with
  | unprepared h =>
    rcases History.prepared_of_creating hs hv hname hsuits h hg with
      ⟨⟨made, hmade⟩, -⟩ | ⟨hnone, e', hrefused, he⟩
    · cases hmade
    · exact Or.inr ⟨hnone, e', hrefused, congrArg Except.error (Except.error.inj he)⟩
  | @read ens read made r h hread =>
    obtain ⟨hgens, hgread⟩ := (srv.gives_append s ens read).mp hg
    rcases History.prepared_of_creating hs hv hname hsuits h hgens with
      ⟨-, hv', t, ht, hprepared⟩ | ⟨-, e, -, he⟩
    · obtain ⟨rfl, hfound⟩ := hread.yields hs hv' hgread
      obtain ⟨n, hn, rfl⟩ := hfound t ht
      rw [ht]
      exact Or.inl (.read hprepared hn)
    · cases he

/-- What a history table leaves to do: the versions in it and the steps that are selected then, or
why there is no telling. -/
def forecast (u : Upgrade) (t : Option HistoryTable) :
    Except MigrationError (VersionSet × List Step) := do
  let completed ← History.reading u.settings.historyTable t
  let pending ← u.registry.plan u.settings.policy completed
  return (completed, pending)

/-- Without a history table all steps are to run. -/
theorem forecast_none : u.forecast none = .ok (.empty, u.registry.steps.toList) := by
  have hplan : u.registry.plan u.settings.policy .empty = .ok u.registry.steps.toList :=
    Registry.plan_empty fun _ h => List.not_mem_nil h
  have hread : History.reading u.settings.historyTable none = .ok VersionSet.empty := rfl
  rw [forecast, hread]
  show ((u.registry.plan _ VersionSet.empty).bind fun pending => .ok (_, pending)) = _
  rw [hplan]
  rfl

/-- **A look at the history** asks for a connection and the rows, and reports what they leave. -/
theorem StatusCourse.reports {closed : Bool} {r : Except MigrationError StatusReport}
    (h : u.StatusCourse closed xs r) (hd : u.dialect = .ok d) (hopen : closed = false)
    (hs : srv.ShowsHistory d u.settings.historyTable valid history) (hv : valid s)
    (hg : srv.Gives s xs) : r = (u.forecast (history s)).map fun f =>
      ⟨d, f.1.toList, f.2.map (·.version), u.registry.latest?⟩ := by
  obtain ⟨s₁, hconn, hkept⟩ := hs.connects s
  obtain ⟨hv₁, hsame⟩ := hkept hv
  have hstate : srv.next s (.acquire (.ok ())) = s₁ := by
    rw [Server.next, hconn]
  have hread : ∀ {read : List Exchange} {q : Except MigrationError VersionSet},
      (History.completed u.settings.historyTable).Path read q →
      srv.Gives s (.acquire (.ok ()) :: read) →
      History.reading u.settings.historyTable (history s) = q := by
    intro read q hpath hg
    rw [← hsame]
    exact ((History.completed_reading.mp hpath).yields hs hv₁ (hstate ▸ hg.2)).1.symm
  cases h with
  | unsupported he => rw [hd] at he; cases he
  | closed _ hc => rw [hopen] at hc; cases hc
  | unreached e _ _ =>
    have ha := Exchange.acquire.inj (Option.some.inj hg.1)
    rw [hconn] at ha
    cases ha
  | unread _ _ hpath =>
    rw [forecast, hread hpath hg]
    rfl
  | @read d' read completed hd' _ hpath =>
    cases hd.symm.trans hd'
    rw [forecast, hread hpath hg]
    show _ = ((u.registry.plan _ completed).bind fun pending => .ok (completed, pending)).map _
    cases u.registry.plan u.settings.policy completed <;> rfl

/-- The exchanges of steps one after the other, each of which gets its connections: all are applied
and recorded, or the first that is not fails itself or has its record refused. -/
inductive StepsLog (u : Upgrade) (d : Dialect) :
    List Step → List Exchange → Except MigrationError (List Version) → Prop
  | finished {steps ys} (h : u.AllRecorded d steps ys) :
    StepsLog u d steps ys (.ok (steps.map (·.version)))
  | failed {before t rest ys body e} (h : u.AllRecorded d before ys)
    (hbody : (t.body d).Path body (.error e)) :
    StepsLog u d (before ++ t :: rest) (ys ++ .acquire (.ok ()) :: body)
      (.error (.step t.version t.description e))
  | unrecorded {before t rest ys body} (h : u.AllRecorded d before ys)
    (hbody : (t.body d).Path body (.ok ())) (e) :
    StepsLog u d (before ++ t :: rest)
      (ys ++ .acquire (.ok ()) :: (body ++
        [.acquire (.ok ()), .execute (u.recordOf t.version) (.error e)]))
      (.error (.step t.version t.description (.driver e)))

/-- Where connections are never refused, a step that stops has failed itself or was not recorded. -/
theorem Stopped.log (hs : srv.ShowsHistory d u.settings.historyTable valid history)
    {before rest : List Step} {t : Step} {ys zs : List Exchange} {e : MigrationError}
    (h : u.Stopped d t zs e) (hg : srv.Gives s zs) (hall : u.AllRecorded d before ys) :
    u.StepsLog d (before ++ t :: rest) (ys ++ zs) (.error (.step t.version t.description e)) := by
  have hconnected : ∀ s' e', ¬ srv.reply s' .acquire = some (.acquire (.error e')) := by
    intro s' e' hreply
    obtain ⟨s₁, hconn, -⟩ := hs.connects s'
    have ha := Exchange.acquire.inj (Option.some.inj hreply)
    rw [hconn] at ha
    cases ha
  cases h with
  | unreached e => exact (hconnected _ _ hg.1).elim
  | failed hbody => exact .failed hall hbody
  | unrecordable e hbody =>
    exact (hconnected _ _ ((srv.gives_append _ _ _).mp hg.2).2.1).elim
  | unrecorded e hbody => exact .unrecorded hall hbody e

/-- The exchanges and the result of a run that finds the history table as it is here: it does what
the rows leave to do.  It breaks off before the first step if there is no telling what that is, or
if the table is not there and refused. -/
inductive Follows (u : Upgrade) (d : Dialect) (t : Option HistoryTable) :
    List Exchange → Except MigrationError RunReport → Prop
  | uncreated {boot e} (ht : t = none) (h : History.Uncreated d u.settings.historyTable boot e) :
    Follows u d t (.acquire (.ok ()) :: boot) (.error e)
  | unplanned {boot q e} (h : u.OpenedOn d t boot q) (hf : u.forecast t = .error e) :
    Follows u d t (.acquire (.ok ()) :: boot) (.error e)
  | planned {boot completed steps ys r} (h : u.OpenedOn d t boot (.ok completed))
    (hf : u.forecast t = .ok (completed, steps)) (hsteps : u.StepsLog d steps ys r) :
    Follows u d t (.acquire (.ok ()) :: (boot ++ ys))
      (r.map fun applied => ⟨d, applied, completed.size⟩)

/-- Once the history is read, what is selected is what the rows leave to do. -/
theorem OpenedOn.forecast {t : Option HistoryTable} {completed : VersionSet}
    (h : u.OpenedOn d t xs (.ok completed)) : u.forecast t =
      (u.registry.plan u.settings.policy completed).map (completed, ·) := by
  rw [Upgrade.forecast, ← h.reads]
  show ((u.registry.plan _ completed).bind fun pending => .ok (completed, pending)) = _
  cases u.registry.plan u.settings.policy completed <;> rfl

/-- **A run does what the rows of the history leave to do.** -/
theorem RunLog.follows {closed : Bool} {planned : Option (List Step)} {applied : List Step}
    {r : Except MigrationError RunReport} (h : u.RunLog closed xs planned applied r)
    (hd : u.dialect = .ok d) (hopen : closed = false)
    (hs : srv.ShowsHistory d u.settings.historyTable valid history) (hv : valid s)
    (hname : Name.check d u.settings.historyTable = .ok ())
    (hsuits : ∀ t, history s = some t → t.Suits) (hg : srv.Gives s xs) :
    u.Follows d (history s) xs r := by
  obtain ⟨s₁, hconn, hkept⟩ := hs.connects s
  obtain ⟨hv₁, hsame⟩ := hkept hv
  have hstate : srv.next s (.acquire (.ok ())) = s₁ := by
    rw [Server.next, hconn]
  have hopened : ∀ {boot : List Exchange} {q : Except MigrationError VersionSet},
      u.Opened d boot q → srv.Gives s₁ boot →
      u.OpenedOn d (history s) boot q ∨
        (history s = none ∧
          ∃ e, History.Uncreated d u.settings.historyTable boot e ∧ q = .error e) := by
    intro boot q h hg
    rw [← hsame]
    exact h.on hs hv₁ hname (fun t ht => hsuits t (hsame ▸ ht)) hg
  -- an opening that succeeds has found or created the table
  have hread : ∀ {boot : List Exchange} {completed : VersionSet},
      u.Opened d boot (.ok completed) → srv.Gives s₁ boot →
      u.OpenedOn d (history s) boot (.ok completed) := by
    intro boot completed h hg
    rcases hopened h hg with hon | ⟨-, e, -, he⟩
    · exact hon
    · cases he
  cases h with
  | unsupported he => rw [hd] at he; cases he
  | closed _ hc => rw [hopen] at hc; cases hc
  | unreached e _ _ =>
    have ha := Exchange.acquire.inj (Option.some.inj hg.1)
    rw [hconn] at ha
    cases ha
  | @unopened d' boot e hd' _ hfails =>
    cases hd.symm.trans hd'
    rcases hopened hfails (hstate ▸ hg.2) with hon | ⟨hnone, e', hrefused, he⟩
    · refine .unplanned hon ?_
      rw [forecast, ← hon.reads]
      rfl
    · exact .uncreated hnone (Except.error.inj he ▸ hrefused)
  | @unplanned d' boot completed e hd' _ hopens hp =>
    cases hd.symm.trans hd'
    have hon := hread hopens (hstate ▸ hg.2)
    refine .unplanned hon ?_
    rw [hon.forecast, hp]
    rfl
  | @finished d' boot completed planned ys hd' _ hopens hp hall =>
    cases hd.symm.trans hd'
    obtain ⟨hgboot, -⟩ := (srv.gives_append _ _ _).mp (hstate ▸ hg.2)
    have hon := hread hopens hgboot
    have hforecast := hon.forecast
    rw [hp] at hforecast
    exact .planned hon hforecast (.finished hall)
  | @stopped d' boot completed before t rest ys zs e hd' _ hopens hp hall hstop =>
    cases hd.symm.trans hd'
    obtain ⟨hgboot, hgrest⟩ := (srv.gives_append _ _ _).mp (hstate ▸ hg.2)
    obtain ⟨-, hgz⟩ := (srv.gives_append _ _ _).mp hgrest
    have hon := hread hopens hgboot
    have hforecast := hon.forecast
    rw [hp] at hforecast
    exact .planned hon hforecast (hstop.log hs hgz hall)

/-- The exchanges and the result of a run that does what the report says, on a database with that
history table: its steps are the pending ones, in this order.  It cannot do so only if there is no
history table and a new one is refused. -/
inductive Foretold (u : Upgrade) (d : Dialect) (t : Option HistoryTable) (report : StatusReport) :
    List Exchange → Except MigrationError RunReport → Prop
  | uncreated {boot e} (ht : t = none) (h : History.Uncreated d u.settings.historyTable boot e) :
    Foretold u d t report (.acquire (.ok ()) :: boot) (.error e)
  | opened {boot completed steps ys r} (h : u.OpenedOn d t boot (.ok completed))
    (hcompleted : completed.toList = report.completed)
    (hregistered : ∀ s ∈ steps, s ∈ u.registry.steps.toList)
    (hpending : steps.map (·.version) = report.pending) (hsteps : u.StepsLog d steps ys r) :
    Foretold u d t report (.acquire (.ok ()) :: (boot ++ ys))
      (r.map fun applied => ⟨d, applied, report.completed.length⟩)

/-- Where there is no history table, opening it creates one. -/
theorem OpenedOn.creates {q : Except MigrationError VersionSet} (h : u.OpenedOn d none xs q) :
    ∃ st ∈ History.creation d u.settings.historyTable, .execute st (.ok ()) ∈ xs := by
  cases h with
  | read h hn =>
    cases h with
    | created _ hst columns => exact ⟨_, hst, by simp⟩

/-- Where there is no history table, a run creates one, and fails if that is refused. -/
theorem Follows.creates {r : Except MigrationError RunReport} (h : u.Follows d none xs r) :
    ∃ st ∈ History.creation d u.settings.historyTable, ∃ a, .execute st a ∈ xs ∧
      ∀ e, a = .error e → r = .error (.driver e) := by
  cases h with
  | uncreated _ hrefused =>
    cases hrefused with
    | refused _ hst e => exact ⟨_, hst, .error e, by simp, fun e' he => by cases he; rfl⟩
  | unplanned hon _ =>
    obtain ⟨st, hst, hsent⟩ := hon.creates
    exact ⟨st, hst, .ok (), List.mem_cons_of_mem _ hsent, fun _ he => nomatch he⟩
  | planned hon _ _ =>
    obtain ⟨st, hst, hsent⟩ := hon.creates
    refine ⟨st, hst, .ok (), ?_, fun _ he => nomatch he⟩
    exact List.mem_cons_of_mem _ (List.mem_append_left _ hsent)

/-- Steps in a row fail as a step. -/
theorem StepsLog.not_blamesHistory {steps : List Step} {r : Except MigrationError (List Version)}
    (h : u.StepsLog d steps xs r) {e : MigrationError} (he : r = .error e) : ¬ e.BlamesHistory := by
  cases h <;> cases he <;> exact id

/-- What is selected is registered. -/
theorem forecast_registered {t : Option HistoryTable} {completed : VersionSet} {steps : List Step}
    (h : u.forecast t = .ok (completed, steps)) :
    ∀ s ∈ steps, s ∈ u.registry.steps.toList := by
  obtain ⟨found, -, hplan⟩ := bind_eq_ok.mp h
  obtain ⟨pending, hpending, hpair⟩ := bind_eq_ok.mp hplan
  cases hpair
  exact fun s hs => Registry.plan_mem hpending hs

/-- **A look at the history is read-only and foretells the run** from the same state.  If it reports
versions, the run starts the steps of the pending ones, in their order, and records each of them,
unless a step fails or a record is refused; and the count of the completed ones is that of the
report.  The look finds fault with the history if and only if the run does, and then the run starts
no step.  All this holds with and without a history table; where there is none, the run creates it,
and fails if that is refused. -/
theorem status_foretells (hs : srv.ShowsHistory d u.settings.historyTable valid history)
    (hd : u.dialect = .ok d) (hname : Name.check d u.settings.historyTable = .ok ()) {w : World σ}
    (hopen : w.closed = false) (hv : valid w.server)
    (hsuits : ∀ t, history w.server = some t → t.Suits) :
    let log := srv.exchanges w (World.leftBy (u.run srv w))
    let result := World.outcome (u.run srv w)
    (∀ st a, .execute st a ∉ srv.exchanges w (World.leftBy (u.status srv w))) ∧
      (∀ report, World.outcome (u.status srv w) = .ok report →
        u.Foretold d (history w.server) report log result) ∧
      (∀ e : MigrationError, e.BlamesHistory →
        (World.outcome (u.status srv w) = .error e ↔ result = .error e) ∧
        (result = .error e →
          ∃ boot q, log = .acquire (.ok ()) :: boot ∧ u.OpenedOn d (history w.server) boot q)) ∧
      (history w.server = none →
        ∃ st ∈ History.creation d u.settings.historyTable, ∃ a, .execute st a ∈ log ∧
          ∀ e, a = .error e → result = .error (.driver e)) := by
  obtain ⟨xs, r, w', p, hrun, hcourse, -⟩ := u.run_performs srv w
  obtain ⟨planned, applied, hlog, -, -⟩ := hcourse.log
  obtain ⟨ys, q, w'', hstatus, hlook, -⟩ := u.status_performs srv w
  have hreport := hlook.reports hd hopen hs hv hstatus.leads.gives
  have hfollows := hlog.follows hd hopen hs hv hname hsuits hrun.leads.gives
  simp only [hrun.eq, hstatus.eq, World.leftBy_ended, World.outcome_ended, hrun.leads.exchanges,
    hstatus.leads.exchanges]
  refine ⟨hlook.sends_nothing, ?_, ?_, fun hnone => (hnone ▸ hfollows).creates⟩
  · rintro report rfl
    cases hfollows with
    | uncreated hnone hrefused => exact .uncreated hnone hrefused
    | unplanned _ hf =>
      rw [hf] at hreport
      cases hreport
    | planned hon hf hsteps =>
      rw [hf] at hreport
      cases hreport
      exact .opened hon rfl (forecast_registered hf) rfl hsteps
  · intro e he
    cases hfollows with
    | uncreated hnone hrefused =>
      -- without a history table there is nothing to find fault with
      rw [hnone, forecast_none] at hreport
      cases hreport
      cases hrefused
      exact ⟨iff_of_false (fun h => nomatch h) (fun h => by cases h; exact he),
        fun h => by cases h; exact he.elim⟩
    | unplanned hon hf =>
      rw [hf] at hreport
      cases hreport
      exact ⟨⟨fun h => by cases h; rfl, fun h => by cases h; rfl⟩, fun _ => ⟨_, _, rfl, hon⟩⟩
    | @planned boot completed steps ys result hon hf hsteps =>
      rw [hf] at hreport
      cases hreport
      have hnot : ¬ (result.map fun applied => (⟨d, applied, completed.size⟩ : RunReport)) =
          .error e := by
        intro h
        cases result with
        | ok => cases h
        | error e' =>
          cases h
          exact hsteps.not_blamesHistory rfl he
      exact ⟨iff_of_false (fun h => nomatch h) hnot, fun h => (hnot h).elim⟩

end Upgrade

namespace Catalog

/-- The history table that a catalog holds. -/
def historyTable (name : String) (c : Catalog) : Option HistoryTable :=
  if c.hasTable name then some ⟨c.columnNames name, c.historyRows name⟩ else none

/-- **The model of a database shows its history table.** -/
theorem showsHistory (d : Dialect) (name : String) :
    (server d).ShowsHistory d name Tidy (historyTable name) where
  connects c := ⟨c, rfl, fun h => ⟨h, rfl⟩⟩
  finds c hc := by
    refine ⟨_, c, rfl, ?_, hc, rfl⟩
    rw [← hasTable_iff, historyTable]
    split <;> simp [*]
  columns c t hc ht := by
    refine ⟨c, ?_, hc, rfl⟩
    rw [historyTable] at ht
    split at ht
    · cases ht
      rfl
    · cases ht
  rows c t hc ht := by
    refine ⟨c, ?_⟩
    rw [historyTable] at ht
    split at ht
    · next hhas =>
      cases ht
      show ((c.list (.completedVersions name)).mapError refusal, c) = _
      rw [list, if_pos hhas, historyRows, if_pos hhas]
      rfl
    · cases ht
  creates c st hc hnone hst hok := by
    cases List.mem_singleton.mp hst
    rcases execute_cases d _ c with ⟨c', hc', he⟩ | ⟨f, he⟩
    · -- the new table has no rows, since no record is without its table
      rw [he]
      have hhas : c'.hasTable name = true := by
        rw [(createTable_hasTable hc').2]
        exact Bool.or_eq_true_iff.mpr (Or.inr (sameName_refl name))
      have hrows : c'.historyRows name = [] := by
        rw [createTable_rows hc' hc, historyRows]
        rw [historyTable] at hnone
        split at hnone
        · cases hnone
        · next hno => rw [if_neg hno]
      refine ⟨carryOut_tidy hc' hc, c'.columnNames name, ?_⟩
      rw [historyTable, if_pos hhas, hrows]
    · rw [he] at hok
      cases hok

end Catalog

namespace Shipped

/-- The shipped schema is foretold where two of its steps are completed, and where there is nothing
at all: there the run creates the history table. -/
theorem upgrade_foretold :
    let srv := Catalog.server .sqlite
    let partly : World Catalog := { server := twoCompleted }
    let versions := upgrade.registry.versions
    let rest : StatusReport :=
      ⟨.sqlite, versions.take 2, versions.drop 2, upgrade.registry.latest?⟩
    let empty : World Catalog := { server := {} }
    let all : StatusReport := ⟨.sqlite, [], versions, upgrade.registry.latest?⟩
    let log := srv.exchanges empty (World.leftBy (upgrade.run srv empty))
    (World.outcome (upgrade.status srv partly) = .ok rest ∧
      upgrade.Foretold .sqlite (some ⟨["version", "status", "completed_at"], ["1", "2"]⟩) rest
        (srv.exchanges partly (World.leftBy (upgrade.run srv partly)))
        (World.outcome (upgrade.run srv partly)) ∧
      World.outcome (upgrade.run srv partly) = .ok ⟨.sqlite, rest.pending, 2⟩) ∧
    World.outcome (upgrade.status srv empty) = .ok all ∧
      upgrade.Foretold .sqlite none all log (World.outcome (upgrade.run srv empty)) ∧
      World.outcome (upgrade.run srv empty) = .ok ⟨.sqlite, versions, 0⟩ ∧
      ∃ st ∈ History.creation .sqlite "schema_migrations", .execute st (.ok ()) ∈ log := by
  intro srv partly versions rest empty all log
  have hshows := Catalog.showsHistory .sqlite "schema_migrations"
  have hpartly : World.outcome (upgrade.status srv partly) = .ok rest := by decide +kernel
  have htidy : ∀ r ∈ twoCompleted.recorded, twoCompleted.hasTable r.1 = true := by decide +kernel
  have hshown : twoCompleted.historyTable "schema_migrations" =
      some ⟨["version", "status", "completed_at"], ["1", "2"]⟩ := by decide +kernel
  have hsuits : ∀ t, twoCompleted.historyTable "schema_migrations" = some t → t.Suits := by
    intro t ht
    rw [hshown] at ht
    cases ht
    exact fun k hk => hk
  have hforetells := Upgrade.status_foretells (u := upgrade) hshows rfl rfl (w := partly) rfl htidy
    hsuits
  have hempty : World.outcome (upgrade.status srv empty) = .ok all := by decide +kernel
  have hrun : World.outcome (upgrade.run srv empty) = .ok ⟨.sqlite, versions, 0⟩ := by
    decide +kernel
  have hcreates := Upgrade.status_foretells (u := upgrade) hshows rfl rfl (w := empty) rfl
    (fun _ hr => (List.not_mem_nil hr).elim) (fun _ ht => nomatch ht)
  obtain ⟨st, hst, a, hsent, hrefused⟩ := hcreates.2.2.2 rfl
  refine ⟨⟨hpartly, hshown ▸ hforetells.2.1 rest hpartly, by decide +kernel⟩, hempty,
    hcreates.2.1 all hempty, hrun, st, hst, ?_⟩
  cases a with
  | ok => exact hsent
  | error e =>
    rw [hrun] at hrefused
    cases hrefused e rfl

end Shipped
end SchemaMigration
