import SchemaMigration.Proofs.Continuing
import SchemaMigration.Proofs.Interruption

/-!
# Interrupted runs converge

A run of an upgrade with additive steps, on a database that answers from a catalog, either completes
the upgrade or breaks off because of trouble (`Upgrade.Course.completes`,
`Upgrade.Course.of_completes`).
Since an upgrade can be continued wherever it broke off, any number of interrupted runs followed by
one without an interruption end in the catalog that one run alone would have led to
(`Upgrade.crash_convergence`).
-/
namespace SchemaMigration
open Program Catalog

section Fronts

variable {σ : Type} {srv : Server σ} {view : σ → Catalog} {trouble : Prop} {d : Dialect}
  {s : σ} {xs : List Exchange}

/-- A connection changes nothing, and is refused because of trouble only. -/
theorem Server.Fronts.acquire (hf : srv.Fronts d view trouble) {a : Except DriverError Unit}
    (hg : srv.reply s .acquire = some (.acquire a)) :
    view (srv.next s (.acquire a)) = view s ∧ (a = .ok () ∨ trouble) := by
  rcases hf.answers s (.acquire a) hg with ⟨hreply, hview⟩ | ⟨ht, -, hview⟩
  · exact ⟨hview, Or.inl (Exchange.acquire.inj (Option.some.inj hreply)).symm⟩
  · exact ⟨hview.elim id id, Or.inr ht⟩

namespace Change

variable {changes : List Change}

theorem carryOutAll_path {r : Except MigrationError Unit}
    (hp : (Change.carryOutAll d changes).Path xs r) :
    (∃ e, r = .error e ∧ (ensureAll d changes).Path xs (.error e)) ∨
      ∃ bs, r = .ok () ∧ (ensureAll d changes).Path xs (.ok bs) := by
  rcases Path.of_bind hp with ⟨e, rfl, hall⟩ | ⟨ys, zs, bs, rfl, hall, hend⟩
  · exact Or.inl ⟨e, rfl, hall⟩
  · obtain ⟨rfl, rfl⟩ := Path.of_pure hend
    rw [List.append_nil]
    exact Or.inr ⟨bs, rfl, hall⟩

/-- Changes that succeed have passed. -/
theorem carryOutAll_passes (hf : srv.Fronts d view trouble)
    (hp : (Change.carryOutAll d changes).Path xs (.ok ())) (hg : srv.Gives s xs) :
    ∃ ls, Passes d (view s) changes ls (view (srv.after s xs)) := by
  rcases carryOutAll_path hp with ⟨e, he, -⟩ | ⟨bs, -, hall⟩
  · cases he
  · obtain ⟨ls, hpasses, -⟩ := ensureAll_passes hf hall hg
    exact ⟨ls, hpasses⟩

/-- Changes that pass succeed, unless there is trouble. -/
theorem carryOutAll_of_passes (hf : srv.Fronts d view trouble) {ls : List (List Statement)}
    {c' : Catalog} (hpasses : Passes d (view s) changes ls c') {r : Except MigrationError Unit}
    (hp : (Change.carryOutAll d changes).Path xs r) (hg : srv.Gives s xs) :
    (r = .ok () ∧ view (srv.after s xs) = c') ∨
      ((∃ e, r = .error e) ∧
        BreaksOff d trouble (view s) ls.flatten (view (srv.after s xs))) := by
  rcases carryOutAll_path hp with ⟨e, rfl, hall⟩ | ⟨bs, rfl, hall⟩
  · rcases ensureAll_of_passes hf hpasses rfl hall hg with ⟨bs, hok⟩ | ⟨-, hbreak⟩
    · cases hok
    · exact Or.inr ⟨⟨e, rfl⟩, hbreak⟩
  · obtain ⟨ls', hpasses', -⟩ := ensureAll_passes hf hall hg
    exact Or.inl ⟨rfl, (hpasses.unique hpasses').2.symm⟩

end Change

namespace Upgrade

variable {u : Upgrade} {shown : Option Progress} {p q : Progress} {steps : List Step}
  {c c' : Catalog} {sts : List Statement}

section Step

variable {t : Step} {changes : List Change} (hbody : t.body d = Change.carryOutAll d changes)

include hbody

/-- A step that is applied and recorded. -/
theorem Recorded.applied (hf : srv.Fronts d view trouble) (h : u.Recorded d t xs)
    (hg : srv.Gives s xs) : ∃ ls c₁, Passes d (view s) changes ls c₁ ∧
      c₁.carryOut d (u.recordOf t.version) = .ok (view (srv.after s xs)) := by
  obtain ⟨body, hpath, rfl⟩ := h
  rw [hbody] at hpath
  obtain ⟨hconn, hrest⟩ := hg
  obtain ⟨hgbody, hconn', hrecord, -⟩ := (srv.gives_append _ body _).mp hrest
  obtain ⟨ls, hpasses⟩ := Change.carryOutAll_passes hf hpath hgbody
  rw [(hf.acquire hconn).1] at hpasses
  rw [Server.after_cons, Server.after_append]
  rcases hf.execute hrecord with ⟨-, hcarried⟩ | ⟨⟨e, he⟩, -⟩
  · rw [(hf.acquire hconn').1] at hcarried
    exact ⟨ls, _, hpasses, hcarried⟩
  · cases he

/-- A step that could be applied and recorded breaks off because of trouble only. -/
theorem Stopped.breaksOff (hf : srv.Fronts d view trouble) {e : MigrationError}
    (h : u.Stopped d t xs e) (hg : srv.Gives s xs) {ls : List (List Statement)} {c₁ c₂ : Catalog}
    (hpasses : Passes d (view s) changes ls c₁)
    (hrecord : c₁.carryOut d (u.recordOf t.version) = .ok c₂) :
    BreaksOff d trouble (view s) (ls.flatten ++ [u.recordOf t.version])
      (view (srv.after s xs)) := by
  -- what the first connection leaves behind is what the body begins with
  have hbegin : ∀ {a}, srv.reply s .acquire = some (.acquire a) →
      Passes d (view (srv.next s (.acquire a))) changes ls c₁ := fun hconn => by
    rw [(hf.acquire hconn).1]
    exact hpasses
  -- a body that succeeds has had its effect when the record is due
  have hdone : ∀ {body ys}, (t.body d).Path body (.ok ()) →
      srv.Gives s (.acquire (.ok ()) :: (body ++ ys)) →
      view (srv.after (srv.next s (.acquire (.ok ()))) body) = c₁ ∧
        srv.Gives (srv.after (srv.next s (.acquire (.ok ()))) body) ys := by
    intro body ys hpath hg
    rw [hbody] at hpath
    obtain ⟨hgbody, hgys⟩ := (srv.gives_append _ body ys).mp hg.2
    rcases Change.carryOutAll_of_passes hf (hbegin hg.1) hpath hgbody with
      ⟨-, hview⟩ | ⟨⟨e, he⟩, -⟩
    · exact ⟨hview, hgys⟩
    · cases he
  cases h with
  | unreached e =>
    obtain ⟨hview, hok | ht⟩ := hf.acquire hg.1
    · cases hok
    · rw [Server.after_cons, Server.after_nil, hview]
      exact .now ht _ _
  | @failed body e hpath =>
    rw [hbody] at hpath
    rcases Change.carryOutAll_of_passes hf (hbegin hg.1) hpath hg.2 with ⟨hok, -⟩ | ⟨-, hbreak⟩
    · cases hok
    · rw [(hf.acquire hg.1).1] at hbreak
      exact hbreak.before _
  | @unrecordable body e hpath =>
    obtain ⟨hview, hconn, -⟩ := hdone hpath hg
    obtain ⟨hview', hok | ht⟩ := hf.acquire hconn
    · cases hok
    · rw [Server.after_cons, Server.after_append, Server.after_cons, Server.after_nil, hview',
        hview]
      exact (BreaksOff.now ht c₁ _).after hpasses.carryOutAll
  | @unrecorded body e hpath =>
    obtain ⟨hview, hconn, hsent, -⟩ := hdone hpath hg
    rcases hf.execute hsent with ⟨hok, -⟩ | ⟨-, hhalts⟩
    · cases hok
    · rw [(hf.acquire hconn).1, hview] at hhalts
      rw [Server.after_cons, Server.after_append]
      have hone : c₁.carryOutAll d [u.recordOf t.version] = .ok c₂ :=
        carryOutAll_cons_ok.mpr ⟨c₂, hrecord, rfl⟩
      exact (hhalts.breaksOff hone).after hpasses.carryOutAll

end Step

/-- Steps that are all applied and recorded. -/
theorem StepsCourse.applies (hf : srv.Fronts d view trouble)
    (hadditive : ∀ t ∈ steps, t.IsAdditive) {r : Except MigrationError (List Version)}
    (h : u.StepsCourse d shown p steps xs r q) (hr : ∃ applied, r = .ok applied)
    (hg : srv.Gives s xs) : ∃ sts, u.Applies d (view s) steps sts (view (srv.after s xs)) := by
  induction h generalizing s with
  | done p => exact ⟨[], .nil _⟩
  | stop =>
    obtain ⟨applied, hr⟩ := hr
    cases hr
  | @step p t rest xs ys r q hrecorded _ _ ih =>
    obtain ⟨ht, hrest⟩ := List.forall_mem_cons.mp hadditive
    obtain ⟨changes, hchanges, hbody⟩ := ht d
    obtain ⟨hgx, hgy⟩ := (srv.gives_append s xs ys).mp hg
    obtain ⟨ls, c₁, hpasses, hcarried⟩ := hrecorded.applied hbody hf hgx
    have hr' : ∃ applied, r = .ok applied := by
      obtain ⟨applied, hr⟩ := hr
      cases r with
      | error e => cases hr
      | ok rest => exact ⟨rest, rfl⟩
    obtain ⟨sts, happlies⟩ := ih hrest hr' hgy
    rw [Server.after_append]
    exact ⟨_, .cons hchanges hbody hpasses hcarried happlies⟩

/-- **Steps that can be applied and recorded** all are, or break off because of trouble. -/
theorem StepsCourse.of_applies (hf : srv.Fronts d view trouble)
    (happlies : u.Applies d c steps sts c') (hs : view s = c)
    {r : Except MigrationError (List Version)} (h : u.StepsCourse d shown p steps xs r q)
    (hg : srv.Gives s xs) :
    ((∃ applied, r = .ok applied) ∧ view (srv.after s xs) = c') ∨
      ((∃ e, r = .error e) ∧ BreaksOff d trouble c sts (view (srv.after s xs))) := by
  induction happlies generalizing s p xs r with
  | nil c =>
    cases h
    exact Or.inl ⟨⟨[], rfl⟩, hs⟩
  | @cons c t changes ls c₁ c₂ rest sts c' hchanges hbody hpasses hrecord _ ih =>
    subst hs
    cases h with
    | stop hstop =>
      have hbreak := hstop.breaksOff hbody hf hg hpasses hrecord
      refine Or.inr ⟨⟨_, rfl⟩, ?_⟩
      rw [← List.singleton_append (l := sts), ← List.append_assoc]
      exact hbreak.before sts
    | @step _ _ _ xs ys r _ hrecorded _ htail =>
      obtain ⟨hgx, hgy⟩ := (srv.gives_append s xs ys).mp hg
      obtain ⟨ls', c₃, hpasses', hcarried⟩ := hrecorded.applied hbody hf hgx
      obtain ⟨rfl, rfl⟩ := hpasses.unique hpasses'
      have hview : view (srv.after s xs) = c₂ := Except.ok.inj (hcarried.symm.trans hrecord)
      rw [Server.after_append]
      rcases ih hview htail hgy with ⟨⟨applied, rfl⟩, hend⟩ | ⟨⟨e, rfl⟩, hbreak⟩
      · exact Or.inl ⟨⟨_, rfl⟩, hend⟩
      · refine Or.inr ⟨⟨e, rfl⟩, ?_⟩
        rw [← List.singleton_append (l := sts), ← List.append_assoc]
        refine hbreak.after (carryOutAll_append_ok.mpr ⟨c₁, hpasses.carryOutAll, ?_⟩)
        exact carryOutAll_cons_ok.mpr ⟨c₂, hrecord, rfl⟩

/-! ## The opening -/

theorem readRows_texts (name : String) (vs : List Version) :
    History.readRows name (vs.map (·.text)) = .ok vs := by
  induction vs with
  | nil => rfl
  | cons v rest ih =>
    rw [List.map_cons, History.readRows, v.read_text, ih]
    rfl

/-- Where there is a history table, reading it finds the versions that it records. -/
theorem looks_completed (hf : srv.Fronts d view trouble) {table : String}
    (hhas : c.hasTable table = true) :
    Looks srv view trouble c (History.completed table) (pure (c.completedIn table)) := by
  have hlist : c.list (.completedVersions table) =
      .ok (((c.recorded.filter fun r => sameName r.1 table).map (·.2)).map (·.text)) := by
    rw [List.map_map]
    exact if_pos hhas
  refine (looks_holds hf (.table table) _).trans ?_
  rw [has_table, hhas]
  refine (looks_askList hf hlist _).trans ?_
  rw [readRows_texts]
  exact .refl c _

/-- The opening makes sure of the history table, and finds what it records. -/
theorem opening_finds (hf : srv.Fronts d view trouble) {completed : VersionSet}
    (h : (u.opening d).Path xs (.ok completed)) (hg : srv.Gives s xs) :
    ∃ prep, (view s).due d (.createTable (History.table u.settings.historyTable)) = .ok prep ∧
      (view s).carryOutAll d prep = .ok (view (srv.after s xs)) ∧
      completed = (view (srv.after s xs)).completedIn u.settings.historyTable := by
  rcases Path.of_bind h with ⟨e, he, -⟩ | ⟨ens, read, _, rfl, hprep, hread⟩
  · cases he
  obtain ⟨hgens, hgread⟩ := (srv.gives_append s ens read).mp hg
  rcases History.prepare_path hprep with ⟨e, he, -⟩ | ⟨b, -, hensure⟩
  · cases he
  obtain ⟨prep, hdue, -, -, hcarried⟩ := Change.ensure_passes hf hensure hgens
  have hhas := (settles_createTable hcarried hdue).hasTable
  rw [Server.after_append]
  rcases looks_completed hf hhas _ _ _ rfl hread hgread with
    ⟨-, ⟨e, he⟩, -⟩ | ⟨qs, ys, rfl, -, hview, hend, -⟩
  · cases he
  · obtain ⟨rfl, hok⟩ := Path.of_pure hend
    cases hok
    rw [List.append_nil, hview]
    exact ⟨prep, hdue, hcarried, rfl⟩

/-- Where the statements for the history table are carried out, the opening succeeds, unless there
is trouble. -/
theorem opening_of (hf : srv.Fronts d view trouble) {prep : List Statement} {c₁ : Catalog}
    (hdue : (view s).due d (.createTable (History.table u.settings.historyTable)) = .ok prep)
    (hcarried : (view s).carryOutAll d prep = .ok c₁) {r : Except MigrationError VersionSet}
    (h : (u.opening d).Path xs r) (hg : srv.Gives s xs) :
    (∃ completed, r = .ok completed) ∨
      ((∃ e, r = .error e) ∧ BreaksOff d trouble (view s) prep (view (srv.after s xs))) := by
  rcases Path.of_bind h with ⟨e, rfl, hprep⟩ | ⟨ens, read, _, rfl, hprep, hread⟩
  · rcases History.prepare_path hprep with ⟨e', he, hensure⟩ | ⟨b, he, -⟩
    · rcases Change.ensure_of_passes hf hensure hg hdue hcarried with hok | ⟨-, hbreak⟩
      · cases hok
      · exact Or.inr ⟨⟨e, rfl⟩, hbreak⟩
    · cases he
  obtain ⟨hgens, hgread⟩ := (srv.gives_append s ens read).mp hg
  rcases History.prepare_path hprep with ⟨e, he, -⟩ | ⟨b, -, hensure⟩
  · cases he
  obtain ⟨prep', hdue', -, -, hcarried'⟩ := Change.ensure_passes hf hensure hgens
  cases hdue.symm.trans hdue'
  have hhas := (settles_createTable hcarried' hdue).hasTable
  rw [Server.after_append]
  rcases looks_completed hf hhas _ _ _ rfl hread hgread with
    ⟨ht, he, hview, -⟩ | ⟨qs, ys, rfl, -, -, hend, -⟩
  · refine Or.inr ⟨he, ht, prep, [], (List.append_nil prep).symm, ?_⟩
    rw [hview]
    exact hcarried'
  · exact Or.inl ⟨_, (Path.of_pure hend).2⟩

/-! ## Runs -/

variable {closed : Bool} {result : Except MigrationError RunReport}

/-- **A run that succeeds has completed the upgrade.** -/
theorem Course.completes (hf : srv.Fronts d view trouble) (hd : u.dialect = .ok d)
    (hadditive : u.registry.IsAdditive) (h : u.Course closed shown xs result p)
    (hr : ∃ report, result = .ok report) (hg : srv.Gives s xs) :
    ∃ sts, u.Completes d (view s) sts (view (srv.after s xs)) := by
  obtain ⟨report, hr⟩ := hr
  cases h with
  | @planned d' boot completed pending ys r _ hd' _ hopening hplan hsteps =>
    cases hd.symm.trans hd'
    obtain ⟨hconn, hrest⟩ := hg
    obtain ⟨hgboot, hgsteps⟩ := (srv.gives_append _ boot ys).mp hrest
    obtain ⟨prep, hdue, hcarried, rfl⟩ := opening_finds hf hopening hgboot
    rw [(hf.acquire hconn).1] at hdue hcarried
    have happlied : ∃ applied, r = .ok applied := by
      cases r with
      | error e => cases hr
      | ok applied => exact ⟨applied, rfl⟩
    obtain ⟨sts, happlies⟩ := hsteps.applies hf
      (fun t ht => hadditive t (Registry.plan_mem hplan ht)) happlied hgsteps
    rw [Server.after_cons, Server.after_append]
    exact ⟨prep ++ sts, prep, _, pending, sts, hdue, hcarried, hplan, happlies, rfl⟩
  | _ => cases hr

/-- **A run completes the upgrade where that can be done**, or breaks off because of trouble. -/
theorem Course.of_completes (hf : srv.Fronts d view trouble) (hd : u.dialect = .ok d)
    (hclosed : closed = true → trouble) (hc : u.Completes d (view s) sts c')
    (h : u.Course closed shown xs result p) (hg : srv.Gives s xs) :
    ((∃ report, result = .ok report) ∧ view (srv.after s xs) = c') ∨
      ((∃ e, result = .error e) ∧ BreaksOff d trouble (view s) sts (view (srv.after s xs))) := by
  obtain ⟨prep, c₁, pending, steps, hdue, hcarried, hplan, happlies, rfl⟩ := hc
  -- what the connection leaves behind is what the opening begins with
  have hbegin : ∀ {a}, srv.reply s .acquire = some (.acquire a) →
      view (srv.next s (.acquire a)) = view s := fun hconn => (hf.acquire hconn).1
  cases h with
  | unsupported hd' => cases hd.symm.trans hd'
  | closed _ hc => exact Or.inr ⟨⟨_, rfl⟩, .now (hclosed hc) _ _⟩
  | unreached e =>
    obtain ⟨hview, hok | ht⟩ := hf.acquire hg.1
    · cases hok
    · rw [Server.after_cons, Server.after_nil, hview]
      exact Or.inr ⟨⟨_, rfl⟩, .now ht _ _⟩
  | unopened hd' _ hopening =>
    cases hd.symm.trans hd'
    rw [← hbegin hg.1] at hdue hcarried
    rcases opening_of hf hdue hcarried hopening hg.2 with ⟨completed, hok⟩ | ⟨-, hbreak⟩
    · cases hok
    · rw [hbegin hg.1] at hbreak
      exact Or.inr ⟨⟨_, rfl⟩, hbreak.before steps⟩
  | unplanned hd' _ hopening hplan' =>
    cases hd.symm.trans hd'
    obtain ⟨prep', hdue', hcarried', rfl⟩ := opening_finds hf hopening hg.2
    rw [hbegin hg.1] at hdue' hcarried'
    cases hdue.symm.trans hdue'
    cases hcarried.symm.trans hcarried'
    cases hplan.symm.trans hplan'
  | @planned _ boot completed pending' ys r _ hd' _ hopening hplan' hsteps =>
    cases hd.symm.trans hd'
    obtain ⟨hconn, hrest⟩ := hg
    obtain ⟨hgboot, hgsteps⟩ := (srv.gives_append _ boot ys).mp hrest
    obtain ⟨prep', hdue', hcarried', rfl⟩ := opening_finds hf hopening hgboot
    rw [hbegin hconn] at hdue' hcarried'
    cases hdue.symm.trans hdue'
    have hview : view (srv.after (srv.next s (.acquire (.ok ()))) boot) = c₁ :=
      Except.ok.inj (hcarried'.symm.trans hcarried)
    rw [hview] at hplan'
    cases hplan.symm.trans hplan'
    rw [Server.after_cons, Server.after_append]
    rcases hsteps.of_applies hf happlies hview hgsteps with
      ⟨⟨applied, rfl⟩, hend⟩ | ⟨⟨e, rfl⟩, hbreak⟩
    · exact Or.inl ⟨⟨_, rfl⟩, hend⟩
    · exact Or.inr ⟨⟨e, rfl⟩, hbreak.after hcarried⟩

end Upgrade

end Fronts

namespace Upgrade

/-- The catalogs that runs of the upgrade lead to from the catalog `start`, however many there are,
and whatever they are interrupted by. -/
inductive Interrupted (u : Upgrade) (d : Dialect) (start : Catalog) : Catalog → Prop
  | start : Interrupted u d start start
  | run {c} (h : Interrupted u d start c) (w : World (Troubled Catalog))
    (hw : w.server.state = c) :
    Interrupted u d start (World.leftBy (u.run (Catalog.server d).troubled w)).server.state

variable {u : Upgrade} {d : Dialect} {start c : Catalog}

/-- **Interruptions do not keep an upgrade from its end.** -/
theorem Interrupted.completes {sts : List Statement} {c' : Catalog} (hd : u.dialect = .ok d)
    (hstart : u.Completes d start sts c') (h : Interrupted u d start c) :
    ∃ rest, u.Completes d c rest c' := by
  induction h with
  | start => exact ⟨sts, hstart⟩
  | run _ w hw ih =>
    obtain ⟨rest, hrest⟩ := ih
    obtain ⟨xs, r, w', p, hrun, hcourse, -⟩ := u.run_performs (Catalog.server d).troubled w
    rw [hrun.eq, World.leftBy_ended, hrun.leads.server]
    subst hw
    rcases hcourse.of_completes (troubled_fronts d) hd (fun _ => trivial) hrest hrun.leads.gives
      with ⟨-, hend⟩ | ⟨-, hbreak⟩
    · -- the run has come to its end, and nothing is left to do
      have hall : BreaksOff d True w.server.state rest
          ((Catalog.server d).troubled.after w.server xs).state := by
        rw [hend]
        exact ⟨trivial, rest, [], (List.append_nil rest).symm, hrest.carryOutAll⟩
      exact hrest.continues hall
    · exact hrest.continues hbreak

/-- **Crash convergence.**  Take an upgrade with additive steps, and a database from which one run
of it succeeds.  After any number of runs that were interrupted anywhere, a run without an
interruption succeeds, and leaves exactly the catalog behind that the one run would have left: the
same tables with the same columns in the same order, the same indexes and constraints, and the same
records. -/
theorem crash_convergence (hd : u.dialect = .ok d) (hadditive : u.registry.IsAdditive)
    {w₀ : World Catalog} {report : RunReport}
    (hok : World.outcome (u.run (Catalog.server d) w₀) = .ok report)
    (hc : Interrupted u d w₀.server c) {w : World Catalog} (hw : w.server = c)
    (hopen : w.closed = false) :
    (∃ report, World.outcome (u.run (Catalog.server d) w) = .ok report) ∧
      (World.leftBy (u.run (Catalog.server d) w)).server =
        (World.leftBy (u.run (Catalog.server d) w₀)).server := by
  obtain ⟨xs, r, w', p, hrun, hcourse, -⟩ := u.run_performs (Catalog.server d) w₀
  rw [hrun.eq, World.outcome_ended] at hok
  rw [hrun.eq, World.leftBy_ended, hrun.leads.server]
  obtain ⟨sts, hcompletes⟩ :=
    hcourse.completes (fronts d) hd hadditive ⟨report, hok⟩ hrun.leads.gives
  obtain ⟨rest, hrest⟩ := hc.completes hd hcompletes
  subst hw
  obtain ⟨ys, r', w'', p', hrun', hcourse', -⟩ := u.run_performs (Catalog.server d) w
  rw [hrun'.eq, World.outcome_ended, World.leftBy_ended, hrun'.leads.server]
  have hclosed : w.closed = true → False := fun h => by
    rw [hopen] at h
    cases h
  rcases hcourse'.of_completes (fronts d) hd hclosed hrest hrun'.leads.gives with
    hend | ⟨-, hno, -⟩
  · exact hend
  · exact hno.elim

end Upgrade

namespace Shipped

theorem registry_isAdditive : upgrade.registry.IsAdditive := by
  have hstep : ∀ n description change h, change.IsAdditive →
      (step n description change h).IsAdditive := by
    intro n description change h hchange d
    refine ⟨[change], fun x hx => List.mem_singleton.mp hx ▸ hchange, ?_⟩
    show (change.ensure d >>= fun _ => pure ()) = _
    simp only [Change.carryOutAll, Change.ensureAll, Program.bind_assoc, Program.pure_bind]
  intro t ht
  simp only [upgrade, steps, List.mem_cons, List.not_mem_nil, or_false] at ht
  rcases ht with rfl | rfl | rfl | rfl | rfl <;> exact hstep _ _ _ _ trivial

/-- An empty SQLite database after a run that was cut off when the index of the second step had just
been made. -/
def halfway : Catalog :=
  (World.leftBy (upgrade.run (Catalog.server .sqlite).troubled
    { server := ⟨{}, List.replicate 14 none ++ [some (.late .poolTimedOut)]⟩ })).server.state

example : halfway.indexes.length = 1 ∧
    halfway.recorded = [("schema_migrations", ⟨1, by decide⟩)] := by
  decide +kernel

theorem halfway_converges :
    (∃ report, World.outcome (upgrade.run (Catalog.server .sqlite) { server := halfway }) =
        .ok report) ∧
      (World.leftBy (upgrade.run (Catalog.server .sqlite) { server := halfway })).server =
        (World.leftBy (upgrade.run (Catalog.server .sqlite) { server := {} })).server := by
  have hok : World.outcome (upgrade.run (Catalog.server .sqlite) { server := {} }) =
      .ok ⟨.sqlite, upgrade.registry.versions, 0⟩ := by decide +kernel
  exact Upgrade.crash_convergence rfl registry_isAdditive hok (.run .start _ rfl) rfl rfl

end Shipped
end SchemaMigration
