import SchemaMigration.Proofs.CatalogHistory

/-!
# The history is a prefix

Over the whole lifetime of a database (`Lifetime`) the rows of its history table are the versions of
the current registry up to some point (`history_initial`).  Builds come with longer and longer
registries and either policy; a run may be cut off behind any request, and a record that was refused
may have been stored.

One step of a lifetime is `Upgrade.Course.keepsInitial`: from a prefix the run plans exactly what is
behind it, and extends it version by version.
-/
namespace SchemaMigration

namespace Server

variable {σ : Type} {srv : Server σ} {table : String} {rows : σ → List String} {s : σ}
  {xs ys : List Exchange} {versions : List Version}

/-- Wherever the exchanges are cut off, the rows are the first of these versions; and if a record is
sent next, it is that of a version which is not among them. -/
def KeepsInitial (srv : Server σ) (table : String) (rows : σ → List String)
    (versions : List Version) (s : σ) (xs : List Exchange) : Prop :=
  ∀ pre post, xs = pre ++ post →
    (∃ k, rows (srv.after s pre) = (versions.take k).map (·.text)) ∧
    ∀ v a tail, post = .execute (.recordVersion table v) a :: tail →
      v.text ∉ rows (srv.after s pre)

/-- Without a record, a prefix stays what it is. -/
theorem Undisturbed.keepsInitial (hq : srv.Undisturbed table rows s xs)
    (hnone : ∀ x ∈ xs, ¬ x.IsRecord table) {k : Nat}
    (hk : rows s = (versions.take k).map (·.text)) :
    srv.KeepsInitial table rows versions s xs := by
  rintro pre post rfl
  have hpre := (undisturbed_append.mp hq).1
  refine ⟨⟨k, ?_⟩, ?_⟩
  · rw [hpre.rows_eq fun x hx => hnone x (List.mem_append_left _ hx), hk]
  · rintro v a tail rfl
    exact (hnone (.execute (.recordVersion table v) a) (by simp) rfl).elim

theorem KeepsInitial.append (hx : srv.KeepsInitial table rows versions s xs)
    (hy : srv.KeepsInitial table rows versions (srv.after s xs) ys) :
    srv.KeepsInitial table rows versions s (xs ++ ys) := by
  intro pre post h
  rcases List.append_eq_append_iff.mp h with ⟨t, rfl, rfl⟩ | ⟨t, rfl, rfl⟩
  · rw [after_append]
    exact hy t post rfl
  · refine ⟨(hx pre t rfl).1, fun v a tail hpost => ?_⟩
    cases t with
    | nil =>
      -- the cut is right between the two
      rw [List.append_nil] at hy
      exact (hy [] ys rfl).2 v a tail hpost
    | cons y t =>
      obtain ⟨rfl, -⟩ := List.cons.inj hpost
      exact (hx pre _ rfl).2 v a t rfl

end Server

namespace Upgrade

variable {σ : Type} {u : Upgrade} {srv : Server σ} {rows : σ → List String} {d : Dialect} {s : σ}

/-- From a prefix of the registry, a run plans the steps behind it. -/
theorem plan_of_rows {k : Nat} {policy : Policy} {completed : VersionSet}
    (hk : rows s = (u.registry.versions.take k).map (·.text))
    (hmem : ∀ v : Version, v ∈ completed ↔ History.Names (rows s) v) :
    u.registry.plan policy completed = .ok (u.registry.steps.toList.drop k) := by
  refine Registry.plan_initial fun v => (hmem v).trans ?_
  rw [hk, History.names_texts]

/-- From a prefix, the opening leads to the plan of the steps behind it, or fails without blaming
the history. -/
theorem opening_of_rows {boot : List Exchange} {r : Except MigrationError VersionSet} {k : Nat}
    (h : (u.opening d).Path boot r) (hdb : srv.KeepsHistory u.settings.historyTable rows)
    (hk : rows s = (u.registry.versions.take k).map (·.text))
    (hg : srv.Gives s (.acquire (.ok ()) :: boot))
    (hq : srv.Undisturbed u.settings.historyTable rows s (.acquire (.ok ()) :: boot)) :
    match r with
    | .ok completed => u.registry.plan u.settings.policy completed =
        .ok (u.registry.steps.toList.drop k)
    | .error e => ¬ e.BlamesHistory := by
  have hreadable : History.Readable (rows s) := hk ▸ History.readable_texts _
  rcases opening_completed h hdb hreadable hg hq with ⟨e, rfl, he⟩ | ⟨completed, rfl, hmem⟩
  · exact he.not_blamesHistory
  · exact plan_of_rows hk hmem

/-- Along the steps behind a prefix, the rows stay one. -/
theorem StepsCourse.keepsInitial {shown : Option Progress} {p q : Progress} {xs : List Exchange}
    {r : Except MigrationError (List Version)} {k : Nat}
    (h : u.StepsCourse d shown p (u.registry.steps.toList.drop k) xs r q)
    (hdb : srv.KeepsHistory u.settings.historyTable rows)
    (hbodies : u.registry.SparesHistory u.settings.historyTable)
    (hg : srv.Gives s xs) (hq : srv.Undisturbed u.settings.historyTable rows s xs)
    (hk : rows s = (u.registry.versions.take k).map (·.text)) :
    srv.KeepsInitial u.settings.historyTable rows u.registry.versions s xs := by
  intro pre post hx
  obtain ⟨before, rest, hdrop, hrows, hnext⟩ := h.rows_eq hdb
    (fun t ht => hbodies t (List.mem_of_mem_drop ht) d) hg hq hx
  have hgrown : rows (srv.after s pre) =
      (u.registry.versions.take (k + before.length)).map (·.text) := by
    rw [hrows, hk, Registry.versions_take hdrop, List.map_append, List.map_map]
    rfl
  refine ⟨⟨_, hgrown⟩, fun v a tail hpost => ?_⟩
  obtain ⟨t, rest', a', rfl, hrecord⟩ := hnext _ tail hpost rfl
  cases hrecord
  rw [hgrown]
  intro hin
  obtain ⟨w, hw, he⟩ := List.mem_map.mp hin
  exact Registry.version_not_mem_take hdrop (Version.text_injective he ▸ hw)

variable {closed : Bool} {shown : Option Progress} {xs : List Exchange}
  {r : Except MigrationError RunReport} {p : Progress} {k : Nat}

/-- **One run keeps the history a prefix**, wherever it is cut off.  A record that is sent is that
of a version that is not among the rows yet. -/
theorem Course.keepsInitial (h : u.Course closed shown xs r p)
    (hdb : srv.KeepsHistory u.settings.historyTable rows)
    (hbodies : u.registry.SparesHistory u.settings.historyTable)
    (hg : srv.Gives s xs) (hq : srv.Undisturbed u.settings.historyTable rows s xs)
    (hk : rows s = (u.registry.versions.take k).map (·.text)) :
    srv.KeepsInitial u.settings.historyTable rows u.registry.versions s xs := by
  have hquiet : ∀ {d : Dialect} {boot : List Exchange} {q : Except MigrationError VersionSet},
      (u.opening d).Path boot q → ∀ x ∈ .acquire (.ok ()) :: boot,
        ¬ x.IsRecord u.settings.historyTable := fun hopen =>
    List.forall_mem_cons.mpr ⟨id, (u.opening_spares _ _).of_path hopen⟩
  cases h with
  | unsupported hd | closed hd hc => exact hq.keepsInitial (by simp) hk
  | unreached e hd hc => exact hq.keepsInitial (by simp [Exchange.IsRecord]) hk
  | unopened hd hc hopen | unplanned hd hc hopen hp => exact hq.keepsInitial (hquiet hopen) hk
  | @planned d boot completed pending ys r p hd hc hopen hp hsteps =>
    rw [← List.cons_append, Server.gives_append] at hg
    rw [← List.cons_append, Server.undisturbed_append] at hq
    rw [← List.cons_append]
    -- the opening leaves the rows alone, so the steps start from the same prefix
    have hplan := opening_of_rows hopen hdb hk hg.1 hq.1
    rw [hplan] at hp
    cases hp
    have hsame := hq.1.rows_eq (hquiet hopen)
    exact (hq.1.keepsInitial (hquiet hopen) hk).append
      (hsteps.keepsInitial hdb hbodies hg.2 hq.2 (hsame.trans hk))

/-- **From a prefix, no run blames the history.** -/
theorem Course.blameless (h : u.Course closed shown xs r p)
    (hdb : srv.KeepsHistory u.settings.historyTable rows)
    (hg : srv.Gives s xs) (hq : srv.Undisturbed u.settings.historyTable rows s xs)
    (hk : rows s = (u.registry.versions.take k).map (·.text)) {e : MigrationError}
    (he : r = .error e) : ¬ e.BlamesHistory := by
  cases h with
  | unsupported hd =>
    cases he
    exact not_blamesHistory_of_dialect hd
  | closed | unreached =>
    cases he
    exact id
  | unopened hd hc hopen =>
    cases he
    exact opening_of_rows hopen hdb hk hg hq
  | unplanned hd hc hopen hp =>
    have hplan := opening_of_rows hopen hdb hk hg hq
    rw [hplan] at hp
    cases hp
  | planned hd hc hopen hp hsteps =>
    rcases hsteps.log with ⟨-, rfl, -⟩ | ⟨before, t, rest, zs, us, e', -, -, -, -, rfl, -⟩
    · cases he
    · cases he
      exact id

/-- From a prefix, a look at the history does not blame it either. -/
theorem StatusCourse.blameless {r : Except MigrationError StatusReport}
    (h : u.StatusCourse closed xs r)
    (hdb : srv.KeepsHistory u.settings.historyTable rows) (hg : srv.Gives s xs)
    (hq : srv.Undisturbed u.settings.historyTable rows s xs)
    (hk : rows s = (u.registry.versions.take k).map (·.text)) :
    ∀ e, r = .error e → ¬ e.BlamesHistory := by
  have hread : ∀ {read : List Exchange} {q : Except MigrationError VersionSet},
      (History.completed u.settings.historyTable).Path read q →
      srv.Gives s (.acquire (.ok ()) :: read) →
      srv.Undisturbed u.settings.historyTable rows s (.acquire (.ok ()) :: read) →
      (∃ e, q = .error (.driver e)) ∨
        ∃ completed, q = .ok completed ∧ ∀ v, v ∈ completed ↔ History.Names (rows s) v := by
    intro read q hpath hg hq
    have hrows : History.Readable (rows s) := hk ▸ History.readable_texts _
    rw [← hq.1 id] at hrows ⊢
    exact (History.completed_reading.mp hpath).completed hdb hrows hg.2 hq.2
  cases h with
  | unsupported hd =>
    rintro e ⟨⟩
    exact not_blamesHistory_of_dialect hd
  | closed | unreached =>
    rintro e ⟨⟩
    exact id
  | unread hd hc hpath =>
    rcases hread hpath hg hq with ⟨e', he⟩ | ⟨c, he, -⟩
    · rintro e ⟨⟩
      cases he
      exact id
    · cases he
  | read hd hc hpath =>
    rcases hread hpath hg hq with ⟨e', he⟩ | ⟨c, he, hmem⟩
    · cases he
    · cases he
      rw [plan_of_rows hk hmem]
      rintro e ⟨⟩

end Upgrade

section Lifetime

variable {σ : Type} (srv : Server σ) (table : String) (rows : σ → List String)

/-- The upgrade `u`, in the world `w`, goes on with a database in state `s` that has come to the
registry `r`: it uses the same history table, only appends to the registry, and has no step that
records versions itself. -/
structure Continues (r : Registry) (s : σ) (u : Upgrade) (w : World σ) : Prop where
  server : w.server = s
  sameTable : u.settings.historyTable = table
  appended : r.versions <+: u.registry.versions
  bodies : u.registry.SparesHistory table

/-- The lifetime of a database: the registry of the latest build that ran on it, and its state.  It
begins without a history.  Runs are cut off behind any number of requests, and in between anything
may happen that leaves the rows of the history alone. -/
inductive Lifetime : Registry → σ → Prop
  | start (r) {s} (h : rows s = []) : Lifetime r s
  | idle {r s s'} (h : Lifetime r s) (same : rows s' = rows s) : Lifetime r s'
  | run {r s u w} (h : Lifetime r s) (next : Continues table r s u w)
    (calm : srv.Undisturbed table rows s (srv.exchanges w (World.leftBy (u.run srv w)))) (n : Nat) :
    Lifetime u.registry (srv.after s ((srv.exchanges w (World.leftBy (u.run srv w))).take n))

variable {srv table rows} {r : Registry} {s : σ} {u : Upgrade} {w : World σ}

/-- A prefix of a registry is one of each registry that appends to it. -/
theorem Continues.rows_eq (h : Continues table r s u w) {k : Nat}
    (hk : rows s = (r.versions.take k).map (·.text)) :
    ∃ j, rows s = (u.registry.versions.take j).map (·.text) := by
  obtain ⟨new, hnew⟩ := h.appended
  refine ⟨min k r.versions.length, ?_⟩
  rw [hk, ← hnew, List.take_append_of_le_length (Nat.min_le_right ..), ← List.take_eq_take_min]

/-- **In every lifetime the rows are a prefix of the registry.** -/
theorem Lifetime.rows_eq (hdb : srv.KeepsHistory table rows) (h : Lifetime srv table rows r s) :
    ∃ k, rows s = (r.versions.take k).map (·.text) := by
  induction h with
  | start r h => exact ⟨0, by rw [h]; rfl⟩
  | idle _ same ih => rwa [same]
  | @run r s u w _ next calm n ih =>
    obtain ⟨k, hk⟩ := ih
    obtain ⟨j, hj⟩ := next.rows_eq hk
    obtain ⟨rfl, rfl, -, hbodies⟩ := next
    obtain ⟨xs, q, w', p, hrun, hcourse, -⟩ := u.run_performs srv w
    rw [hrun.eq, World.leftBy_ended, hrun.leads.exchanges] at calm ⊢
    have hkeeps := hcourse.keepsInitial hdb hbodies hrun.leads.gives calm hj
    exact (hkeeps (xs.take n) (xs.drop n) (List.take_append_drop n xs).symm).1

/-- **The history of a database is a prefix of the registry**, over its whole lifetime and without
duplicates.  In the next run no record is sent for a version that is stored, and neither a run nor a
look at the history finds fault with it. -/
theorem history_initial (hdb : srv.KeepsHistory table rows) (h : Lifetime srv table rows r s) :
    (∃ k, rows s = (r.versions.take k).map (·.text)) ∧ (rows s).Nodup ∧
    ∀ u w, Continues table r s u w →
      (srv.Undisturbed table rows s (srv.exchanges w (World.leftBy (u.run srv w))) →
        (∀ pre v a post, srv.exchanges w (World.leftBy (u.run srv w)) =
            pre ++ .execute (.recordVersion table v) a :: post →
          v.text ∉ rows (srv.after s pre)) ∧
        ∀ e, World.outcome (u.run srv w) = .error e → ¬ e.BlamesHistory) ∧
      (srv.Undisturbed table rows s (srv.exchanges w (World.leftBy (u.status srv w))) →
        ∀ e, World.outcome (u.status srv w) = .error e → ¬ e.BlamesHistory) := by
  obtain ⟨k, hk⟩ := h.rows_eq hdb
  refine ⟨⟨k, hk⟩, ?_, ?_⟩
  · have hnodup := nodup_of_ascending r.versions_ascending
    rw [hk]
    exact (hnodup.sublist (List.take_sublist k _)).map fun _ _ => Version.text_injective
  · intro u w next
    obtain ⟨j, hj⟩ := next.rows_eq hk
    obtain ⟨rfl, rfl, -, hbodies⟩ := next
    constructor
    · intro calm
      obtain ⟨xs, q, w', p, hrun, hcourse, -⟩ := u.run_performs srv w
      rw [hrun.eq, World.leftBy_ended, hrun.leads.exchanges] at calm ⊢
      rw [World.outcome_ended]
      constructor
      · intro pre v a post hx
        have hkeeps := hcourse.keepsInitial hdb hbodies hrun.leads.gives calm hj
        exact (hkeeps pre _ hx).2 v a post rfl
      · intro e he
        exact hcourse.blameless hdb hrun.leads.gives calm hj he
    · intro calm
      obtain ⟨xs, q, w', hstatus, hcourse, -⟩ := u.status_performs srv w
      rw [hstatus.eq, World.leftBy_ended, hstatus.leads.exchanges] at calm
      rw [hstatus.eq, World.outcome_ended]
      exact hcourse.blameless hdb hstatus.leads.gives calm hj

end Lifetime

namespace Catalog

variable {d : Dialect} {table : String} {u : Upgrade} {r : Registry} {c : Catalog}

/-- An upgrade goes on with a catalog if its registry appends to the one before and no step drops
the history table or records in it. -/
theorem continues (happended : r.versions <+: u.registry.versions)
    (htable : u.settings.historyTable = table) (hbodies : u.registry.Sends (Spares table)) :
    Continues table r c u { server := c } :=
  ⟨rfl, htable, happended, sparesHistory hbodies⟩

/-- Such an upgrade leaves the history undisturbed, records aside. -/
theorem run_undisturbed (hc : c.Tidy) (htable : u.settings.historyTable = table)
    (hbodies : u.registry.Sends (Spares table)) :
    (server d).Undisturbed table (historyRows table) c
      ((server d).exchanges { server := c } (World.leftBy (u.run (server d) { server := c }))) := by
  subst htable
  exact (run_sparesOrRecords hbodies).undisturbed hc

/-- Cut off behind any number of requests, it goes on with a lifetime. -/
theorem lifetime_run (h : Lifetime (server d) table (historyRows table) r c) (hc : c.Tidy)
    (happended : r.versions <+: u.registry.versions) (htable : u.settings.historyTable = table)
    (hbodies : u.registry.Sends (Spares table)) (n : Nat) :
    Lifetime (server d) table (historyRows table) u.registry ((server d).after c
      (((server d).exchanges { server := c }
        (World.leftBy (u.run (server d) { server := c }))).take n)) :=
  .run h (continues happended htable hbodies) (run_undisturbed hc htable hbodies) n

/-- A look at the history leaves it undisturbed. -/
theorem status_undisturbed (table : String) (hc : c.Tidy) :
    (server d).Undisturbed table (historyRows table) c ((server d).exchanges { server := c }
      (World.leftBy (u.status (server d) { server := c }))) := by
  obtain ⟨xs, q, w', hstatus, hcourse, -⟩ := u.status_performs (server d) { server := c }
  rw [hstatus.eq, World.leftBy_ended, hstatus.leads.exchanges]
  have hspares : SparesOrRecords table xs := fun st a hx => (hcourse.sends_nothing st a hx).elim
  exact hspares.undisturbed hc

end Catalog

namespace Shipped

/-- The build that knows the first of the shipped steps, up to a number of them. -/
def build (n : Nat) : Upgrade :=
  { upgrade with registry := ⟨(steps.take n).toArray,
      by simpa using upgrade.registry.ascending.sublist (List.take_sublist n steps)⟩ }

theorem build_spares (n : Nat) (table : String) :
    (build n).registry.Sends (Catalog.Spares table) := fun t ht =>
  bodies_spare table t (List.mem_of_mem_take (show t ∈ steps.take n by simpa [build] using ht))

/-- A database on which the first shipped step is completed. -/
def oneCompleted : Catalog :=
  { twoCompleted with indexes := [], recorded := [("schema_migrations", ⟨1, one_inRange⟩)] }

/-- A database on which the second shipped step is applied as well, but not recorded. -/
def secondUnrecorded : Catalog :=
  { twoCompleted with recorded := [("schema_migrations", ⟨1, one_inRange⟩)] }

/-- What a build exchanges with an SQLite database of this content. -/
def log (u : Upgrade) (c : Catalog) : List Exchange :=
  (Catalog.server .sqlite).exchanges { server := c }
    (World.leftBy (u.run (Catalog.server .sqlite) { server := c }))

theorem after_log_one : (Catalog.server .sqlite).after {} ((log (build 1) {}).take 10) =
    oneCompleted := by
  decide +kernel

theorem after_log_two : (Catalog.server .sqlite).after oneCompleted
    ((log (build 2) oneCompleted).take 10) = secondUnrecorded := by
  decide +kernel

/-- Two builds on an empty SQLite database.  The first knows one step and is cut off behind its
record, the second knows one more and is cut off between that step and its record.  The next run
records what is missing, and neither it nor a look at the history finds fault with the rows. -/
theorem builds_history_initial :
    let srv := Catalog.server .sqlite
    let rows := Catalog.historyRows "schema_migrations"
    (srv.after {} ((log (build 1) {}).take 10) = oneCompleted ∧
      srv.after oneCompleted ((log (build 2) oneCompleted).take 10) = secondUnrecorded ∧
      rows oneCompleted = ["1"] ∧ rows secondUnrecorded = ["1"] ∧
      World.outcome ((build 2).run srv { server := secondUnrecorded }) =
        .ok ⟨.sqlite, (build 2).registry.versions.drop 1, 1⟩) ∧
    (∃ k, rows secondUnrecorded = ((build 2).registry.versions.take k).map (·.text)) ∧
      (rows secondUnrecorded).Nodup ∧
      (∀ pre v a post, log (build 2) secondUnrecorded =
          pre ++ .execute (.recordVersion "schema_migrations" v) a :: post →
        v.text ∉ rows (srv.after secondUnrecorded pre)) ∧
      (∀ e, World.outcome ((build 2).run srv { server := secondUnrecorded }) = .error e →
        ¬ e.BlamesHistory) ∧
      ∀ e, World.outcome ((build 2).status srv { server := secondUnrecorded }) = .error e →
        ¬ e.BlamesHistory := by
  intro srv rows
  have hempty : Catalog.Tidy {} := fun _ h => (List.not_mem_nil h).elim
  have hnone : Catalog.historyRows "schema_migrations" {} = [] := rfl
  have hone : oneCompleted.Tidy := after_log_one ▸ hempty.after
  have hunrecorded : secondUnrecorded.Tidy := after_log_two ▸ hone.after
  have happended : (build 1).registry.versions <+: (build 2).registry.versions :=
    List.take_prefix 1 (build 2).registry.versions
  have hlife₁ : Lifetime srv "schema_migrations" rows (build 1).registry oneCompleted := by
    rw [← after_log_one]
    exact Catalog.lifetime_run (.start (build 1).registry hnone) hempty List.prefix_rfl rfl
      (build_spares 1 _) 10
  have hlife₂ : Lifetime srv "schema_migrations" rows (build 2).registry secondUnrecorded := by
    rw [← after_log_two]
    exact Catalog.lifetime_run hlife₁ hone happended rfl (build_spares 2 _) 10
  obtain ⟨hinitial, hnodup, hlater⟩ := history_initial
    (Catalog.keepsHistory .sqlite "schema_migrations") hlife₂
  obtain ⟨hrun, hstatus⟩ := hlater (build 2) { server := secondUnrecorded }
    (Catalog.continues List.prefix_rfl rfl (build_spares 2 _))
  have hcalm := Catalog.run_undisturbed (d := .sqlite) (u := build 2) hunrecorded rfl
    (build_spares 2 _)
  have hlook := Catalog.status_undisturbed (d := .sqlite) (u := build 2) "schema_migrations"
    hunrecorded
  obtain ⟨hnew, hblameless⟩ := hrun hcalm
  exact ⟨⟨after_log_one, after_log_two, by decide +kernel, by decide +kernel, by decide +kernel⟩,
    hinitial, hnodup, hnew, hblameless, hstatus hlook⟩

end Shipped
end SchemaMigration
