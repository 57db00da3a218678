import SchemaMigration.Catalog
import SchemaMigration.Proofs.HistoryRows

/-!
# The history in a catalog

The model of a database keeps the history table exactly (`Catalog.keepsExactly`).  Only two
statements touch its rows: the record of a version, and dropping the table itself
(`Catalog.carryOut_rows`); and only dropping it makes it vanish (`Catalog.carryOut_hasTable`).
-/
namespace SchemaMigration
namespace Catalog

theorem sameName_iff {a b : String} :
    sameName a b = true ↔ a.map Char.toLower = b.map Char.toLower := by
  simp [sameName]

theorem sameName_refl (a : String) : sameName a a = true :=
  sameName_iff.mpr rfl

theorem sameName_trans {a b c : String} (h : sameName a b = true) (h' : sameName b c = true) :
    sameName a c = true :=
  sameName_iff.mpr ((sameName_iff.mp h).trans (sameName_iff.mp h'))

theorem sameName_symm {a b : String} (h : sameName a b = true) : sameName b a = true :=
  sameName_iff.mpr (sameName_iff.mp h).symm

/-- The texts of the versions that a history table records, in the order of recording. -/
def historyRows (table : String) (c : Catalog) : List String :=
  if c.hasTable table then
    (c.recorded.filter fun r => sameName r.1 table).map fun r => r.2.text
  else []

/-- Every record belongs to a table. -/
def Tidy (c : Catalog) : Prop :=
  ∀ r ∈ c.recorded, c.hasTable r.1 = true

/-- The statement neither drops the table nor records a version in it. -/
def Spares (table : String) : Statement → Prop
  | .dropTable name => sameName table name = false
  | .recordVersion history _ => sameName history table = false
  | _ => True

variable {d : Dialect} {c c' : Catalog} {table : String}

/-- Which tables there are depends on their names only. -/
theorem hasTable_setColumns (c : Catalog) (changed : String) (columns : List Column)
    (name : String) : (c.setColumns changed columns).hasTable name = c.hasTable name := by
  have hname : ∀ t : StoredTable,
      (if sameName t.name changed then { t with columns := columns } else t).name = t.name := by
    intro t
    split <;> rfl
  simp only [hasTable, setColumns, List.any_map]
  refine congrArg (fun p => c.tables.any p) (funext fun t => ?_)
  simp only [Function.comp, hname]

theorem hasTable_congr {a b : String} (h : sameName a b = true) : c.hasTable a = c.hasTable b := by
  simp only [hasTable, sameName, sameName_iff.mp h]

/-- The two catalogs have tables of the same names, and the same records. -/
def SameHistory (c c' : Catalog) : Prop :=
  (∀ name, c'.hasTable name = c.hasTable name) ∧ c'.recorded = c.recorded

theorem sameHistory_setColumns (changed : String) (columns : List Column) :
    SameHistory c (c.setColumns changed columns) :=
  ⟨c.hasTable_setColumns changed columns, rfl⟩

/-- Statements other than these three leave records and the names of tables alone. -/
theorem carryOut_sameHistory {st : Statement} (h : c.carryOut d st = .ok c')
    (hcreate : ∀ name columns key, st ≠ .createTable name columns key)
    (hdrop : ∀ name, st ≠ .dropTable name) (hrecord : ∀ t v, st ≠ .recordVersion t v) :
    SameHistory c c' := by
  -- columns that are added or dropped replace those of one table, and its name stays
  have hcolumns : ∀ {base : Catalog} {name : String} {r : Except Fault (List Column)},
      r.map (base.setColumns name) = .ok c' → base.tables = c.tables →
      base.recorded = c.recorded → SameHistory c c' := by
    intro base name r hr htables hrecorded
    cases r with
    | error f => cases hr
    | ok columns =>
      cases hr
      obtain ⟨hnames, hsame⟩ := sameHistory_setColumns name columns (c := base)
      refine ⟨fun n => (hnames n).trans ?_, hsame.trans hrecorded⟩
      rw [hasTable, hasTable, htables]
  cases st with
  | createTable name columns key => exact (hcreate name columns key rfl).elim
  | dropTable name => exact (hdrop name rfl).elim
  | recordVersion t v => exact (hrecord t v rfl).elim
  | createIndex i =>
    simp only [carryOut] at h
    split at h
    · cases h
    · split at h
      · cases h
      · split at h
        · cases h
        · split at h
          · cases h
          · cases h
            exact ⟨fun _ => rfl, rfl⟩
  | dropIndex t name | dropConstraint t name kind =>
    simp only [carryOut] at h
    split at h
    · cases h
    · cases h
      exact ⟨fun _ => rfl, rfl⟩
  | addColumns name columns =>
    simp only [carryOut] at h
    split at h
    · cases h
    · exact hcolumns h rfl rfl
  | dropColumns name columns =>
    simp only [carryOut] at h
    split at h
    · cases h
    · split at h
      · cases h
      · exact hcolumns h rfl rfl
  | alterColumn name column =>
    simp only [carryOut] at h
    split at h
    · cases h
    · split at h
      · cases h
        exact sameHistory_setColumns name _
      · cases h
  | addConstraint k =>
    simp only [carryOut] at h
    split at h
    · cases h
    · split at h
      · cases h
      · split at h
        · cases h
        · cases h
          exact ⟨fun _ => rfl, rfl⟩
  | verbatim text => cases h

theorem SameHistory.tidy (h : SameHistory c c') (hc : c.Tidy) : c'.Tidy := by
  intro r hr
  rw [h.1]
  exact hc r (h.2 ▸ hr)

theorem SameHistory.rows (h : SameHistory c c') : c'.historyRows table = c.historyRows table := by
  rw [historyRows, historyRows, h.1, h.2]

/-- A new table is added to the others. -/
theorem createTable_hasTable {name : String} {columns : List Column} {key : Option PrimaryKey}
    (h : c.carryOut d (.createTable name columns key) = .ok c') :
    c'.recorded = c.recorded ∧ ∀ n, c'.hasTable n = (c.hasTable n || sameName name n) := by
  simp only [carryOut] at h
  split at h
  · cases h
  split at h
  · cases h
  split at h
  · cases h
  cases h
  exact ⟨rfl, fun n => by simp [hasTable]⟩

/-- A new table has no rows. -/
theorem createTable_rows {name : String} {columns : List Column} {key : Option PrimaryKey}
    (h : c.carryOut d (.createTable name columns key) = .ok c') (hc : c.Tidy) :
    c'.historyRows table = c.historyRows table := by
  obtain ⟨hrecorded, hgrown⟩ := createTable_hasTable h
  rw [historyRows, historyRows, hgrown, hrecorded]
  by_cases hhas : c.hasTable table = true
  · simp [hhas]
  · by_cases hsame : sameName name table = true
    · have hnone : c.recorded.filter (fun r => sameName r.1 table) = [] := by
        refine List.filter_eq_nil_iff.mpr fun r hr hrec => hhas ?_
        rw [← hasTable_congr hrec]
        exact hc r hr
      simp [hhas, hnone]
    · simp [hhas, hsame]

/-- Of two like names, another one is like both or none. -/
theorem sameName_false {a b n : String} (h : sameName a n = true) (hb : sameName n b = false) :
    sameName a b = false := by
  rw [← Bool.not_eq_true] at hb ⊢
  exact fun ha => hb (sameName_trans (sameName_symm h) ha)

/-- Dropping a table leaves the others where they are, with their records. -/
theorem dropTable_hasTable {name : String} (h : c.carryOut d (.dropTable name) = .ok c') :
    c'.recorded = c.recorded.filter (fun r => !sameName r.1 name) ∧
      ∀ n, sameName n name = false → c'.hasTable n = c.hasTable n := by
  simp only [carryOut] at h
  split at h
  case isFalse => cases h
  cases h
  refine ⟨rfl, fun n hn => ?_⟩
  rw [hasTable, hasTable, List.any_filter]
  refine congrArg (fun p => c.tables.any p) (funext fun t => ?_)
  by_cases ht : sameName t.name n = true
  · simp [ht, sameName_false ht hn]
  · simp [ht]

/-- Dropping a table leaves the rows of others alone. -/
theorem dropTable_rows {name : String} (h : c.carryOut d (.dropTable name) = .ok c')
    (hname : sameName table name = false) : c'.historyRows table = c.historyRows table := by
  obtain ⟨hrecorded, hothers⟩ := dropTable_hasTable h
  have hrows : (c.recorded.filter fun r => !sameName r.1 name).filter
      (fun r => sameName r.1 table) = c.recorded.filter fun r => sameName r.1 table := by
    rw [List.filter_filter]
    refine List.filter_congr fun r _ => ?_
    by_cases hr : sameName r.1 table = true
    · simp [hr, sameName_false hr hname]
    · simp [hr]
  rw [historyRows, historyRows, hrecorded, hrows, hothers table hname]

/-- A record needs its table. -/
theorem recordVersion_recorded {history : String} {v : Version}
    (h : c.carryOut d (.recordVersion history v) = .ok c') : c.hasTable history = true ∧
      c' = { c with recorded := c.recorded ++ [(history, v)] } := by
  simp only [carryOut] at h
  split at h
  · cases h
  split at h
  · cases h
  next hhas _ =>
  cases h
  exact ⟨by simpa using hhas, rfl⟩

/-- A record adds a row to its table. -/
theorem recordVersion_rows {history : String} {v : Version}
    (h : c.carryOut d (.recordVersion history v) = .ok c') : c'.historyRows table =
      c.historyRows table ++ if sameName history table then [v.text] else [] := by
  obtain ⟨hhas, rfl⟩ := recordVersion_recorded h
  have htable : hasTable { c with recorded := c.recorded ++ [(history, v)] } table =
      c.hasTable table := rfl
  rw [historyRows, historyRows, htable, List.filter_append, List.map_append]
  by_cases hsame : sameName history table = true
  · simp [hsame, hasTable_congr hsame ▸ hhas]
  · simp [hsame]

/-- **Every record keeps its table**, whatever is carried out. -/
theorem carryOut_tidy {st : Statement} (h : c.carryOut d st = .ok c') (hc : c.Tidy) :
    c'.Tidy := by
  cases st with
  | createTable name columns key =>
    obtain ⟨hrecorded, hgrown⟩ := createTable_hasTable h
    intro r hr
    rw [hgrown, hc r (hrecorded ▸ hr), Bool.true_or]
  | dropTable name =>
    obtain ⟨hrecorded, hothers⟩ := dropTable_hasTable h
    intro r hr
    rw [hrecorded] at hr
    obtain ⟨hmem, hkept⟩ := List.mem_filter.mp hr
    exact (hothers r.1 (by simpa using hkept)).trans (hc r hmem)
  | recordVersion history v =>
    obtain ⟨hhas, rfl⟩ := recordVersion_recorded h
    intro r hr
    rcases List.mem_append.mp hr with hr | hr
    · exact hc r hr
    · rw [List.mem_singleton.mp hr]
      exact hhas
  | _ => exact (carryOut_sameHistory h (by simp) (by simp) (by simp)).tidy hc

/-- **Records and dropping aside, no statement touches the rows.** -/
theorem carryOut_rows {st : Statement} (h : c.carryOut d st = .ok c') (hc : c.Tidy)
    (hst : Spares table st) : c'.historyRows table = c.historyRows table := by
  cases st with
  | createTable name columns key => exact createTable_rows h hc
  | dropTable name => exact dropTable_rows h hst
  | recordVersion history v =>
    rw [recordVersion_rows h, show sameName history table = false from hst]
    simp
  | _ => exact (carryOut_sameHistory h (by simp) (by simp) (by simp)).rows

/-- **A table is lost only when it is dropped.** -/
theorem carryOut_hasTable {st : Statement} (h : c.carryOut d st = .ok c')
    (hst : ∀ name, st = .dropTable name → sameName table name = false)
    (hc : c.hasTable table = true) : c'.hasTable table = true := by
  cases st with
  | createTable name columns key =>
    rw [(createTable_hasTable h).2, hc, Bool.true_or]
  | dropTable name =>
    rw [(dropTable_hasTable h).2 table (hst name rfl)]
    exact hc
  | recordVersion history v =>
    obtain ⟨-, rfl⟩ := recordVersion_recorded h
    exact hc
  | _ =>
    have hsame := carryOut_sameHistory h (by simp) (by simp) (by simp)
    exact (hsame.1 table).trans hc

theorem hasTable_iff {name : String} :
    c.hasTable name = true ↔ 0 < c.countObject (.table name) := by
  simp only [hasTable, countObject, number, List.any_eq_true, Int.natCast_pos, List.countP_pos_iff]

/-- A statement is carried out, or refused without an effect. -/
theorem execute_cases (d : Dialect) (st : Statement) (c : Catalog) :
    (∃ c', c.carryOut d st = .ok c' ∧ (server d).execute st c = (.ok (), c')) ∨
      ∃ f, (server d).execute st c = (.error (refusal f), c) := by
  cases h : c.carryOut d st with
  | ok c' => exact Or.inl ⟨c', rfl, by simp only [server, h]⟩
  | error f => exact Or.inr ⟨f, by simp only [server, h]⟩

/-- **The model of a database keeps the history table.** -/
theorem keepsHistory (d : Dialect) (table : String) :
    (server d).KeepsHistory table (historyRows table) where
  recorded v c hok := by
    rcases execute_cases d (.recordVersion table v) c with ⟨c', hc', he⟩ | ⟨f, he⟩
    · rw [he, recordVersion_rows hc', sameName_refl]
      rfl
    · rw [he] at hok
      cases hok
  refused v c e herr := by
    rcases execute_cases d (.recordVersion table v) c with ⟨c', -, he⟩ | ⟨f, he⟩
    · rw [he] at herr
      cases herr
    · exact Or.inl (by rw [he])
  absent c n hcount hn := by
    have hnumber : c.countObject (.table table) = n := Except.ok.inj hcount
    have hnone : ¬ c.hasTable table = true := by
      rw [hasTable_iff, hnumber]
      exact Int.not_lt.mpr hn
    exact if_neg hnone
  stored c l hlist := by
    change ((if c.hasTable table then _ else _ : Except Fault (List String)).mapError refusal) = _
      at hlist
    rw [historyRows]
    split at hlist
    · next hhas =>
      rw [if_pos hhas]
      exact Except.ok.inj hlist ▸ List.Perm.refl _
    · cases hlist

/-- **The model of a database keeps the history exactly.** -/
theorem keepsExactly (d : Dialect) (table : String) :
    (server d).KeepsExactly table (historyRows table) (fun c => c.hasTable table = true) where
  toKeepsHistory := keepsHistory d table
  unstored v c e herr := by
    rcases execute_cases d (.recordVersion table v) c with ⟨c', -, he⟩ | ⟨f, he⟩
    · rw [he] at herr
      cases herr
    · rw [he]
  found c n hcount := by
    have hnumber : c.countObject (.table table) = n := Except.ok.inj hcount
    rw [hasTable_iff, hnumber]
  created d' st c hst hok := by
    cases List.mem_singleton.mp hst
    rcases execute_cases d (.createTable ..) c with ⟨c', hc', he⟩ | ⟨f, he⟩
    · rw [he]
      show c'.hasTable table = true
      rw [(createTable_hasTable hc').2]
      exact Bool.or_eq_true_iff.mpr (Or.inr (sameName_refl table))
    · rw [he] at hok
      cases hok

/-- Exchanges without a statement that drops the history table or records in it other than the
engine does. -/
def SparesOrRecords (table : String) (xs : List Exchange) : Prop :=
  ∀ st a, .execute st a ∈ xs → Spares table st ∨ ∃ v, st = .recordVersion table v

/-- Whatever is exchanged, every record still belongs to a table. -/
theorem Tidy.next (hc : c.Tidy) (x : Exchange) : ((server d).next c x).Tidy := by
  cases x with
  | execute st a =>
    show ((server d).execute st c).2.Tidy
    rcases execute_cases d st c with ⟨c', hc', he⟩ | ⟨f, he⟩
    · rw [he]
      exact carryOut_tidy hc' hc
    · rw [he]
      exact hc
  | _ => exact hc

theorem Tidy.after {xs : List Exchange} (hc : c.Tidy) : ((server d).after c xs).Tidy := by
  induction xs generalizing c with
  | nil => exact hc
  | cons x xs ih => exact ih (hc.next x)

/-- **Only records change the rows** along such exchanges. -/
theorem SparesOrRecords.undisturbed {xs : List Exchange} (hx : SparesOrRecords table xs)
    (hc : c.Tidy) : (server d).Undisturbed table (historyRows table) c xs := by
  induction xs generalizing c with
  | nil => trivial
  | cons x xs ih =>
    have hrest : SparesOrRecords table xs := fun st a hm => hx st a (List.mem_cons_of_mem x hm)
    refine ⟨fun hrec => ?_, ih hrest (hc.next x)⟩
    cases x with
    | execute st a =>
      show historyRows table ((server d).execute st c).2 = historyRows table c
      rcases execute_cases d st c with ⟨c', hc', he⟩ | ⟨f, he⟩
      · rw [he]
        refine carryOut_rows hc' hc ?_
        rcases hx st a List.mem_cons_self with hspares | ⟨v, rfl⟩
        · exact hspares
        · exact (hrec rfl).elim
      · rw [he]
    | _ => rfl

/-- **The history table does not vanish** along such exchanges. -/
theorem SparesOrRecords.lasts {xs : List Exchange} (hx : SparesOrRecords table xs) :
    (server d).Lasts (fun c => c.hasTable table = true) c xs := by
  induction xs generalizing c with
  | nil => trivial
  | cons x xs ih =>
    have hrest : SparesOrRecords table xs := fun st a hm => hx st a (List.mem_cons_of_mem x hm)
    refine ⟨fun hc => ?_, ih hrest⟩
    cases x with
    | execute st a =>
      show ((server d).execute st c).2.hasTable table = true
      rcases execute_cases d st c with ⟨c', hc', he⟩ | ⟨f, he⟩
      · rw [he]
        refine carryOut_hasTable hc' ?_ hc
        rintro name rfl
        rcases hx _ a List.mem_cons_self with hspares | ⟨v, hv⟩
        · exact hspares
        · cases hv
      · rw [he]
        exact hc
    | _ => exact hc

/-- A change that does not drop a table spares the history. -/
theorem spares_of_mayAsk {change : Change} (hdrop : ∀ t, change ≠ .dropTable t) {st : Statement}
    (h : change.MayAsk d (.execute st)) : Spares table st := by
  obtain ⟨part, hpart, hst⟩ := h
  cases part with
  | dropTable t =>
    cases change <;> cases hpart
    exact (hdrop t rfl).elim
  | addColumns t columns | dropColumns t columns =>
    simp only [Change.statements] at hst
    split at hst
    · cases List.mem_singleton.mp hst
      trivial
    · obtain ⟨k, -, rfl⟩ := List.mem_map.mp hst
      trivial
  | _ =>
    cases List.mem_singleton.mp hst
    trivial

theorem sparesHistory {r : Registry} (h : r.Sends (Spares table)) : r.SparesHistory table := by
  intro t ht d
  refine (h t ht d).mono ?_ fun _ h => h
  rintro e he st rfl v rfl
  have hspares : sameName _ _ = false := he _ rfl
  rw [sameName_refl] at hspares
  cases hspares

theorem run_tidy {u : Upgrade} {w : World Catalog} (hw : w.server.Tidy) :
    (World.leftBy (u.run (server d) w)).server.Tidy := by
  obtain ⟨xs, r, w', p, hrun, -, -⟩ := u.run_performs (server d) w
  rw [hrun.eq, World.leftBy_ended, hrun.leads.server]
  exact hw.after

/-- A run sends no statement that disturbs the history, if no step does so. -/
theorem run_sparesOrRecords {u : Upgrade} {w : World Catalog}
    (hbodies : u.registry.Sends (Spares u.settings.historyTable)) :
    SparesOrRecords u.settings.historyTable
      ((server d).exchanges w (World.leftBy (u.run (server d) w))) := by
  obtain ⟨xs, r, w', p, hrun, hcourse, -⟩ := u.run_performs (server d) w
  rw [hrun.eq, World.leftBy_ended, hrun.leads.exchanges]
  intro st a hx
  rcases hcourse.sends hbodies hx with ⟨d', hcreate⟩ | hspares | ⟨v, rfl⟩
  · cases List.mem_singleton.mp hcreate
    exact Or.inl trivial
  · exact Or.inl hspares
  · exact Or.inr ⟨v, rfl⟩

end Catalog

namespace Shipped

/-- The shipped steps, to be applied by the name that the driver of SQLite goes by. -/
def upgrade : Upgrade where
  driverName := "SQLite"
  registry := ⟨steps.toArray, by simp [steps, step, Version.lt_def]⟩

/-- No shipped step drops a history table or records in it. -/
theorem bodies_spare (table : String) : upgrade.registry.Sends (Catalog.Spares table) := by
  have hspares : ∀ n description change h, (∀ t, change ≠ .dropTable t) → ∀ d,
      ((step n description change h).body d).Sends (Catalog.Spares table) := by
    intro n description change h hdrop d
    refine (step_orderly n description change h d).within.mono ?_ fun _ _ => trivial
    rintro e he st rfl
    exact Catalog.spares_of_mayAsk hdrop he
  intro t ht
  simp only [upgrade, steps, List.mem_cons, List.not_mem_nil, or_false] at ht
  rcases ht with rfl | rfl | rfl | rfl | rfl <;> exact hspares _ _ _ _ (by simp)

theorem one_inRange : 1 < 0x10000000000000000 := by decide

theorem two_inRange : 2 < 0x10000000000000000 := by decide

/-- A database on which the first two of the shipped steps are completed. -/
def twoCompleted : Catalog where
  tables := [⟨"schema_migrations", (History.table "schema_migrations").columns⟩,
    ⟨usersTable, users.columns⟩]
  indexes := [{ table := usersTable, name := usersEmailIndex, columns := ["email"] }]
  constraints := [⟨"schema_migrations", "pk_schema_migrations", .primaryKey, ["version"]⟩,
    ⟨usersTable, "pk_users", .primaryKey, ["uuid"]⟩]
  recorded := [("schema_migrations", ⟨1, one_inRange⟩), ("schema_migrations", ⟨2, two_inRange⟩)]

end Shipped

end SchemaMigration
