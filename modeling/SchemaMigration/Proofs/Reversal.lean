import Mathlib.Data.List.Pairwise
import SchemaMigration.Proofs.Covering
import SchemaMigration.Proofs.Refitting
import SchemaMigration.Proofs.WellFormed

/-!
# Dropping what was created

For each request that adds something there is one that takes it back (`Change.reversal`): it names
the same table, and an index or a constraint by the same name, before that is cut.  If the first
changed a catalog, the second succeeds on what that left, and gives back the catalog
(`Change.ensure_reversal`).

This needs a catalog in which nothing is left of tables that are gone (`Catalog.Rooted`): that would
come back with the new table, and go with it.  In the same way nothing may be over a column that is
still to come (`Catalog.FreshColumns`), and nothing is if indexes and constraints are over columns
of their tables (`Catalog.Covered.freshColumns`).  All catalogs that statements make of an empty one
are like this, so on them whatever has been created can be dropped (`Change.built_reversal`).
-/
namespace SchemaMigration

/-- The request that takes back what a request to add something does to the catalog.  Of the columns
that are asked for, those are taken back that the table did not have. -/
def Change.reversal (c : Catalog) : Change → Change
  | .createTable t => .dropTable t.name
  | .createIndex i => .dropIndex i.table i.name
  | .addColumns table columns => .dropColumns table ((c.missing table columns).map (·.name))
  | .addConstraint k => .dropConstraint k.table k.name k.kind
  | x => x

namespace Catalog

/-- Tables have different names, and nothing else is there without its table. -/
structure Rooted (c : Catalog) : Prop where
  apart : c.tables.Pairwise fun s t => sameName s.name t.name = false
  indexes : ∀ i ∈ c.indexes, c.hasTable i.table = true
  constraints : ∀ k ∈ c.constraints, c.hasTable k.table = true
  recorded : c.Tidy

/-- No index and no constraint is over a column that the request adds. -/
def FreshColumns (c : Catalog) : Change → Prop
  | .addColumns table columns => ∀ k ∈ c.missing table columns, c.usesColumn table k.name = false
  | _ => True

/-- Where indexes and constraints are over columns that are there, a request finds none over the
columns that it adds. -/
theorem Covered.freshColumns {d : Dialect} {c : Catalog} (h : c.Covered) {x : Change}
    {l : List Statement} (hdue : c.due d x = .ok l) : c.FreshColumns x := by
  cases x with
  | addColumns table columns =>
    obtain ⟨⟨all, hall⟩, -⟩ := due_addColumns.mp hdue
    obtain ⟨-, hnames⟩ := Change.check_addColumns (Change.build_eq_ok.mp hall).1
    intro k hk
    obtain ⟨hmem, hmissing⟩ := List.mem_filter.mp hk
    refine h.unused ?_
    rw [← Name.lower_of_check (hnames k hmem)]
    exact hasName_eq_false.mp (by simpa using hmissing)
  | _ => trivial

/-- The request is due on the catalog, and carried out there it leads to the other one. -/
def Restores (d : Dialect) (c' : Catalog) (x : Change) (c : Catalog) : Prop :=
  ∃ l, l ≠ [] ∧ c'.due d x = .ok l ∧ c'.carryOutAll d l = .ok c

variable {d : Dialect} {c c' : Catalog} {table name : String}

/-- A request that drops what is there restores the catalog without it. -/
theorem DropsDue.restores {x : Change} {l : List Statement} {c₁ : Catalog}
    (h : c'.DropsDue d x l c₁) (hasked : c'.HoldsAsked d x) (hwithout : c'.without d x = c) :
    c'.Restores d x c := by
  refine ⟨l, fun hnil => h.idle.mp hnil hasked, h.due, ?_⟩
  rw [← hwithout, ← h.rest hasked]
  exact h.inTurn.carryOutAll

/-! ## Catalogs stay rooted -/

section Rooted

variable {st : Statement}

theorem hasTable_of_names (hnames : c'.tables.map (·.name) = c.tables.map (·.name))
    (table : String) : c'.hasTable table = c.hasTable table := by
  have hany : ∀ c : Catalog, c.hasTable table = (c.tables.map (·.name)).any (sameName · table) :=
    fun c => by simp [hasTable, List.any_map, Function.comp_def]
  rw [hany, hany, hnames]

/-- With the same names of tables, all depends on what belongs to them. -/
theorem Rooted.of_names (h : c.Rooted) (hnames : c'.tables.map (·.name) = c.tables.map (·.name))
    (hindexes : ∀ i ∈ c'.indexes, c.hasTable i.table = true)
    (hconstraints : ∀ k ∈ c'.constraints, c.hasTable k.table = true) (htidy : c'.Tidy) :
    c'.Rooted := by
  constructor
  · have hapart : (c.tables.map (·.name)).Pairwise fun a b => sameName a b = false :=
      List.pairwise_map.mpr h.apart
    rw [← hnames] at hapart
    exact List.pairwise_map.mp hapart
  · intro i hi
    rw [hasTable_of_names hnames]
    exact hindexes i hi
  · intro k hk
    rw [hasTable_of_names hnames]
    exact hconstraints k hk
  · exact htidy

theorem names_setColumns (c : Catalog) (table : String) (columns : List Column) :
    (c.setColumns table columns).tables.map (·.name) = c.tables.map (·.name) := by
  rw [setColumns, List.map_map]
  refine List.map_congr_left fun t _ => ?_
  simp only [Function.comp]
  split <;> rfl

/-- **Every statement keeps a catalog rooted.** -/
theorem carryOut_rooted (h : c.carryOut d st = .ok c') (hc : c.Rooted) : c'.Rooted := by
  have htidy := carryOut_tidy h hc.recorded
  cases st with
  | createTable name columns key =>
    have hgrown := (createTable_hasTable h).2
    obtain ⟨hno, rfl⟩ := carryOut_createTable h
    constructor
    · refine List.pairwise_append.mpr ⟨hc.apart, List.pairwise_singleton .., ?_⟩
      simpa [hasTable] using hno
    · intro i hi
      rw [hgrown, hc.indexes i hi, Bool.true_or]
    · intro k hk
      rcases List.mem_append.mp hk with hk | hk
      · rw [hgrown, hc.constraints k hk, Bool.true_or]
      · obtain ⟨key, -, rfl⟩ := List.mem_map.mp hk
        rw [hgrown, stored_table, sameName_refl, Bool.or_true]
    · exact htidy
  | dropTable name =>
    have hothers := (dropTable_hasTable h).2
    rw [carryOut_dropTable h] at hothers htidy ⊢
    constructor
    · exact hc.apart.filter _
    · intro i hi
      obtain ⟨hmem, hkept⟩ := List.mem_filter.mp hi
      rw [hothers i.table (by simpa using hkept)]
      exact hc.indexes i hmem
    · intro k hk
      obtain ⟨hmem, hkept⟩ := List.mem_filter.mp hk
      rw [hothers k.table (by simpa using hkept)]
      exact hc.constraints k hmem
    · exact htidy
  | createIndex i =>
    obtain ⟨hhas, rfl⟩ := carryOut_createIndex h
    refine hc.of_names rfl (fun j hj => ?_) hc.constraints htidy
    rcases List.mem_append.mp hj with hj | hj
    · exact hc.indexes j hj
    · rw [List.mem_singleton.mp hj]
      exact hhas
  | dropIndex table name =>
    rw [carryOut_dropIndex h] at htidy ⊢
    exact hc.of_names rfl (fun i hi => hc.indexes i (List.mem_of_mem_filter hi)) hc.constraints
      htidy
  | addColumns table columns =>
    obtain ⟨-, rfl⟩ := carryOut_addColumns h
    exact hc.of_names (names_setColumns ..) hc.indexes hc.constraints htidy
  | dropColumns table columns =>
    obtain ⟨-, rfl⟩ := carryOut_dropColumns h
    refine hc.of_names (names_setColumns ..) (fun i hi => ?_) (fun k hk => ?_) htidy
    · obtain ⟨j, hj, htable, -⟩ := mem_releaseColumns_indexes hi
      rw [← htable]
      exact hc.indexes j hj
    · obtain ⟨j, hj, htable, -⟩ := mem_releaseColumns_constraints hk
      rw [← htable]
      exact hc.constraints j hj
  | alterColumn table k =>
    obtain ⟨-, rfl⟩ := carryOut_alterColumn h
    exact hc.of_names (names_setColumns ..) hc.indexes hc.constraints htidy
  | addConstraint k =>
    obtain ⟨hhas, rfl⟩ := carryOut_addConstraint h
    refine hc.of_names rfl hc.indexes (fun j hj => ?_) htidy
    rcases List.mem_append.mp hj with hj | hj
    · exact hc.constraints j hj
    · rw [List.mem_singleton.mp hj, stored_table]
      exact hhas
  | dropConstraint table name kind =>
    rw [carryOut_dropConstraint h] at htidy ⊢
    exact hc.of_names rfl hc.indexes (fun k hk => hc.constraints k (List.mem_of_mem_filter hk))
      htidy
  | recordVersion history v =>
    obtain ⟨-, rfl⟩ := recordVersion_recorded h
    exact hc.of_names rfl hc.indexes hc.constraints htidy
  | verbatim text => cases h

theorem carryOutAll_rooted {l : List Statement} (h : c.carryOutAll d l = .ok c') (hc : c.Rooted) :
    c'.Rooted := by
  induction l generalizing c with
  | nil =>
    cases h
    exact hc
  | cons st rest ih =>
    obtain ⟨c₁, hone, hrest⟩ := carryOutAll_cons_ok.mp h
    exact ih hrest (carryOut_rooted hone hc)

/-- What statements make of an empty catalog is rooted. -/
theorem rooted_of_empty {l : List Statement} (h : carryOutAll d {} l = .ok c) : c.Rooted := by
  have hempty : Rooted {} := by constructor <;> simp [Tidy]
  exact carryOutAll_rooted h hempty

end Rooted

/-! ## Tables -/

theorem Rooted.uniform (h : c.Rooted) (table : String) : c.Uniform table := by
  have hsymm : Std.Symm fun s t : StoredTable => sameName s.name t.name = false := by
    constructor
    intro s t hst
    rw [← Bool.not_eq_true] at hst ⊢
    exact mt sameName_symm hst
  intro s hs t ht hsame hsame'
  by_cases heq : s = t
  · rw [heq]
  · cases (h.apart.forall hs ht heq).symm.trans (sameName_trans hsame (sameName_symm hsame'))

/-- What belongs to a table that is there does not belong to one that is not. -/
theorem sameName_absent {other : String} (hno : c.hasTable table = false)
    (hhas : c.hasTable other = true) : sameName other table = false := by
  rw [← Bool.not_eq_true]
  intro hsame
  rw [hasTable_congr hsame, hno] at hhas
  cases hhas

/-- Of a list with an addition at its end, what is not the addition was there before. -/
theorem filter_append_added {α : Type} {l added : List α} {p : α → Bool}
    (hold : ∀ a ∈ l, p a = false) (hnew : ∀ a ∈ added, p a = true) :
    (l ++ added).filter (fun a => !p a) = l := by
  have hkept : l.filter (fun a => !p a) = l := List.filter_eq_self.mpr (by simpa using hold)
  have hgone : added.filter (fun a => !p a) = [] := List.filter_eq_nil_iff.mpr (by simpa using hnew)
  rw [List.filter_append, hkept, hgone, List.append_nil]

/-- A table that was created can be dropped, and nothing else goes with it but its key. -/
theorem restores_createTable {columns : List Column} {key : Option PrimaryKey}
    (hrooted : c.Rooted) (hname : Name.Good d name)
    (h : c.carryOut d (.createTable name columns key) = .ok c') :
    c'.Restores d (.dropTable name) c := by
  obtain ⟨hno, rfl⟩ := carryOut_createTable h
  obtain ⟨l, c₁, hdue⟩ := dropsDue_dropTable (Name.require_eq_ok_iff.mpr hname)
  apply hdue.restores
  · simp [HoldsAsked, hasTable, sameName_refl]
  have htables : (c.tables ++ [(⟨name, columns⟩ : StoredTable)]).filter
      (fun t => !sameName t.name name) = c.tables := by
    apply filter_append_added
    · simpa [hasTable] using hno
    · simp [sameName_refl]
  have hindexes : c.indexes.filter (fun i => !sameName i.table name) = c.indexes := by
    refine List.filter_eq_self.mpr fun i hi => ?_
    rw [sameName_absent hno (hrooted.indexes i hi), Bool.not_false]
  have hconstraints : (c.constraints ++
      key.toList.map fun k => stored d ⟨name, k.name, .primaryKey, k.columns⟩).filter
        (fun k => !sameName k.table name) = c.constraints := by
    apply filter_append_added
    · exact fun k hk => sameName_absent hno (hrooted.constraints k hk)
    · simp [sameName_refl]
  have hrecorded : c.recorded.filter (fun r => !sameName r.1 name) = c.recorded := by
    refine List.filter_eq_self.mpr fun r hr => ?_
    rw [sameName_absent hno (hrooted.recorded r hr), Bool.not_false]
  simp only [without, htables, hindexes, hconstraints, hrecorded]

/-! ## Indexes -/

/-- An index that was created can be dropped by the name that it was asked for under. -/
theorem restores_createIndex {i : Index} (hwell : (Change.createIndex i).WellFormed d)
    (h : c.carryOut d (.createIndex { i with name := i.storedName d }) = .ok c') :
    c'.Restores d (.dropIndex i.table i.name) c := by
  obtain ⟨htable, hname, -⟩ := hwell
  have hfree : ∀ k ∈ c.indexes, sameName k.name (d.fit i.name) = true →
      ¬ (d.sharesIndexNames = true ∨ sameName k.table i.table = true) := by
    simpa [indexesNamed, List.filter_eq_nil_iff, Index.storedName] using createIndex_free h
  obtain ⟨-, hc'⟩ := carryOut_createIndex h
  have hown : d.sharesIndexNames = true → ∀ k ∈ c'.indexes,
      sameName k.name (d.fit i.name) = true → sameName k.table i.table = true := by
    rw [hc']
    intro hshared k hk hlike
    rcases List.mem_append.mp hk with hk | hk
    · exact (hfree k hk hlike (.inl hshared)).elim
    · rw [List.mem_singleton.mp hk]
      exact sameName_refl _
  obtain ⟨l, c₁, hdue⟩ := dropsDue_ownIndex (fun _ => hown)
    (check_bind_eq_ok.mpr ⟨Name.require_eq_ok_iff.mpr htable,
      Change.requireStored_eq_ok_iff.mpr hname.nonempty⟩)
  apply hdue.restores
  · refine ⟨{ i with name := i.storedName d }, ?_, sameName_refl _, sameName_refl _⟩
    rw [hc']
    exact List.mem_append_right _ (List.mem_singleton_self _)
  have hleft : (c.indexes ++ [{ i with name := i.storedName d }]).filter
      (fun k => !(sameName k.table i.table && sameName k.name (d.fit i.name))) = c.indexes := by
    apply filter_append_added
    · intro k hk
      rw [← Bool.not_eq_true, Bool.and_eq_true]
      rintro ⟨hof, hlike⟩
      exact hfree k hk hlike (.inr hof)
    · simp [sameName_refl, Index.storedName]
  rw [without, hc']
  simp only [hleft]

/-! ## Columns -/

theorem setColumns_columnsOf (h : c.Uniform table) :
    c.setColumns table (c.columnsOf table) = c := by
  have htables : (c.tables.map fun t => if sameName t.name table then
      { t with columns := c.columnsOf table } else t) = c.tables := by
    refine (List.map_congr_left fun t ht => ?_).trans (List.map_id c.tables)
    split
    · next hname => rw [← h.columns ht hname]; rfl
    · rfl
  rw [setColumns, htables]

/-- Columns that were added can be dropped, and those that were there stay. -/
theorem restores_addColumns {columns : List Column} (hrooted : c.Rooted)
    (hwell : (Change.addColumns table (c.missing table columns)).WellFormed d)
    (hfresh : ∀ k ∈ c.missing table columns, c.usesColumn table k.name = false)
    (h : c.carryOutAll d ((Change.addColumns table (c.missing table columns)).statements d) =
      .ok c') :
    c'.Restores d (.dropColumns table ((c.missing table columns).map (·.name))) c := by
  obtain ⟨htable, hcolumns, -⟩ := hwell
  have hmissing : ∀ k ∈ c.missing table columns,
      Guarded.hasName (c.columnNames table) k.name = false := by
    simp [missing]
  generalize c.missing table columns = added at *
  obtain ⟨hhas, hc'⟩ := carryOutAll_addColumns hcolumns.nonempty h
  have hafter : c'.columnsOf table = c.columnsOf table ++ added := by
    rw [hc']
    exact columnsOf_setColumns hhas
  have hgood : (Change.dropColumns table (added.map (·.name))).WellFormed d := by
    refine ⟨htable, by simpa using hcolumns.nonempty, ?_, hcolumns.distinct⟩
    simpa using fun k hk => (hcolumns.good k hk).name
  -- which columns an index or a constraint is over has not changed
  have hunused : ∀ n ∈ c'.present table (added.map (·.name)), c'.usesColumn table n = false := by
    intro n hn
    obtain ⟨k, hk, rfl⟩ := List.mem_map.mp (List.mem_of_mem_filter hn)
    rw [hc']
    exact hfresh k hk
  obtain ⟨l, c₁, hdue⟩ :=
    dropsDue_dropColumns (fun _ => hunused) (Change.check_eq_ok_iff.mpr hgood)
  apply hdue.restores
  · obtain ⟨k, hk⟩ := List.exists_mem_of_ne_nil added hcolumns.nonempty
    refine ⟨k, ?_, k.name, List.mem_map_of_mem hk, sameName_refl _⟩
    rw [hafter]
    exact List.mem_append_right _ hk
  have hleft : (c.columnsOf table ++ added).filter
      (fun k => !(added.map (·.name)).any (sameName k.name ·)) = c.columnsOf table := by
    apply filter_append_added
    · intro k hk
      rw [← Bool.not_eq_true, List.any_eq_true]
      rintro ⟨n, hn, hname⟩
      obtain ⟨new, hnew, rfl⟩ := List.mem_map.mp hn
      have hfound := (hasName_iff_held (Name.check_eq_ok_iff.mpr (hcolumns.good new hnew).name)).mpr
        ⟨k, hk, hname⟩
      rw [hmissing new hnew] at hfound
      cases hfound
    · exact fun k hk => List.any_eq_true.mpr ⟨k.name, List.mem_map_of_mem hk, sameName_refl _⟩
  rw [without, releaseColumns_unused hunused, lessColumns, hafter, hleft, hc',
    setColumns_setColumns, setColumns_columnsOf (hrooted.uniform table)]

/-! ## Constraints -/

/-- A new constraint has a name of its own in its table, and a new primary key is the only one. -/
theorem addConstraint_free {k : Constraint} (h : c.carryOut d (.addConstraint k) = .ok c') :
    ∀ old ∈ c.constraints, sameName old.table k.table = true →
      sameName old.name k.name = false ∧ ¬ (old.kind = .primaryKey ∧ k.kind = .primaryKey) := by
  simp only [carryOut] at h
  split at h
  · cases h
  · split at h
    · cases h
    next hnone =>
    intro old hold htable
    simp only [List.any_eq_true, not_exists, not_and] at hnone
    simpa [htable] using hnone old hold

/-- A constraint that was added can be dropped by the name that it was asked for under. -/
theorem restores_addConstraint {k : Constraint} (hwell : (Change.addConstraint k).WellFormed d)
    (hsupported : d.altersConstraints = true)
    (h : c.carryOut d (.addConstraint { k with name := k.storedName d }) = .ok c') :
    c'.Restores d (.dropConstraint k.table k.name k.kind) c := by
  obtain ⟨htable, hname, -⟩ := hwell
  have hfree : ∀ old ∈ c.constraints, sameName old.table k.table = true →
      sameName old.name (d.fit k.name) = false ∧
        ¬ (old.kind = .primaryKey ∧ k.kind = .primaryKey) := addConstraint_free h
  obtain ⟨-, hc'⟩ := carryOut_addConstraint h
  have hmem : ∀ old ∈ c'.constraints, old ∈ c.constraints ∨
      old = stored d { k with name := k.storedName d } := by
    rw [hc']
    simp
  have hclear : c'.Unmistakable d (.dropConstraint k.table k.name k.kind) := by
    intro hnamed old hold htable
    rcases hmem old hold with hold | rfl
    · have hother := hfree old hold htable
      refine ⟨fun hlike => ?_, fun hkind hkey => ?_⟩
      · cases hother.1.symm.trans hlike
      · exact (hother.2 ⟨hkind.trans hkey, hkey⟩).elim
    · rw [stored, if_neg hnamed]
      exact ⟨fun _ => rfl, fun _ _ => sameName_refl _⟩
  have hnew : (stored d { k with name := k.storedName d }).IsAskedFor d k.table (d.fit k.name)
      k.kind := by
    refine ⟨by simp [sameName_refl], stored_kind _ _, ?_⟩
    by_cases hkey : d = .mysql ∧ k.kind = .primaryKey
    · exact .inl hkey
    · rw [stored, if_neg hkey]
      exact .inr (sameName_refl _)
  obtain ⟨l, c₁, hdue⟩ := dropsDue_dropConstraint hclear hsupported
    (check_bind_eq_ok.mpr ⟨Name.require_eq_ok_iff.mpr htable,
      Change.requireStored_eq_ok_iff.mpr hname.nonempty⟩)
  apply hdue.restores
  · exact ⟨_, by simp [hc'], hnew⟩
  have hleft : (c.constraints ++ [stored d { k with name := k.storedName d }]).filter
      (fun old => !decide (old.IsAskedFor d k.table (d.fit k.name) k.kind)) = c.constraints := by
    apply filter_append_added
    · intro old hold
      rw [decide_eq_false_iff_not]
      rintro ⟨htable, hkind, ⟨-, hkey⟩ | hlike⟩
      · exact (hfree old hold htable).2 ⟨hkind.trans hkey, hkey⟩
      · cases (hfree old hold htable).1.symm.trans hlike
    · simpa using hnew
  rw [without, hc']
  simp only [hleft]

end Catalog

namespace Change
open Catalog

variable {d : Dialect} {x : Change}

/-- What a request to add something has done to a catalog can be taken back. -/
theorem restores_of_due {c c' : Catalog} {l : List Statement} (hadditive : x.IsAdditive)
    (hrooted : c.Rooted) (hfresh : c.FreshColumns x) (hne : l ≠ []) (hdue : c.due d x = .ok l)
    (hcarried : c.carryOutAll d l = .ok c') : c'.Restores d (x.reversal c) c := by
  obtain hnil | hbuild := due_narrowed hdue
  · exact (hne hnil).elim
  obtain ⟨hcheck, hsupported, rfl⟩ := build_eq_ok.mp hbuild
  have hwell := check_eq_ok_iff.mp hcheck
  cases x with
  | createTable t => exact restores_createTable hrooted hwell.1 (carryOutAll_one hcarried)
  | createIndex i => exact restores_createIndex hwell (carryOutAll_one hcarried)
  | addColumns table columns => exact restores_addColumns hrooted hwell hfresh hcarried
  | addConstraint k => exact restores_addConstraint hwell hsupported (carryOutAll_one hcarried)
  | _ => exact hadditive.elim

/-- If a request to add something has changed the catalog, it can be taken back. -/
theorem restores_of_changed (hadditive : x.IsAdditive) {w : World Catalog}
    (hrooted : w.server.Rooted) {span : Option Span}
    (hfresh : ∀ l, w.server.due d x = .ok l → w.server.FreshColumns x)
    (hchanged : World.outcome ((x.ensure d).run (Catalog.server d) span w) = .ok true) :
    (World.leftBy ((x.ensure d).run (Catalog.server d) span w)).server.Restores d
      (x.reversal w.server) w.server := by
  obtain ⟨l, hdue, htrue, -, hcarried⟩ := run_due hchanged
  have hne : l ≠ [] := by
    rintro rfl
    cases htrue
  exact restores_of_due hadditive hrooted (hfresh l hdue) hne hdue hcarried

/-- A request that restores a catalog succeeds, and leaves that catalog. -/
theorem run_of_restores {c : Catalog} {w : World Catalog} (h : w.server.Restores d x c)
    (span : Option Span) :
    World.outcome ((x.ensure d).run (Catalog.server d) span w) = .ok true ∧
      (World.leftBy ((x.ensure d).run (Catalog.server d) span w)).server = c := by
  obtain ⟨back, hback, hdue, hcarried⟩ := h
  obtain ⟨hr, hc, -⟩ := run_of_due hdue hcarried span
  rw [List.isEmpty_eq_false_iff.mpr hback] at hr
  exact ⟨hr, hc⟩

/-- **Dropping takes back creating**, by the names that things were asked for under, however long.
If a request to add something changed the catalog of a database, the request to drop the same
succeeds, and leaves the catalog as it was. -/
theorem ensure_reversal (hadditive : x.IsAdditive) {w : World Catalog} (hrooted : w.server.Rooted)
    (hfresh : w.server.FreshColumns x) {span span' : Option Span} {w' : World Catalog}
    (hleft : World.leftBy ((x.ensure d).run (Catalog.server d) span w) = w')
    (hchanged : World.outcome ((x.ensure d).run (Catalog.server d) span w) = .ok true) :
    World.outcome (((x.reversal w.server).ensure d).run (Catalog.server d) span' w') = .ok true ∧
      (World.leftBy (((x.reversal w.server).ensure d).run (Catalog.server d) span' w')).server =
        w.server := by
  subst hleft
  exact run_of_restores (restores_of_changed hadditive hrooted (fun _ _ => hfresh) hchanged) span'

/-- A database with a table and an index on it. -/
def mailedUsers : World Catalog where
  server := {
    tables := [⟨"users", [{ name := "id", type := .bigInteger },
      { name := "email", type := .varchar 100 }]⟩]
    indexes := [{ table := "users", name := "users_id", columns := ["id"] }] }

/-- The request for an index of that table, with a name that is too long for PostgreSQL. -/
def longIndex : Change :=
  .createIndex
    { table := "users", name := String.ofList (List.replicate 70 'n'), columns := ["email"] }

theorem longIndex_reversal :
    let w := World.leftBy ((longIndex.ensure .postgres).run (Catalog.server .postgres) none
      mailedUsers)
    longIndex.IsAdditive ∧ mailedUsers.server.Rooted ∧ mailedUsers.server.FreshColumns longIndex ∧
      World.outcome ((longIndex.ensure .postgres).run (Catalog.server .postgres) none
        mailedUsers) = .ok true ∧
      World.outcome (((Change.dropIndex "users" (String.ofList (List.replicate 70 'n'))).ensure
        .postgres).run (Catalog.server .postgres) none w) = .ok true ∧
      (World.leftBy (((Change.dropIndex "users" (String.ofList (List.replicate 70 'n'))).ensure
        .postgres).run (Catalog.server .postgres) none w)).server = mailedUsers.server := by
  have hrooted : mailedUsers.server.Rooted :=
    ⟨by decide +kernel, by decide +kernel, by decide +kernel, fun r hr => nomatch hr⟩
  have hchanged : World.outcome ((longIndex.ensure .postgres).run (Catalog.server .postgres) none
      mailedUsers) = .ok true := by decide +kernel
  exact ⟨trivial, hrooted, trivial, hchanged,
    ensure_reversal (x := longIndex) trivial hrooted trivial rfl hchanged⟩

/-- **On a database that statements have made** of an empty one, whatever a request has added can be
dropped again, and the catalog is as it was. -/
theorem built_reversal (hadditive : x.IsAdditive) {w : World Catalog} {made : List Statement}
    (hmade : Catalog.carryOutAll d {} made = .ok w.server) {span : Option Span}
    (hchanged : World.outcome ((x.ensure d).run (Catalog.server d) span w) = .ok true)
    (span' : Option Span) :
    let w' := World.leftBy ((x.ensure d).run (Catalog.server d) span w)
    World.outcome (((x.reversal w.server).ensure d).run (Catalog.server d) span' w') = .ok true ∧
      (World.leftBy (((x.reversal w.server).ensure d).run (Catalog.server d) span' w')).server =
        w.server :=
  run_of_restores (restores_of_changed hadditive (rooted_of_empty hmade)
    (fun _ => (covered_of_empty hmade).freshColumns) hchanged) span'

end Change
end SchemaMigration
