import SchemaMigration.Proofs.Clashes

/-!
# Columns that are altered again

Altering a column is the one change that is carried out every time it is asked for.  What changes do
to a column of a table is a fold over those that alter it (`Change.refittedAll`).  Altering twice is
altering once, whatever has been altered between (`Change.refitted_refittedAll`); this holds on
PostgreSQL too, where a default stays unless another one is given.
-/
namespace SchemaMigration

namespace Change
open Catalog (sameName altered sameName_iff)

variable {d : Dialect} {table other : String} {k u v : Column} {x y : Change} {xs : List Change}

/-- The column of the table after the change, if this alters it. -/
def refitted (d : Dialect) (table : String) (k : Column) : Change → Column
  | alterColumnType t new =>
    if sameName table t && sameName k.name new.name then altered d k new else k
  | _ => k

/-- The column of the table after all of the changes that alter it. -/
def refittedAll (d : Dialect) (table : String) (k : Column) (xs : List Change) : Column :=
  xs.foldl (refitted d table) k

theorem refittedAll_snoc :
    refittedAll d table k (xs ++ [x]) = refitted d table (refittedAll d table k xs) x :=
  List.foldl_concat _ _ _ _

theorem altered_name (d : Dialect) (old new : Column) : (altered d old new).name = new.name := by
  cases d <;> rfl

/-- The column keeps its name but for the case of letters. -/
theorem refitted_name :
    (refitted d table k x).name.map Char.toLower = k.name.map Char.toLower := by
  cases x with
  | alterColumnType t new =>
    simp only [refitted]
    split
    · next hhit =>
      rw [Bool.and_eq_true_iff] at hhit
      rw [altered_name]
      exact (sameName_iff.mp hhit.2).symm
    · rfl
  | _ => rfl

theorem refittedAll_name :
    (refittedAll d table k xs).name.map Char.toLower = k.name.map Char.toLower := by
  induction xs generalizing k with
  | nil => rfl
  | cons x rest ih => exact ih.trans refitted_name

theorem refitted_congr (h : sameName table other = true) :
    refitted d table k x = refitted d other k x := by
  cases x with
  | alterColumnType t new =>
    have htable : sameName table t = sameName other t := by
      rw [Catalog.sameName, Catalog.sameName, sameName_iff.mp h]
    rw [refitted, refitted, htable]
  | _ => rfl

theorem refittedAll_congr (h : sameName table other = true) :
    refittedAll d table k xs = refittedAll d other k xs := by
  induction xs generalizing k with
  | nil => rfl
  | cons x rest ih =>
    show refittedAll d table (refitted d table k x) rest = _
    rw [ih, refitted_congr h]
    rfl

/-- Changes that leave the column alone one by one do so together. -/
theorem refittedAll_eq_self (h : ∀ x ∈ xs, refitted d table k x = k) :
    refittedAll d table k xs = k := by
  induction xs with
  | nil => rfl
  | cons x rest ih =>
    obtain ⟨hx, hrest⟩ := List.forall_mem_cons.mp h
    show refittedAll d table (refitted d table k x) rest = k
    rw [hx]
    exact ih hrest

/-! ## Altering twice is altering once -/

/-- What a column was before makes a difference by its default only, and by none if the new column
has a default of its own. -/
theorem altered_altered {new between : Column} (h : altered d u new = altered d v new) :
    altered d (altered d u between) new = altered d (altered d v between) new := by
  cases d with
  | postgres =>
    have hdefault : new.default.or u.default = new.default.or v.default := congrArg (·.default) h
    simp only [altered, Column.mk.injEq, true_and]
    cases hnew : new.default with
    | some value => rfl
    | none =>
      rw [hnew, Option.none_or, Option.none_or] at hdefault
      rw [hdefault]
  | _ => rfl

theorem altered_self (d : Dialect) (u new : Column) :
    altered d (altered d u new) new = altered d u new := by
  cases d with
  | postgres =>
    simp only [altered, Column.mk.injEq, true_and]
    cases new.default <;> rfl
  | _ => rfl

/-- Columns that a change makes equal are made equal by it after any other change too. -/
theorem refitted_refitted (hname : u.name.map Char.toLower = v.name.map Char.toLower)
    (h : refitted d table u x = refitted d table v x) :
    refitted d table (refitted d table u y) x = refitted d table (refitted d table v y) x := by
  have hlike : ∀ n, sameName u.name n = sameName v.name n := fun n => by
    rw [Catalog.sameName, Catalog.sameName, hname]
  cases x with
  | alterColumnType t new =>
    cases y with
    | alterColumnType s between =>
      by_cases hy : (sameName table s && sameName v.name between.name) = true
      · -- both columns have the name of the one between, and are altered or not together
        have hafter : ∀ k : Column, (altered d k between).name = between.name :=
          fun k => altered_name d k between
        have hbetween : sameName between.name new.name = sameName v.name new.name := by
          rw [Bool.and_eq_true_iff] at hy
          rw [Catalog.sameName, Catalog.sameName, sameName_iff.mp hy.2]
        simp only [refitted, hlike, hy, if_true, hafter, hbetween] at h ⊢
        split at h
        · next hx => rw [if_pos hx, if_pos hx, altered_altered h]
        · rw [h]
      · simp only [refitted, hlike, hy, Bool.false_eq_true, if_false] at h ⊢
        exact h
    | _ => exact h
  | _ =>
    cases h
    rfl

theorem refitted_refittedAll_congr (hname : u.name.map Char.toLower = v.name.map Char.toLower)
    (h : refitted d table u x = refitted d table v x) :
    refitted d table (refittedAll d table u xs) x =
      refitted d table (refittedAll d table v xs) x := by
  induction xs generalizing u v with
  | nil => exact h
  | cons y rest ih =>
    exact ih ((refitted_name.trans hname).trans refitted_name.symm) (refitted_refitted hname h)

theorem refitted_self : refitted d table (refitted d table k x) x = refitted d table k x := by
  cases x with
  | alterColumnType t new =>
    simp only [refitted]
    split
    · rw [altered_self]
      split <;> rfl
    · rfl
  | _ => rfl

/-- **Altering twice is altering once**, whatever has been altered between. -/
theorem refitted_refittedAll :
    refitted d table (refittedAll d table (refitted d table k x) xs) x =
      refitted d table (refittedAll d table k xs) x :=
  refitted_refittedAll_congr refitted_name refitted_self

end Change

namespace Catalog
open Change (refitted refittedAll refitted_congr refittedAll_congr refittedAll_name)

variable {d : Dialect} {c c' : Catalog} {table other : String} {xs : List Change}

/-- All tables of the name have the same columns.  A catalog of a database has one table of a name
at most, but nothing here depends on that. -/
def Uniform (c : Catalog) (table : String) : Prop :=
  ∀ s ∈ c.tables, ∀ t ∈ c.tables, sameName s.name table = true → sameName t.name table = true →
    s.columns = t.columns

theorem Uniform.columns {s : StoredTable} (h : c.Uniform table) (hs : s ∈ c.tables)
    (hname : sameName s.name table = true) : s.columns = c.columnsOf table := by
  obtain ⟨t, ht⟩ := table?_of_hasTable (List.any_eq_true.mpr ⟨s, hs, hname⟩)
  rw [columnsOf, ht]
  exact h s hs t (List.mem_of_find?_eq_some ht) hname (table?_name ht)

/-- Changes every column of every table. -/
def mapColumns (f : String → Column → Column) (c : Catalog) : Catalog :=
  { c with tables := c.tables.map fun t => { t with columns := t.columns.map (f t.name) } }

section MapColumns

variable {f g : String → Column → Column}

theorem mapColumns_mapColumns :
    (c.mapColumns f).mapColumns g = c.mapColumns fun t k => g t (f t k) := by
  simp [mapColumns, Function.comp_def]

theorem mapColumns_eq_self (h : ∀ t ∈ c.tables, ∀ k ∈ t.columns, f t.name k = k) :
    c.mapColumns f = c := by
  have htables : (c.tables.map fun t => { t with columns := t.columns.map (f t.name) }) =
      c.tables := by
    refine (List.map_congr_left fun t ht => ?_).trans (List.map_id c.tables)
    rw [List.map_congr_left (h t ht), List.map_id']
    rfl
  rw [mapColumns, htables]

theorem hasTable_mapColumns (table : String) :
    (c.mapColumns f).hasTable table = c.hasTable table := by
  simp [hasTable, mapColumns, List.any_map, Function.comp_def]

variable (hcongr : ∀ t u k, sameName t u = true → f t k = f u k)

include hcongr

theorem columnsOf_mapColumns (table : String) :
    (c.mapColumns f).columnsOf table = (c.columnsOf table).map (f table) := by
  rw [columnsOf, columnsOf, table?, mapColumns, List.find?_map]
  simp only [Function.comp_def]
  cases h : c.tables.find? fun t => sameName t.name table with
  | none => simp [table?, h]
  | some t =>
    have hname : f t.name = f table := funext fun k => hcongr _ _ k (table?_name h)
    simp [table?, h, hname]

theorem Uniform.mapColumns (h : c.Uniform table) : (c.mapColumns f).Uniform table := by
  rintro s' hs' t' ht' hsame hsame'
  obtain ⟨s, hs, rfl⟩ := List.mem_map.mp hs'
  obtain ⟨t, ht, rfl⟩ := List.mem_map.mp ht'
  have hname : f s.name = f t.name :=
    funext fun k => hcongr _ _ k (sameName_trans hsame (sameName_symm hsame'))
  show s.columns.map (f s.name) = t.columns.map (f t.name)
  rw [h s hs t ht hsame hsame', hname]

/-- Changing columns but not their names leaves everything to be found as before. -/
theorem shows_mapColumns (hname : ∀ t k, (f t k).name.map Char.toLower = k.name.map Char.toLower)
    {p : Part} : (c.mapColumns f).Shows p ↔ c.Shows p := by
  cases p with
  | table t => rw [Shows, Shows, hasTable_mapColumns]
  | column t n =>
    rw [Shows, Shows, columnNames, columnNames, columnsOf_mapColumns hcongr, List.map_map]
    simp only [Function.comp_def, hname]
  | _ => exact Iff.rfl

end MapColumns

/-- The catalog after the changes have altered its columns once more. -/
def refit (d : Dialect) (xs : List Change) (c : Catalog) : Catalog :=
  c.mapColumns fun t k => refittedAll d t k xs

theorem refit_snoc {x : Change} :
    c.refit d (xs ++ [x]) = (c.refit d xs).mapColumns fun t k => refitted d t k x := by
  rw [refit, refit, mapColumns_mapColumns]
  simp only [Change.refittedAll_snoc]

theorem shows_refit {p : Part} : (c.refit d xs).Shows p ↔ c.Shows p :=
  shows_mapColumns (f := fun t k => refittedAll d t k xs) (fun _ _ _ => refittedAll_congr)
    fun _ _ => refittedAll_name

theorem has_column_refit {name : String} (h : c.has (.column table name) = true) :
    (c.refit d xs).has (.column table name) = true := by
  obtain ⟨k, hk, hname⟩ := has_column.mp h
  have hcolumns := columnsOf_mapColumns (c := c) (f := fun t k => refittedAll d t k xs)
    (fun _ _ _ => refittedAll_congr) table
  refine has_column.mpr ⟨refittedAll d table k xs, ?_, ?_⟩
  · rw [refit, hcolumns]
    exact List.mem_map_of_mem hk
  · rw [sameName, refittedAll_name]
    exact hname

theorem Uniform.refit (h : c.Uniform table) : (c.refit d xs).Uniform table :=
  h.mapColumns fun _ _ _ => refittedAll_congr

/-- **Altering a column of tables that are alike** alters it in each of them. -/
theorem alterColumn_ok {k : Column} (hhas : c.has (.column table k.name) = true)
    (huniform : c.Uniform table) : c.carryOut d (.alterColumn table k) =
      .ok (c.mapColumns fun t old => refitted d t old (.alterColumnType table k)) := by
  obtain ⟨old, hold, hname⟩ := has_column.mp hhas
  cases ht : c.table? table with
  | none =>
    rw [columnsOf, ht] at hold
    cases hold
  | some t =>
    have hcolumns := (columnsOf_table? ht).symm
    have hany : (t.columns.any fun old => sameName old.name k.name) = true := by
      rw [hcolumns]
      exact List.any_eq_true.mpr ⟨old, hold, hname⟩
    simp only [carryOut, ht, hany, if_true, setColumns, mapColumns]
    congr 2
    refine List.map_congr_left fun s hs => ?_
    by_cases hsame : sameName s.name table = true
    · rw [if_pos hsame, hcolumns, huniform.columns hs hsame]
      simp only [refitted, hsame, Bool.true_and]
    · simp [refitted, hsame]

end Catalog
end SchemaMigration
