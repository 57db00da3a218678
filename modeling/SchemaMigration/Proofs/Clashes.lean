import SchemaMigration.Proofs.Parts
import SchemaMigration.Proofs.Shrinking

/-!
# Changes that work against each other

A change can take parts of a schema away that an earlier one has ensured, or bring parts about that
an earlier one has cleared (`Change.removes`, `Change.adds`): the two clash (`Change.clashes`).
What a change has done lasts under all changes that it does not clash with (`Catalog.Done.lasts`).
-/
namespace SchemaMigration

namespace Change
open Catalog (sameName stored)

/-- Whether the change can take the part away.  A table takes all its parts with it, and a column
takes indexes and constraints with it, but not on SQLite. -/
def removes (d : Dialect) : Change → Part → Bool
  | dropTable table, p => sameName p.owner table
  | dropColumns table columns, .column t n =>
    sameName t table && decide (n ∈ columns.map Text.lower)
  | dropColumns table _, .index t _ | dropColumns table _, .constraint t _
  | dropColumns table _, .key t => decide (d ≠ .sqlite) && sameName t table
  | dropIndex table name, .index t n =>
    sameName n (d.fit name) && (d.sharesIndexNames || sameName t table)
  | dropConstraint table name kind, .constraint t n =>
    sameName t table && (sameName n (d.fit name) || decide (d = .mysql ∧ kind = .primaryKey))
  | dropConstraint table _ _, .key t => sameName t table
  | _, _ => false

/-- Whether the change can bring the part about. -/
def adds (d : Dialect) : Change → Part → Bool
  | createTable t, .table u => sameName u t.name
  | createTable t, .column u n =>
    sameName u t.name && decide (n ∈ t.columns.map fun k => Text.lower k.name)
  | createTable t, .constraint u n => sameName u t.name && decide (t.primaryKey ≠ []) &&
    sameName n (stored d ⟨t.name, t.storedKeyName d, .primaryKey, t.primaryKey⟩).name
  | createTable t, .key u => sameName u t.name && decide (t.primaryKey ≠ [])
  | createIndex i, .index u n => sameName u i.table && sameName n (i.storedName d)
  | addColumns table columns, .column u n =>
    sameName u table && decide (n ∈ columns.map fun k => Text.lower k.name)
  | addConstraint k, .constraint u n =>
    sameName u k.table && sameName n (stored d { k with name := k.storedName d }).name
  | addConstraint k, .key u => sameName u k.table && decide (k.kind = .primaryKey)
  | _, _ => false

/-- Whether the second change, after the first one, can undo what that has done. -/
def clashes (d : Dialect) (x y : Change) : Bool :=
  (x.ensures d).any (y.removes d) || (x.clears d).any (y.adds d)

end Change

namespace Catalog

variable {d : Dialect} {c c' : Catalog} {l : List Statement} {table name : String} {p : Part}

/-- A new table leaves the columns of others alone. -/
theorem createTable_columnsOf {columns : List Column} {key : Option PrimaryKey}
    (h : c.carryOut d (.createTable name columns key) = .ok c')
    (htable : sameName table name = false) : c'.columnsOf table = c.columnsOf table := by
  obtain ⟨-, rfl⟩ := carryOut_createTable h
  have hother : sameName name table = false := by
    rw [← Bool.not_eq_true] at htable ⊢
    exact fun h => htable (sameName_symm h)
  simp [columnsOf, table?, List.find?_append, hother]

/-- Columns with good names have the same names in lower case, for a program and for a database. -/
theorem map_lower {columns : List Column} (h : ∀ k ∈ columns, Name.check d k.name = .ok ()) :
    (columns.map fun k => k.name.map Char.toLower) = columns.map fun k => Text.lower k.name :=
  List.map_congr_left fun k hk => (Name.lower_of_check (h k hk)).symm

section NewConstraints

variable {new : List Constraint} (hnew : c'.constraints = c.constraints ++ new)

include hnew

theorem shows_constraint_append {u n : String} (hp : c'.Shows (.constraint u n)) :
    c.Shows (.constraint u n) ∨
      ∃ k ∈ new, sameName k.table u = true ∧ sameName k.name n = true := by
  obtain ⟨k, hk, hsame⟩ := has_constraint.mp hp
  rw [hnew] at hk
  rcases List.mem_append.mp hk with hk | hk
  · exact Or.inl (has_constraint.mpr ⟨k, hk, hsame⟩)
  · exact Or.inr ⟨k, hk, hsame⟩

theorem shows_key_append {u : String} (hp : c'.Shows (.key u)) :
    c.Shows (.key u) ∨ ∃ k ∈ new, sameName k.table u = true ∧ k.kind = .primaryKey := by
  obtain ⟨k, hk, hkey⟩ := List.any_eq_true.mp hp
  rw [hnew] at hk
  rcases List.mem_append.mp hk with hk | hk
  · exact Or.inl (List.any_eq_true.mpr ⟨k, hk, hkey⟩)
  · exact Or.inr ⟨k, hk, by simpa using hkey⟩

end NewConstraints

theorem createTable_adds {t : Table} (hcheck : t.check d = .ok ())
    (h : c.carryOutAll d ((Change.createTable t).statements d) = .ok c') (hp : c'.Shows p) :
    c.Shows p ∨ (Change.createTable t).adds d p = true := by
  have hcreated := carryOutAll_one h
  have hconstraints : c'.constraints = c.constraints ++ if t.primaryKey = [] then [] else
      [stored d ⟨t.name, t.storedKeyName d, .primaryKey, t.primaryKey⟩] := by
    obtain ⟨-, rfl⟩ := carryOut_createTable hcreated
    split <;> rfl
  cases p with
  | table u =>
    have hu : c'.hasTable u = true := hp
    rw [(createTable_hasTable hcreated).2, Bool.or_eq_true_iff] at hu
    exact hu.imp id sameName_symm
  | column u n =>
    by_cases hsame : sameName u t.name = true
    · right
      have hn : n ∈ c'.columnNames u := hp
      rw [columnNames, columnsOf_congr hsame, ← columnNames, columnNames_createTable hcreated,
        map_lower (Table.check_columns hcheck)] at hn
      simp only [Change.adds, hsame, Bool.true_and]
      exact decide_eq_true hn
    · left
      have hn : n ∈ c'.columnNames u := hp
      rwa [columnNames, createTable_columnsOf hcreated (by simpa using hsame)] at hn
  | index u n =>
    obtain ⟨-, rfl⟩ := carryOut_createTable hcreated
    exact Or.inl hp
  | constraint u n =>
    refine (shows_constraint_append hconstraints hp).imp id ?_
    rintro ⟨k, hk, htable, hname⟩
    split at hk
    · exact (List.not_mem_nil hk).elim
    next hkey =>
    rw [List.mem_singleton.mp hk] at htable hname
    rw [stored_table] at htable
    simp [Change.adds, sameName_symm htable, sameName_symm hname, hkey]
  | key u =>
    refine (shows_key_append hconstraints hp).imp id ?_
    rintro ⟨k, hk, htable, -⟩
    split at hk
    · exact (List.not_mem_nil hk).elim
    next hkey =>
    rw [List.mem_singleton.mp hk, stored_table] at htable
    simp [Change.adds, sameName_symm htable, hkey]

theorem createIndex_adds {i : Index}
    (h : c.carryOutAll d ((Change.createIndex i).statements d) = .ok c') (hp : c'.Shows p) :
    c.Shows p ∨ (Change.createIndex i).adds d p = true := by
  obtain ⟨-, rfl⟩ := carryOut_createIndex (carryOutAll_one h)
  cases p with
  | index u n =>
    obtain ⟨j, hj, htable, hname⟩ := has_index.mp hp
    rcases List.mem_append.mp hj with hj | hj
    · exact Or.inl (has_index.mpr ⟨j, hj, htable, hname⟩)
    · rw [List.mem_singleton.mp hj] at htable hname
      right
      simp [Change.adds, sameName_symm htable, sameName_symm hname]
  | _ => exact Or.inl hp

/-- Some of the columns are enough, since the others need not be added. -/
theorem addColumns_adds {columns fewer : List Column} (hsub : fewer ⊆ columns)
    (hcheck : (Change.addColumns table fewer).check d = .ok ())
    (h : c.carryOutAll d ((Change.addColumns table fewer).statements d) = .ok c')
    (hp : c'.Shows p) : c.Shows p ∨ (Change.addColumns table columns).adds d p = true := by
  obtain ⟨hne, hnames⟩ := Change.check_addColumns hcheck
  obtain ⟨hhas, rfl⟩ := carryOutAll_addColumns hne h
  cases p with
  | table u => exact Or.inl ((hasTable_setColumns c table _ u).symm.trans hp)
  | column u n =>
    have hn : n ∈ (c.setColumns table (c.columnsOf table ++ fewer)).columnNames u := hp
    by_cases hsame : sameName u table = true
    · rw [columnNames, columnsOf_congr hsame, columnsOf_setColumns hhas, List.map_append,
        ← columnsOf_congr hsame] at hn
      refine (List.mem_append.mp hn).imp id fun hn => ?_
      obtain ⟨k, hk, rfl⟩ := List.mem_map.mp hn
      rw [← Name.lower_of_check (hnames k hk)]
      simp only [Change.adds, hsame, Bool.true_and]
      exact decide_eq_true (List.mem_map_of_mem (hsub hk))
    · left
      rwa [columnNames, columnsOf_setColumns_other (by simpa using hsame)] at hn
  | _ => exact Or.inl hp

theorem addConstraint_adds {k : Constraint}
    (h : c.carryOutAll d ((Change.addConstraint k).statements d) = .ok c') (hp : c'.Shows p) :
    c.Shows p ∨ (Change.addConstraint k).adds d p = true := by
  obtain ⟨-, hc'⟩ := carryOut_addConstraint (carryOutAll_one h)
  have hconstraints : c'.constraints =
      c.constraints ++ [stored d { k with name := k.storedName d }] := by rw [hc']
  cases p with
  | constraint u n =>
    refine (shows_constraint_append hconstraints hp).imp id ?_
    rintro ⟨j, hj, htable, hname⟩
    rw [List.mem_singleton.mp hj] at htable hname
    rw [stored_table] at htable
    simp [Change.adds, sameName_symm htable, sameName_symm hname]
  | key u =>
    refine (shows_key_append hconstraints hp).imp id ?_
    rintro ⟨j, hj, htable, hkind⟩
    rw [List.mem_singleton.mp hj] at htable hkind
    rw [stored_table] at htable
    rw [stored_kind] at hkind
    simp only [Change.adds, sameName_symm htable, Bool.true_and]
    exact decide_eq_true hkind
  | _ =>
    subst hc'
    exact Or.inl hp

/-- **What is there after a change** was there before, or the change can bring it about. -/
theorem shows_of_added {y : Change} (hdue : c.due d y = .ok l)
    (hcarried : c.carryOutAll d l = .ok c') (hp : c'.Shows p) :
    c.Shows p ∨ y.adds d p = true := by
  by_cases hy : y.IsAdditive
  swap
  · have hl : ∀ st ∈ l, ¬ st.IsAdditive := fun st hst => (due_isAdditive hdue st hst).not.mpr hy
    exact Or.inl ((carryOutAll_shrinks hl hcarried).shows hp)
  rcases due_narrowed hdue with rfl | hbuild
  · cases hcarried
    exact Or.inl hp
  obtain ⟨hcheck, -, rfl⟩ := Change.build_eq_ok.mp hbuild
  cases y with
  | createTable t => exact createTable_adds hcheck hcarried hp
  | createIndex i => exact createIndex_adds hcarried hp
  | addColumns t columns =>
    exact addColumns_adds (List.filter_subset_self _) hcheck hcarried hp
  | addConstraint k => exact addConstraint_adds hcarried hp
  | _ => exact hy.elim

/-- A part of a schema is found as long as everything stays that belongs to its table. -/
theorem shows_of_others
    (htables : ∀ t, sameName t name = false → c'.hasTable t = c.hasTable t)
    (hcolumns : ∀ t, sameName t name = false → c'.columnsOf t = c.columnsOf t)
    (hindexes : ∀ i ∈ c.indexes, sameName i.table name = false → i ∈ c'.indexes)
    (hconstraints : ∀ k ∈ c.constraints, sameName k.table name = false → k ∈ c'.constraints)
    (hp : c.Shows p) (hother : sameName p.owner name = false) : c'.Shows p := by
  cases p with
  | table t => exact (htables t hother).trans hp
  | column t n =>
    show n ∈ c'.columnNames t
    rw [columnNames, hcolumns t hother]
    exact hp
  | index t n =>
    obtain ⟨i, hi, htable, hname⟩ := has_index.mp hp
    exact has_index.mpr ⟨i, hindexes i hi (sameName_false htable hother), htable, hname⟩
  | constraint t n =>
    obtain ⟨k, hk, htable, hname⟩ := has_constraint.mp hp
    exact has_constraint.mpr ⟨k, hconstraints k hk (sameName_false htable hother), htable, hname⟩
  | key t =>
    obtain ⟨k, hk, hkey⟩ := List.any_eq_true.mp hp
    have htable := (Bool.and_eq_true_iff.mp hkey).1
    exact List.any_eq_true.mpr ⟨k, hconstraints k hk (sameName_false htable hother), hkey⟩

theorem dropTable_shows (h : c.carryOut d (.dropTable name) = .ok c') (hp : c.Shows p)
    (hother : sameName p.owner name = false) : c'.Shows p := by
  refine shows_of_others (fun t ht => (dropTable_hasTable h).2 t ht)
    (fun _ ht => dropTable_columnsOf h ht) ?_ ?_ hp hother
  · intro i hi htable
    rw [carryOut_dropTable h]
    exact List.mem_filter.mpr ⟨hi, by rw [htable]; rfl⟩
  · intro k hk htable
    rw [carryOut_dropTable h]
    exact List.mem_filter.mpr ⟨hk, by rw [htable]; rfl⟩

/-- Of columns none of which is dropped, all are left. -/
theorem columnsLeft_unused {dropped columns : List String}
    (h : ∀ k ∈ dropped, columns.any (sameName · k) = false) :
    columnsLeft d dropped columns = some columns := by
  have hall : (columns.filter fun k => !dropped.any (sameName k ·)) = columns := by
    refine List.filter_eq_self.mpr fun k hk => ?_
    rw [Bool.not_eq_true', List.any_eq_false]
    intro n hn hsame
    exact (List.any_eq_false.mp (h n hn) k hk) hsame
  rw [columnsLeft, if_pos hall]

/-- Columns that no index and no constraint is over are dropped without a trace in either. -/
theorem releaseColumns_unused {dropped : List String}
    (h : ∀ k ∈ dropped, c.usesColumn table k = false) : c.releaseColumns d table dropped = c := by
  have huses : ∀ k ∈ dropped,
      (∀ i ∈ c.indexes, sameName i.table table = true → i.columns.any (sameName · k) = false) ∧
      ∀ j ∈ c.constraints, sameName j.table table = true →
        j.columns.any (sameName · k) = false := by
    intro k hk
    have hnone := h k hk
    rw [usesColumn, Bool.or_eq_false_iff, List.any_eq_false, List.any_eq_false] at hnone
    simp only [Bool.and_eq_true, not_and, Bool.not_eq_true] at hnone
    exact hnone
  have hindexes : (c.indexes.filterMap fun i => if sameName i.table table then
      (columnsLeft d dropped i.columns).map fun left => { i with columns := left } else some i) =
      c.indexes := by
    refine (List.filterMap_congr fun i hi => ?_).trans List.filterMap_some
    split
    · next htable => rw [columnsLeft_unused fun k hk => (huses k hk).1 i hi htable, Option.map_some]
    · rfl
  have hconstraints : (c.constraints.filterMap fun j => if sameName j.table table then
      (columnsLeft d dropped j.columns).map fun left => { j with columns := left } else some j) =
      c.constraints := by
    refine (List.filterMap_congr fun j hj => ?_).trans List.filterMap_some
    split
    · next htable => rw [columnsLeft_unused fun k hk => (huses k hk).2 j hj htable, Option.map_some]
    · rfl
  rw [releaseColumns, hindexes, hconstraints]

/-- SQLite drops no column that an index or a constraint is over. -/
theorem dropColumns_unused {columns : List String}
    (h : c.carryOut .sqlite (.dropColumns table columns) = .ok c') :
    ∀ k ∈ columns, c.usesColumn table k = false := by
  simp only [carryOut, if_true] at h
  split at h
  · cases h
  · split at h
    · cases h
    next hnone =>
    intro k hk
    simpa using List.find?_eq_none.mp hnone k hk

/-- Where dropping columns takes indexes and constraints with it, those of other tables stay. -/
theorem releaseColumns_shows {dropped : List String} (hp : c.Shows p)
    (hother : sameName p.owner table = false) : (c.releaseColumns d table dropped).Shows p := by
  refine shows_of_others (c := c) (fun _ _ => rfl) (fun _ _ => rfl) ?_ ?_ hp hother
  · intro i hi htable
    exact List.mem_filterMap.mpr ⟨i, hi, by rw [htable]; rfl⟩
  · intro k hk htable
    exact List.mem_filterMap.mpr ⟨k, hk, by rw [htable]; rfl⟩

/-- An index or a constraint stays when columns are dropped, on SQLite, and elsewhere if it belongs
to another table. -/
theorem releaseColumns_keeps {columns : List String}
    (h : c.carryOut d (.dropColumns table columns) = .ok c')
    (hnot : (decide (d ≠ .sqlite) && sameName p.owner table) = false) (hp : c.Shows p) :
    (c.releaseColumns d table columns).Shows p := by
  by_cases hd : d = .sqlite
  · subst hd
    rw [releaseColumns_unused (dropColumns_unused h)]
    exact hp
  · rw [decide_eq_true hd, Bool.true_and] at hnot
    exact releaseColumns_shows hp hnot

theorem dropColumns_shows {columns : List String}
    (h : c.carryOut d (.dropColumns table columns) = .ok c')
    (hnames : ∀ k ∈ columns, Name.check d k = .ok ()) (hp : c.Shows p)
    (hnot : (Change.dropColumns table columns).removes d p = false) : c'.Shows p := by
  cases p with
  | column t n =>
    have hn : n ∈ c.columnNames t := hp
    show n ∈ c'.columnNames t
    by_cases hsame : sameName t table = true
    · -- the column has none of the names, so it is still among those of the table
      simp only [Change.removes, hsame, Bool.true_and, decide_eq_false_iff_not] at hnot
      rw [columnNames, columnsOf_congr hsame] at hn ⊢
      rw [dropColumns_columnsOf h]
      obtain ⟨k, hk, rfl⟩ := List.mem_map.mp hn
      refine List.mem_map.mpr ⟨k, List.mem_filter.mpr ⟨hk, ?_⟩, rfl⟩
      rw [Bool.not_eq_true', List.any_eq_false]
      intro m hm hlike
      refine hnot (List.mem_map.mpr ⟨m, hm, ?_⟩)
      rw [Name.lower_of_check (hnames m hm)]
      exact (sameName_iff.mp hlike).symm
    · have hcolumns : c'.columnsOf t = c.columnsOf t :=
        dropColumns_columnsOf_other h (by simpa using hsame)
      rwa [columnNames, hcolumns]
  | table t =>
    obtain ⟨-, rfl⟩ := carryOut_dropColumns h
    exact (hasTable_setColumns (c.releaseColumns d table columns) table _ t).trans hp
  | index t n =>
    have hkept := releaseColumns_keeps (p := .index t n) h hnot hp
    obtain ⟨-, rfl⟩ := carryOut_dropColumns h
    exact hkept
  | constraint t n =>
    have hkept := releaseColumns_keeps (p := .constraint t n) h hnot hp
    obtain ⟨-, rfl⟩ := carryOut_dropColumns h
    exact hkept
  | key t =>
    have hkept := releaseColumns_keeps (p := .key t) h hnot hp
    obtain ⟨-, rfl⟩ := carryOut_dropColumns h
    exact hkept

/-- Dropping fewer columns takes less away. -/
theorem removes_dropColumns_mono {columns fewer : List String} (hsub : fewer ⊆ columns)
    (h : (Change.dropColumns table columns).removes d p = false) :
    (Change.dropColumns table fewer).removes d p = false := by
  cases p with
  | column t n =>
    simp only [Change.removes, Bool.and_eq_false_imp, decide_eq_false_iff_not] at h ⊢
    exact fun ht hn => h ht (List.map_subset _ hsub hn)
  | _ => exact h

theorem carryOutAll_dropColumns_shows {columns : List String}
    (h : c.carryOutAll d ((Change.dropColumns table columns).statements d) = .ok c')
    (hnames : ∀ k ∈ columns, Name.check d k = .ok ()) (hp : c.Shows p)
    (hnot : (Change.dropColumns table columns).removes d p = false) : c'.Shows p := by
  simp only [Change.statements] at h
  split at h
  · exact dropColumns_shows (carryOutAll_one h) hnames hp hnot
  · induction columns generalizing c with
    | nil =>
      cases h
      exact hp
    | cons k rest ih =>
      obtain ⟨c₁, hone, hrest⟩ := carryOutAll_cons_ok.mp h
      obtain ⟨hk, hothers⟩ := List.forall_mem_cons.mp hnames
      refine ih hothers ?_ (removes_dropColumns_mono (List.subset_cons_self k rest) hnot) hrest
      refine dropColumns_shows hone (fun m hm => List.mem_singleton.mp hm ▸ hk) hp ?_
      exact removes_dropColumns_mono (by simp) hnot

theorem dropIndex_shows (h : c.carryOut d (.dropIndex table (d.fit name)) = .ok c')
    (hp : c.Shows p) (hnot : (Change.dropIndex table name).removes d p = false) : c'.Shows p := by
  rw [carryOut_dropIndex h]
  cases p with
  | index t n =>
    obtain ⟨i, hi, htable, hname⟩ := has_index.mp hp
    refine has_index.mpr ⟨i, List.mem_filter.mpr ⟨hi, decide_eq_true fun hdropped => ?_⟩, htable,
      hname⟩
    -- an index that is dropped has the name, and on some dialects the table too
    have hboth := (List.mem_filter.mp hdropped).2
    rw [Bool.and_eq_true_iff, Bool.or_eq_true_iff] at hboth
    have hlike := sameName_trans (sameName_symm hname) hboth.1
    simp only [Change.removes, hlike, Bool.true_and, Bool.or_eq_false_iff] at hnot
    rcases hboth.2 with hshared | hsame
    · rw [hshared] at hnot
      cases hnot.1
    · rw [sameName_trans (sameName_symm htable) hsame] at hnot
      cases hnot.2
  | _ => exact hp

/-- A constraint stays if the request to drop one means another. -/
theorem dropConstraint_keeps {kind : ConstraintKind} {k : Constraint}
    (h : c.carryOut d (.dropConstraint table name kind) = .ok c') (hk : k ∈ c.constraints)
    (hnot : sameName k.table table = true → sameName k.name name = false ∧
      ¬ (d = .mysql ∧ kind = .primaryKey)) : k ∈ c'.constraints := by
  rw [carryOut_dropConstraint h]
  refine List.mem_filter.mpr ⟨hk, decide_eq_true fun hmeant => ?_⟩
  have hboth := (List.mem_filter.mp hmeant).2
  rw [Bool.and_eq_true_iff] at hboth
  obtain ⟨hname, hkind⟩ := hnot hboth.1
  rw [if_neg hkind, hname] at hboth
  cases hboth.2

theorem dropConstraint_shows {kind : ConstraintKind}
    (h : c.carryOut d (.dropConstraint table (d.fit name) kind) = .ok c') (hp : c.Shows p)
    (hnot : (Change.dropConstraint table name kind).removes d p = false) : c'.Shows p := by
  cases p with
  | constraint t n =>
    obtain ⟨k, hk, htable, hname⟩ := has_constraint.mp hp
    refine has_constraint.mpr ⟨k, dropConstraint_keeps h hk fun hsame => ?_, htable, hname⟩
    simp only [Change.removes, sameName_trans (sameName_symm htable) hsame, Bool.true_and,
      Bool.or_eq_false_iff, decide_eq_false_iff_not] at hnot
    exact ⟨sameName_false hname hnot.1, hnot.2⟩
  | key t =>
    obtain ⟨k, hk, hkey⟩ := List.any_eq_true.mp hp
    have htable := (Bool.and_eq_true_iff.mp hkey).1
    refine List.any_eq_true.mpr ⟨k, dropConstraint_keeps h hk fun hsame => ?_, hkey⟩
    rw [Change.removes, sameName_trans (sameName_symm htable) hsame] at hnot
    cases hnot
  | _ =>
    rw [carryOut_dropConstraint h]
    exact hp

theorem alterColumn_shows {k : Column} (h : c.carryOut d (.alterColumn table k) = .ok c')
    (hp : c.Shows p) : c'.Shows p := by
  cases p with
  | column t n =>
    show n ∈ c'.columnNames t
    rw [alterColumn_columnNames h]
    exact hp
  | table t =>
    obtain ⟨-, rfl⟩ := carryOut_alterColumn h
    exact (hasTable_setColumns c table _ t).trans hp
  | _ =>
    obtain ⟨-, rfl⟩ := carryOut_alterColumn h
    exact hp

/-- **What is there before a change** is there afterwards, or the change can take it away. -/
theorem shows_of_kept {y : Change} (hdue : c.due d y = .ok l)
    (hcarried : c.carryOutAll d l = .ok c') (hp : c.Shows p) (hnot : y.removes d p = false) :
    c'.Shows p := by
  by_cases hy : y.IsAdditive
  · have hl : ∀ st ∈ l, st.IsAdditive := fun st hst => (due_isAdditive hdue st hst).mpr hy
    exact (carryOutAll_grows hl hcarried).1.shows hp
  rcases due_narrowed hdue with rfl | hbuild
  · cases hcarried
    exact hp
  obtain ⟨hcheck, -, rfl⟩ := Change.build_eq_ok.mp hbuild
  cases y with
  | dropTable t => exact dropTable_shows (carryOutAll_one hcarried) hp hnot
  | dropIndex t n =>
    have hone := carryOutAll_one hcarried
    rw [Dialect.fit_fit] at hone
    exact dropIndex_shows hone hp hnot
  | dropColumns t columns =>
    exact carryOutAll_dropColumns_shows hcarried (Change.check_dropColumns hcheck).2 hp
      (removes_dropColumns_mono (List.filter_subset_self _) hnot)
  | alterColumnType t k => exact alterColumn_shows (carryOutAll_one hcarried) hp
  | dropConstraint t n kind =>
    have hone := carryOutAll_one hcarried
    rw [Dialect.fit_fit] at hone
    exact dropConstraint_shows hone hp hnot
  | _ => exact (hy trivial).elim

/-! ## What lasts -/

/-- A primary key that is dropped is gone, but on PostgreSQL. -/
theorem dropConstraint_key (hd : d ≠ .postgres)
    (hdue : c.due d (.dropConstraint table name .primaryKey) = .ok l)
    (hcarried : c.carryOutAll d l = .ok c') : c'.hasKey table = false := by
  obtain ⟨hsupported, ⟨hnone, rfl⟩ | ⟨-, hbuild⟩⟩ := due_dropConstraint.mp hdue
  · cases hcarried
    exact hnone
  obtain ⟨-, -, rfl⟩ := Change.build_eq_ok.mp hbuild
  have hmysql : d = .mysql := by
    cases d with
    | sqlite => cases hsupported
    | mysql => rfl
    | postgres => exact (hd rfl).elim
  subst hmysql
  rw [carryOut_dropConstraint (carryOutAll_one hcarried), hasKey, List.any_eq_false]
  intro k hk hkey
  -- on MySQL every primary key of the table is meant
  obtain ⟨hmem, hkept⟩ := List.mem_filter.mp hk
  rw [Bool.and_eq_true_iff] at hkey
  refine of_decide_eq_true hkept (List.mem_filter.mpr ⟨hmem, ?_⟩)
  rw [if_pos ⟨rfl, rfl⟩, hkey.1, hkey.2]
  rfl

/-- **A change that has succeeded is done.** -/
theorem done_of_carried {x : Change} (hdue : c.due d x = .ok l)
    (hcarried : c.carryOutAll d l = .ok c') : Done d c' x := by
  cases x with
  | createTable t => exact (settles_createTable hcarried hdue).done
  | dropTable t => exact (settles_dropTable hcarried hdue).done
  | createIndex i => exact (settles_createIndex hcarried hdue).done
  | dropIndex t n => exact (settles_dropIndex hcarried hdue).done
  | addColumns t columns => exact (settles_addColumns hcarried hdue).done
  | dropColumns t columns => exact (settles_dropColumns hcarried hdue).done
  | addConstraint k => exact (settles_addConstraint hcarried hdue).done
  | alterColumnType t k =>
    obtain ⟨hhas, hbuild⟩ := due_alterColumnType.mp hdue
    obtain ⟨hcheck, -, rfl⟩ := Change.build_eq_ok.mp hbuild
    refine ⟨fun p hp => ?_, by simp [Change.clears]⟩
    rw [List.mem_singleton.mp hp]
    have hname := Change.check_alterColumnType hcheck
    exact alterColumn_shows (carryOutAll_one hcarried) ((has_column_iff hname).mp hhas)
  | dropConstraint t n kind =>
    by_cases hkey : d = .postgres ∧ kind = .primaryKey
    · obtain ⟨rfl, rfl⟩ := hkey
      exact ⟨by simp [Change.ensures], by simp [Change.clears]⟩
    · refine (settles_dropConstraint hcarried (fun hkind => ?_) hdue).done
      subst hkind
      exact dropConstraint_key (fun hd => hkey ⟨hd, rfl⟩) hdue hcarried

/-- **What a change has done lasts** under a change that it does not clash with. -/
theorem Done.lasts {x y : Change} (h : Done d c x) (hdue : c.due d y = .ok l)
    (hcarried : c.carryOutAll d l = .ok c') (hnot : x.clashes d y = false) : Done d c' x := by
  rw [Change.clashes, Bool.or_eq_false_iff, List.any_eq_false, List.any_eq_false] at hnot
  obtain ⟨hkept, hnew⟩ := hnot
  refine ⟨fun p hp => ?_, fun p hp hshown => ?_⟩
  · exact shows_of_kept hdue hcarried (h.there p hp) (Bool.eq_false_iff.mpr (hkept p hp))
  · rcases shows_of_added hdue hcarried hshown with hold | hadded
    · exact h.gone p hp hold
    · exact hnew p hp hadded

end Catalog
end SchemaMigration