import SchemaMigration.Proofs.SafeDrops

/-!
# What indexes and constraints are over

An index and a constraint are over columns of their table (`Catalog.Covered`).  A statement that
brings one about names columns that are there, and one that drops columns takes them out of whatever
was over them, so all statements keep a catalog so (`Catalog.carryOut_covered`).  Nothing is over a
column that is still to come, therefore (`Catalog.Covered.unused`).
-/
namespace SchemaMigration
namespace Catalog

variable {d : Dialect} {c c' : Catalog} {table : String} {names : List String}

/-- The table has columns of all these names. -/
def Knows (c : Catalog) (table : String) (names : List String) : Prop :=
  ∀ n ∈ names, n.map Char.toLower ∈ c.columnNames table

/-- Indexes and constraints are over columns of their tables. -/
structure Covered (c : Catalog) : Prop where
  indexes : ∀ i ∈ c.indexes, c.Knows i.table i.columns
  constraints : ∀ k ∈ c.constraints, c.Knows k.table k.columns

theorem mem_columnNames {n : String} : n.map Char.toLower ∈ c.columnNames table ↔
    ∃ k ∈ c.columnsOf table, sameName k.name n = true := by
  simp only [columnNames, List.mem_map, sameName_iff]

theorem columnNames_congr {other : String} (h : sameName table other = true) :
    c.columnNames table = c.columnNames other := by
  rw [columnNames, columnNames, columnsOf_congr h]

theorem Knows.mono (h : c.Knows table names) (hsub : c.columnNames table ⊆ c'.columnNames table) :
    c'.Knows table names :=
  fun n hn => hsub (h n hn)

/-- Nothing is over a column that is still to come. -/
theorem Covered.unused (h : c.Covered) {n : String}
    (hno : n.map Char.toLower ∉ c.columnNames table) : c.usesColumn table n = false := by
  have hnone : ∀ {other : String} {columns : List String}, c.Knows other columns →
      sameName other table = true → columns.any (sameName · n) = false := by
    intro other columns hknows htable
    rw [← Bool.not_eq_true, List.any_eq_true]
    rintro ⟨m, hm, hsame⟩
    rw [← sameName_iff.mp hsame, ← columnNames_congr htable] at hno
    exact hno (hknows m hm)
  rw [usesColumn, Bool.or_eq_false_iff, List.any_eq_false, List.any_eq_false]
  refine ⟨fun i hi => ?_, fun k hk => ?_⟩
  · rw [Bool.and_eq_true, not_and, Bool.not_eq_true]
    exact hnone (h.indexes i hi)
  · rw [Bool.and_eq_true, not_and, Bool.not_eq_true]
    exact hnone (h.constraints k hk)

/-! ## One statement -/

/-- With all the columns that there were, all depends on what is new. -/
theorem Covered.grown (h : c.Covered) (hcolumns : ∀ t, c.columnNames t ⊆ c'.columnNames t)
    (hindexes : ∀ i ∈ c'.indexes, i ∈ c.indexes ∨ c'.Knows i.table i.columns)
    (hconstraints : ∀ k ∈ c'.constraints, k ∈ c.constraints ∨ c'.Knows k.table k.columns) :
    c'.Covered where
  indexes i hi := (hindexes i hi).elim (fun hold => (h.indexes i hold).mono (hcolumns _)) id
  constraints k hk :=
    (hconstraints k hk).elim (fun hold => (h.constraints k hold).mono (hcolumns _)) id

@[simp] theorem stored_columns (d : Dialect) (k : Constraint) :
    (stored d k).columns = k.columns := by
  unfold stored
  split <;> rfl

/-- What is left of columns is not among those that are dropped. -/
theorem columnsLeft_eq_some {dropped columns left : List String}
    (h : columnsLeft d dropped columns = some left) :
    left = columns.filter fun k => !dropped.any (sameName k ·) := by
  simp only [columnsLeft] at h
  split at h
  · next hall =>
    cases h
    exact hall.symm
  · split at h
    · cases h
      rfl
    · cases h

theorem Knows.dropColumns {other : String} {dropped left : List String}
    (h : c.carryOut d (.dropColumns table dropped) = .ok c') (hknows : c.Knows other names)
    (hleft : if sameName other table then columnsLeft d dropped names = some left
      else left = names) : c'.Knows other left := by
  split at hleft
  · next hsame =>
    intro n hn
    rw [columnsLeft_eq_some hleft] at hn
    obtain ⟨hmem, hkept⟩ := List.mem_filter.mp hn
    obtain ⟨k, hk, hname⟩ := mem_columnNames.mp (hknows n hmem)
    refine mem_columnNames.mpr ⟨k, ?_, hname⟩
    rw [columnsOf_congr hsame] at hk ⊢
    rw [dropColumns_columnsOf h]
    -- the names that are dropped are none of the index's or the constraint's, so not the column's
    refine List.mem_filter.mpr ⟨hk, ?_⟩
    simpa only [sameName, sameName_iff.mp hname] using hkept
  · next hother =>
    rw [hleft]
    refine hknows.mono ?_
    rw [columnNames, columnNames, dropColumns_columnsOf_other h (by simpa using hother)]
    exact List.Subset.refl _

/-- **Every statement keeps indexes and constraints over columns of their tables.** -/
theorem carryOut_covered {st : Statement} (h : c.carryOut d st = .ok c') (hc : c.Covered) :
    c'.Covered := by
  cases st with
  | createTable name columns key =>
    have hknown := createTable_knowsColumns h
    have hnames := columnNames_createTable h
    have hadds : (Statement.createTable name columns key).IsAdditive := trivial
    have hgrows := (carryOut_grows hadds h).1
    obtain ⟨-, rfl⟩ := carryOut_createTable h
    refine hc.grown hgrows.columns (fun i hi => .inl hi) fun k hk => ?_
    refine (List.mem_append.mp hk).imp id fun hk => ?_
    obtain ⟨key, hkey, rfl⟩ := List.mem_map.mp hk
    intro n hn
    rw [stored_columns] at hn
    obtain ⟨col, hcol, hname⟩ := hknown key (Option.mem_toList.mp hkey) n hn
    rw [stored_table, hnames, ← sameName_iff.mp hname]
    exact List.mem_map_of_mem hcol
  | dropTable name =>
    have hothers : ∀ {t : String} {columns : List String}, (!sameName t name) = true →
        c.Knows t columns → c'.Knows t columns := by
      intro t columns hkept hknows
      refine hknows.mono ?_
      rw [columnNames, columnNames, dropTable_columnsOf h (by simpa using hkept)]
      exact List.Subset.refl _
    have hc' := carryOut_dropTable h
    constructor
    · intro i hi
      rw [hc'] at hi
      obtain ⟨hmem, hkept⟩ := List.mem_filter.mp hi
      exact hothers hkept (hc.indexes i hmem)
    · intro k hk
      rw [hc'] at hk
      obtain ⟨hmem, hkept⟩ := List.mem_filter.mp hk
      exact hothers hkept (hc.constraints k hmem)
  | createIndex i =>
    have hknown := createIndex_knowsColumns h
    obtain ⟨-, rfl⟩ := carryOut_createIndex h
    refine hc.grown (fun _ => List.Subset.refl _) (fun j hj => ?_) fun k hk => .inl hk
    refine (List.mem_append.mp hj).imp id fun hj => ?_
    cases List.mem_singleton.mp hj
    exact fun n hn => mem_columnNames.mpr (hknown n hn)
  | dropIndex t name =>
    rw [carryOut_dropIndex h]
    exact hc.grown (fun _ => List.Subset.refl _) (fun i hi => .inl (List.mem_of_mem_filter hi))
      fun k hk => .inl hk
  | addColumns t columns =>
    have hadds : (Statement.addColumns t columns).IsAdditive := trivial
    have hgrows := (carryOut_grows hadds h).1
    obtain ⟨-, rfl⟩ := carryOut_addColumns h
    exact hc.grown hgrows.columns (fun i hi => .inl hi) fun k hk => .inl hk
  | dropColumns t columns =>
    have hc' := (carryOut_dropColumns h).2
    constructor
    · intro i hi
      rw [hc'] at hi
      obtain ⟨j, hj, hleft⟩ := List.mem_filterMap.mp hi
      split at hleft
      · next hsame =>
        obtain ⟨left, hsome, rfl⟩ := Option.map_eq_some_iff.mp hleft
        exact (hc.indexes j hj).dropColumns h (by rw [if_pos hsame]; exact hsome)
      · next hother =>
        cases hleft
        exact (hc.indexes _ hj).dropColumns h (by rw [if_neg hother])
    · intro k hk
      rw [hc'] at hk
      obtain ⟨j, hj, hleft⟩ := List.mem_filterMap.mp hk
      split at hleft
      · next hsame =>
        obtain ⟨left, hsome, rfl⟩ := Option.map_eq_some_iff.mp hleft
        exact (hc.constraints j hj).dropColumns h (by rw [if_pos hsame]; exact hsome)
      · next hother =>
        cases hleft
        exact (hc.constraints _ hj).dropColumns h (by rw [if_neg hother])
  | alterColumn t k =>
    have hnames : ∀ u, c'.columnNames u = c.columnNames u := fun _ => alterColumn_columnNames h
    obtain ⟨-, rfl⟩ := carryOut_alterColumn h
    exact hc.grown (fun u => by rw [hnames]; exact List.Subset.refl _) (fun i hi => .inl hi)
      fun k hk => .inl hk
  | addConstraint k =>
    have hknown := addConstraint_knowsColumns h
    obtain ⟨-, rfl⟩ := carryOut_addConstraint h
    refine hc.grown (fun _ => List.Subset.refl _) (fun i hi => .inl hi) fun j hj => ?_
    refine (List.mem_append.mp hj).imp id fun hj => ?_
    cases List.mem_singleton.mp hj
    intro n hn
    rw [stored_columns] at hn
    rw [stored_table]
    exact mem_columnNames.mpr (hknown n hn)
  | dropConstraint t name kind =>
    rw [carryOut_dropConstraint h]
    exact hc.grown (fun _ => List.Subset.refl _) (fun i hi => .inl hi)
      fun k hk => .inl (List.mem_of_mem_filter hk)
  | recordVersion history v =>
    obtain ⟨-, rfl⟩ := recordVersion_recorded h
    exact hc.grown (fun _ => List.Subset.refl _) (fun i hi => .inl hi) fun k hk => .inl hk
  | verbatim text => cases h

theorem carryOutAll_covered {l : List Statement} (h : c.carryOutAll d l = .ok c')
    (hc : c.Covered) : c'.Covered := by
  induction l generalizing c with
  | nil =>
    cases h
    exact hc
  | cons st rest ih =>
    obtain ⟨c₁, hone, hrest⟩ := carryOutAll_cons_ok.mp h
    exact ih hrest (carryOut_covered hone hc)

/-- What statements make of an empty catalog is covered. -/
theorem covered_of_empty {l : List Statement} (h : carryOutAll d {} l = .ok c) : c.Covered :=
  carryOutAll_covered h ⟨fun _ => nofun, fun _ => nofun⟩

end Catalog
end SchemaMigration
