import SchemaMigration.Proofs.DueStatements

/-!
# Effects of statements

What a catalog is after a statement that it carries out, one lemma for each kind of statement, and
what can be looked up in it then.
-/
namespace SchemaMigration
namespace Catalog

variable {d : Dialect} {c c' : Catalog} {table name : String}

/-! ## Tables by name -/

theorem table?_congr {a b : String} (h : sameName a b = true) : c.table? a = c.table? b := by
  simp only [table?, sameName, sameName_iff.mp h]

theorem columnsOf_congr {a b : String} (h : sameName a b = true) :
    c.columnsOf a = c.columnsOf b := by
  rw [columnsOf, columnsOf, table?_congr h]

theorem table?_name {t : StoredTable} (h : c.table? name = some t) :
    sameName t.name name = true :=
  List.find?_some (p := fun s : StoredTable => sameName s.name name) h

theorem hasTable_of_table? {t : StoredTable} (h : c.table? name = some t) :
    c.hasTable name = true :=
  List.any_eq_true.mpr ⟨t, List.mem_of_find?_eq_some h, table?_name h⟩

theorem columnsOf_table? {t : StoredTable} (h : c.table? name = some t) :
    c.columnsOf name = t.columns := by
  rw [columnsOf, h]
  rfl

theorem table?_of_hasTable (h : c.hasTable name = true) : ∃ t, c.table? name = some t := by
  obtain ⟨t, ht, hname⟩ := List.any_eq_true.mp h
  exact Option.isSome_iff_exists.mp (List.find?_isSome.mpr ⟨t, ht, hname⟩)

theorem table?_eq_none (h : c.hasTable name = false) : c.table? name = none := by
  cases ht : c.table? name with
  | none => rfl
  | some t => cases h.symm.trans (hasTable_of_table? ht)

section SetColumns

variable {columns : List Column}

theorem table?_setColumns : (c.setColumns table columns).table? name = (c.table? name).map fun t =>
    if sameName t.name table then { t with columns := columns } else t := by
  simp only [table?, setColumns, List.find?_map]
  have hname : ((fun t : StoredTable => sameName t.name name) ∘ fun t : StoredTable =>
      if sameName t.name table then { t with columns := columns } else t) =
      fun t => sameName t.name name := by
    funext t
    simp only [Function.comp]
    split <;> rfl
  rw [hname]

/-- The columns of the table are the new ones. -/
theorem columnsOf_setColumns (h : c.hasTable table = true) :
    (c.setColumns table columns).columnsOf table = columns := by
  obtain ⟨t, ht⟩ := table?_of_hasTable h
  rw [columnsOf, table?_setColumns, ht]
  simp [table?_name ht]

/-- The columns of other tables stay. -/
theorem columnsOf_setColumns_other (h : sameName name table = false) :
    (c.setColumns table columns).columnsOf name = c.columnsOf name := by
  rw [columnsOf, table?_setColumns, columnsOf]
  cases ht : c.table? name with
  | none => rfl
  | some t => simp [sameName_false (table?_name ht) h]

theorem setColumns_setColumns {others : List Column} :
    (c.setColumns table columns).setColumns table others = c.setColumns table others := by
  simp only [setColumns, List.map_map, mk.injEq, and_self, and_true]
  refine List.map_congr_left fun t _ => ?_
  by_cases h : sameName t.name table = true
  · simp [h]
  · simp [h]

end SetColumns

@[simp] theorem stored_table (d : Dialect) (k : Constraint) : (stored d k).table = k.table := by
  unfold stored
  split <;> rfl

@[simp] theorem stored_kind (d : Dialect) (k : Constraint) : (stored d k).kind = k.kind := by
  unfold stored
  split <;> rfl

theorem stored_unique {k : Constraint} (h : k.kind = .unique) : stored d k = k := by
  simp [stored, h]

/-! ## One statement -/

theorem appendColumns_eq_ok {sofar added columns : List Column}
    (h : appendColumns sofar added = .ok columns) : columns = sofar ++ added := by
  induction added generalizing sofar with
  | nil =>
    cases h
    rw [List.append_nil]
  | cons k rest ih =>
    rw [appendColumns] at h
    split at h
    · cases h
    · rw [ih h, List.append_assoc]
      rfl

theorem removeColumns_eq_ok {sofar columns : List Column} {names : List String}
    (h : removeColumns sofar names = .ok columns) :
    columns = sofar.filter fun k => !names.any (sameName k.name ·) := by
  induction names generalizing sofar with
  | nil =>
    cases h
    simp
  | cons n rest ih =>
    rw [removeColumns] at h
    split at h
    · rw [ih h, List.filter_filter]
      refine List.filter_congr fun k _ => ?_
      simp [Bool.and_comm]
    · cases h

theorem unknownColumn?_eq_none {columns : List Column} {names : List String} :
    unknownColumn? columns names = none ↔ ∀ n ∈ names, ∃ k ∈ columns, sameName k.name n = true := by
  simp [unknownColumn?, List.find?_eq_none]

theorem carryOut_createTable {columns : List Column} {key : Option PrimaryKey}
    (h : c.carryOut d (.createTable name columns key) = .ok c') : c.hasTable name = false ∧
      c' = { c with
        tables := c.tables ++ [⟨name, columns⟩]
        constraints := c.constraints ++
          key.toList.map fun k => stored d ⟨name, k.name, .primaryKey, k.columns⟩ } := by
  simp only [carryOut] at h
  split at h
  · cases h
  next hfree =>
  split at h
  · cases h
  · split at h
    · cases h
    · cases h
      exact ⟨by simpa using hfree, rfl⟩

/-- The primary key of a new table is over columns of it. -/
theorem createTable_knowsColumns {columns : List Column} {key : Option PrimaryKey}
    (h : c.carryOut d (.createTable name columns key) = .ok c') :
    ∀ k ∈ key, ∀ n ∈ k.columns, ∃ col ∈ columns, sameName col.name n = true := by
  simp only [carryOut] at h
  split at h
  · cases h
  split at h
  · cases h
  split at h
  · cases h
  next hknown =>
  intro k hk n hn
  refine unknownColumn?_eq_none.mp hknown n (List.mem_flatMap.mpr ⟨k, ?_, hn⟩)
  exact Option.mem_toList.mpr hk

theorem carryOut_createIndex {i : Index} (h : c.carryOut d (.createIndex i) = .ok c') :
    c.hasTable i.table = true ∧ c' = { c with indexes := c.indexes ++ [i] } := by
  simp only [carryOut] at h
  split at h
  · cases h
  next t ht =>
  split at h
  · cases h
  · split at h
    · cases h
    · split at h
      · cases h
      · cases h
        exact ⟨hasTable_of_table? ht, rfl⟩

/-- A new index is over columns of its table. -/
theorem createIndex_knowsColumns {i : Index} (h : c.carryOut d (.createIndex i) = .ok c') :
    ∀ n ∈ i.columns, ∃ col ∈ c.columnsOf i.table, sameName col.name n = true := by
  simp only [carryOut] at h
  split at h
  · cases h
  next t ht =>
  split at h
  · cases h
  split at h
  · cases h
  split at h
  · cases h
  next hknown =>
  rw [columnsOf, ht]
  exact unknownColumn?_eq_none.mp hknown

theorem carryOut_dropIndex (h : c.carryOut d (.dropIndex table name) = .ok c') :
    c' = { c with indexes := c.indexes.filter fun i => i ∉ c.indexesNamed d table name } := by
  simp only [carryOut] at h
  split at h
  · cases h
  · cases h
    rfl

theorem carryOut_addColumns {columns : List Column}
    (h : c.carryOut d (.addColumns table columns) = .ok c') :
    c.hasTable table = true ∧ c' = c.setColumns table (c.columnsOf table ++ columns) := by
  simp only [carryOut] at h
  split at h
  · cases h
  next t ht =>
  cases happ : appendColumns t.columns columns with
  | error f =>
    rw [happ] at h
    cases h
  | ok all =>
    rw [happ] at h
    cases h
    refine ⟨hasTable_of_table? ht, ?_⟩
    rw [appendColumns_eq_ok happ, columnsOf, ht]
    rfl

theorem carryOut_dropColumns {columns : List String}
    (h : c.carryOut d (.dropColumns table columns) = .ok c') : c.hasTable table = true ∧
      c' = (c.releaseColumns d table columns).setColumns table
        ((c.columnsOf table).filter fun k => !columns.any (sameName k.name ·)) := by
  simp only [carryOut] at h
  split at h
  · cases h
  next t ht =>
  split at h
  · cases h
  · cases hrem : removeColumns t.columns columns with
    | error f =>
      rw [hrem] at h
      cases h
    | ok left =>
      rw [hrem] at h
      cases h
      refine ⟨hasTable_of_table? ht, ?_⟩
      rw [removeColumns_eq_ok hrem, columnsOf, ht]
      rfl

/-- The columns that are left of the table. -/
theorem dropColumns_columnsOf {columns : List String}
    (h : c.carryOut d (.dropColumns table columns) = .ok c') :
    c'.columnsOf table = (c.columnsOf table).filter fun k => !columns.any (sameName k.name ·) := by
  obtain ⟨hhas, rfl⟩ := carryOut_dropColumns h
  exact columnsOf_setColumns hhas

theorem dropColumns_columnsOf_other {columns : List String}
    (h : c.carryOut d (.dropColumns table columns) = .ok c')
    (hother : sameName name table = false) : c'.columnsOf name = c.columnsOf name := by
  obtain ⟨-, rfl⟩ := carryOut_dropColumns h
  exact columnsOf_setColumns_other hother

theorem carryOut_alterColumn {k : Column} (h : c.carryOut d (.alterColumn table k) = .ok c') :
    c.hasTable table = true ∧ c' = c.setColumns table ((c.columnsOf table).map fun old =>
      if sameName old.name k.name then altered d old k else old) := by
  simp only [carryOut] at h
  split at h
  · cases h
  next t ht =>
  split at h
  · cases h
    refine ⟨hasTable_of_table? ht, ?_⟩
    rw [columnsOf, ht]
    rfl
  · cases h

theorem carryOut_dropTable (h : c.carryOut d (.dropTable name) = .ok c') : c' = {
    tables := c.tables.filter fun t => !sameName t.name name
    indexes := c.indexes.filter fun i => !sameName i.table name
    constraints := c.constraints.filter fun k => !sameName k.table name
    recorded := c.recorded.filter fun r => !sameName r.1 name } := by
  simp only [carryOut] at h
  split at h
  · cases h
    rfl
  · cases h

theorem carryOut_addConstraint {k : Constraint} (h : c.carryOut d (.addConstraint k) = .ok c') :
    c.hasTable k.table = true ∧ c' = { c with constraints := c.constraints ++ [stored d k] } := by
  simp only [carryOut] at h
  split at h
  · cases h
  next t ht =>
  split at h
  · cases h
  · split at h
    · cases h
    · cases h
      exact ⟨hasTable_of_table? ht, rfl⟩

/-- A new constraint is over columns of its table. -/
theorem addConstraint_knowsColumns {k : Constraint}
    (h : c.carryOut d (.addConstraint k) = .ok c') :
    ∀ n ∈ k.columns, ∃ col ∈ c.columnsOf k.table, sameName col.name n = true := by
  simp only [carryOut] at h
  split at h
  · cases h
  next t ht =>
  split at h
  · cases h
  split at h
  · cases h
  next hknown =>
  rw [columnsOf, ht]
  exact unknownColumn?_eq_none.mp hknown

theorem carryOut_dropConstraint {kind : ConstraintKind}
    (h : c.carryOut d (.dropConstraint table name kind) = .ok c') :
    c' = { c with
      constraints := c.constraints.filter fun k => k ∉ c.constraintsMeant d table name kind } := by
  simp only [carryOut] at h
  split at h
  · cases h
  · cases h
    rfl

end Catalog
end SchemaMigration
