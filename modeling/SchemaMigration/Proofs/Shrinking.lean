import SchemaMigration.Proofs.Growth

/-!
# Changes that take away

Statements that create or add nothing bring nothing about: what can be looked up afterwards could be
looked up before (`Catalog.carryOutAll_shrinks`).
-/
namespace SchemaMigration
namespace Catalog

variable {d : Dialect} {c c' : Catalog} {l : List Statement} {table name : String}

/-- A table that is dropped leaves the columns of others alone. -/
theorem dropTable_columnsOf (h : c.carryOut d (.dropTable name) = .ok c')
    (htable : sameName table name = false) : c'.columnsOf table = c.columnsOf table := by
  rw [carryOut_dropTable h, columnsOf, columnsOf, table?, table?, List.find?_filter]
  refine congrArg (fun q : StoredTable → Bool => ((c.tables.find? q).map (·.columns)).getD [])
    (funext fun t => ?_)
  by_cases ht : sameName t.name table = true
  · simp [ht, sameName_false ht htable]
  · simp [ht]

/-- The columns of a dropped table are gone. -/
theorem dropTable_columnsOf_self (h : c.carryOut d (.dropTable name) = .ok c')
    (htable : sameName table name = true) : c'.columnsOf table = [] := by
  rw [columnsOf_congr htable, columnsOf, table?_eq_none]
  · rfl
  · rw [carryOut_dropTable h, hasTable, List.any_filter]
    simp

/-- Altering a column leaves the names of columns as they are. -/
theorem alterColumn_columnNames {k : Column} (h : c.carryOut d (.alterColumn name k) = .ok c') :
    c'.columnNames table = c.columnNames table := by
  obtain ⟨hhas, rfl⟩ := carryOut_alterColumn h
  by_cases hsame : sameName table name = true
  · rw [columnNames, columnNames, columnsOf_congr hsame, columnsOf_congr hsame,
      columnsOf_setColumns hhas, List.map_map]
    refine List.map_congr_left fun old _ => ?_
    by_cases hold : sameName old.name k.name = true
    · have hname : (altered d old k).name = k.name := by cases d <;> rfl
      simp only [Function.comp, if_pos hold, hname]
      exact (sameName_iff.mp hold).symm
    · simp [hold]
  · rw [columnNames, columnNames, columnsOf_setColumns_other (by simpa using hsame)]

section ReleaseColumns

variable {dropped : List String}

/-- An index that is left of one has its table and its name. -/
theorem mem_releaseColumns_indexes {i : Index}
    (h : i ∈ (c.releaseColumns d table dropped).indexes) :
    ∃ j ∈ c.indexes, j.table = i.table ∧ j.name = i.name := by
  obtain ⟨j, hj, hi⟩ := List.mem_filterMap.mp h
  refine ⟨j, hj, ?_⟩
  split at hi
  · obtain ⟨left, -, rfl⟩ := Option.map_eq_some_iff.mp hi
    exact ⟨rfl, rfl⟩
  · cases hi
    exact ⟨rfl, rfl⟩

/-- A constraint that is left of one has its table, its name and its kind. -/
theorem mem_releaseColumns_constraints {k : Constraint}
    (h : k ∈ (c.releaseColumns d table dropped).constraints) :
    ∃ j ∈ c.constraints, j.table = k.table ∧ j.name = k.name ∧ j.kind = k.kind := by
  obtain ⟨j, hj, hk⟩ := List.mem_filterMap.mp h
  refine ⟨j, hj, ?_⟩
  split at hk
  · obtain ⟨left, -, rfl⟩ := Option.map_eq_some_iff.mp hk
    exact ⟨rfl, rfl, rfl⟩
  · cases hk
    exact ⟨rfl, rfl, rfl⟩

theorem releaseColumns_grows : Grows (c.releaseColumns d table dropped) c where
  tables _ h := h
  columns _ := List.Subset.refl _
  indexes t n h := by
    obtain ⟨i, hi, htable, hname⟩ := has_index.mp h
    obtain ⟨j, hj, ht, hn⟩ := mem_releaseColumns_indexes hi
    exact has_index.mpr ⟨j, hj, ht ▸ htable, hn ▸ hname⟩
  constraints t n kind h := by
    cases kind with
    | primaryKey =>
      obtain ⟨k, hk, hkey⟩ := List.any_eq_true.mp h
      obtain ⟨j, hj, ht, -, hkind⟩ := mem_releaseColumns_constraints hk
      exact List.any_eq_true.mpr ⟨j, hj, by rw [ht, hkind]; exact hkey⟩
    | unique =>
      obtain ⟨k, hk, htable, hname⟩ := has_constraint.mp h
      obtain ⟨j, hj, ht, hn, -⟩ := mem_releaseColumns_constraints hk
      exact has_constraint.mpr ⟨j, hj, ht ▸ htable, hn ▸ hname⟩

/-- Replacing the columns of a table by some of them brings nothing about. -/
theorem setColumns_grows {columns : List Column} (hhas : c.hasTable table = true)
    (hsub : columns ⊆ c.columnsOf table) : Grows (c.setColumns table columns) c where
  tables t h := (hasTable_setColumns c table columns t).symm.trans h
  columns t := by
    by_cases hsame : sameName t table = true
    · rw [columnNames, columnNames, columnsOf_congr hsame, columnsOf_congr hsame,
        columnsOf_setColumns hhas]
      exact List.map_subset _ hsub
    · rw [columnNames, columnsOf_setColumns_other (by simpa using hsame)]
      exact List.Subset.refl _
  indexes _ _ h := h
  constraints _ _ kind h := by cases kind <;> exact h

end ReleaseColumns

/-- **What creates or adds nothing brings nothing about.** -/
theorem carryOut_shrinks {st : Statement} (hst : ¬ st.IsAdditive) (h : c.carryOut d st = .ok c') :
    Grows c' c := by
  cases st with
  | dropTable n =>
    have hcolumns : ∀ t, c'.columnNames t ⊆ c.columnNames t := by
      intro t
      by_cases ht : sameName t n = true
      · rw [columnNames, dropTable_columnsOf_self h ht]
        exact List.nil_subset _
      · rw [columnNames, dropTable_columnsOf h (by simpa using ht)]
        exact List.Subset.refl _
    rw [carryOut_dropTable h] at hcolumns ⊢
    refine ⟨fun t ht => ?_, hcolumns, fun _ _ => hasIndex_mono (List.filter_subset_self _),
      fun _ _ _ => hasConstraint_mono (List.filter_subset_self _)⟩
    obtain ⟨s, hs, hsame⟩ := List.any_eq_true.mp ht
    exact List.any_eq_true.mpr ⟨s, (List.mem_filter.mp hs).1, hsame⟩
  | dropIndex t n =>
    rw [carryOut_dropIndex h]
    exact ⟨fun _ ht => ht, fun _ => List.Subset.refl _,
      fun _ _ => hasIndex_mono (List.filter_subset_self _),
      fun _ _ _ => hasConstraint_mono (List.Subset.refl _)⟩
  | dropConstraint t n kind =>
    rw [carryOut_dropConstraint h]
    exact ⟨fun _ ht => ht, fun _ => List.Subset.refl _,
      fun _ _ => hasIndex_mono (List.Subset.refl _),
      fun _ _ _ => hasConstraint_mono (List.filter_subset_self _)⟩
  | dropColumns t columns =>
    obtain ⟨hhas, rfl⟩ := carryOut_dropColumns h
    exact (setColumns_grows (c := c.releaseColumns d t columns) hhas
      (List.filter_subset_self _)).trans releaseColumns_grows
  | alterColumn t k =>
    have hcolumns : ∀ u, c'.columnNames u ⊆ c.columnNames u := fun u => by
      rw [alterColumn_columnNames h]
      exact List.Subset.refl _
    obtain ⟨-, rfl⟩ := carryOut_alterColumn h
    refine ⟨fun u hu => ?_, hcolumns, fun _ _ => hasIndex_mono (List.Subset.refl _),
      fun _ _ _ => hasConstraint_mono (List.Subset.refl _)⟩
    rw [← hasTable_setColumns]
    exact hu
  | recordVersion t v =>
    obtain ⟨-, rfl⟩ := recordVersion_recorded h
    exact ⟨fun _ ht => ht, fun _ => List.Subset.refl _,
      fun _ _ => hasIndex_mono (List.Subset.refl _),
      fun _ _ _ => hasConstraint_mono (List.Subset.refl _)⟩
  | verbatim text => cases h
  | _ => exact (hst trivial).elim

theorem carryOutAll_shrinks (hl : ∀ st ∈ l, ¬ st.IsAdditive) (h : c.carryOutAll d l = .ok c') :
    Grows c' c := by
  induction l generalizing c with
  | nil =>
    cases h
    exact .refl _
  | cons st rest ih =>
    obtain ⟨c₁, hone, hrest⟩ := carryOutAll_cons_ok.mp h
    obtain ⟨hst, hothers⟩ := List.forall_mem_cons.mp hl
    exact (ih hothers hrest).trans (carryOut_shrinks hst hone)

end Catalog
end SchemaMigration
