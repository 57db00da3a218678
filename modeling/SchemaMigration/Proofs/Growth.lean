import SchemaMigration.Proofs.Settled

/-!
# Additive changes

Creating and adding take nothing away: whatever can be looked up in a catalog can still be looked up
afterwards (`Catalog.Grows`).  Such a change is settled for good once it has succeeded, since what
it asks for is looked up by name and names stay (`Catalog.Settled.grows`).  So additive changes that
have all succeeded can be asked for again, in any order and any number of times
(`Change.additive_stable`).
-/
namespace SchemaMigration
open Program

/-- The statement creates or adds something. -/
def Statement.IsAdditive : Statement → Prop
  | .createTable _ _ _ | .createIndex _ | .addColumns _ _ | .addConstraint _ => True
  | _ => False

/-- The change creates or adds something. -/
def Change.IsAdditive : Change → Prop
  | .createTable _ | .createIndex _ | .addColumns _ _ | .addConstraint _ => True
  | _ => False

namespace Catalog

variable {d : Dialect} {c c' c'' : Catalog} {table name : String}

/-- What can be looked up in the catalog `c` can be looked up in `c'`. -/
structure Grows (c c' : Catalog) : Prop where
  tables : ∀ n, c.hasTable n = true → c'.hasTable n = true
  columns : ∀ t, c.columnNames t ⊆ c'.columnNames t
  indexes : ∀ t n, c.has (.index t n) = true → c'.has (.index t n) = true
  constraints : ∀ t n kind, c.hasConstraint t n kind = true → c'.hasConstraint t n kind = true

theorem Grows.refl (c : Catalog) : Grows c c :=
  ⟨fun _ h => h, fun _ _ h => h, fun _ _ h => h, fun _ _ _ h => h⟩

theorem Grows.trans (h : Grows c c') (h' : Grows c' c'') : Grows c c'' where
  tables n hn := h'.tables n (h.tables n hn)
  columns t := List.Subset.trans (h.columns t) (h'.columns t)
  indexes t n hi := h'.indexes t n (h.indexes t n hi)
  constraints t n kind hk := h'.constraints t n kind (h.constraints t n kind hk)

theorem hasIndex_mono (h : c.indexes ⊆ c'.indexes) (hhas : c.has (.index table name) = true) :
    c'.has (.index table name) = true := by
  obtain ⟨i, hi, hsame⟩ := has_index.mp hhas
  exact has_index.mpr ⟨i, h hi, hsame⟩

theorem hasConstraint_mono {kind : ConstraintKind} (h : c.constraints ⊆ c'.constraints)
    (hhas : c.hasConstraint table name kind = true) :
    c'.hasConstraint table name kind = true := by
  cases kind with
  | primaryKey =>
    obtain ⟨k, hk, hkey⟩ := List.any_eq_true.mp hhas
    exact List.any_eq_true.mpr ⟨k, h hk, hkey⟩
  | unique =>
    obtain ⟨k, hk, hsame⟩ := has_constraint.mp hhas
    exact has_constraint.mpr ⟨k, h hk, hsame⟩

/-- A new table has no influence on the columns of others. -/
theorem createTable_columns {columns : List Column} {key : Option PrimaryKey}
    (h : c.carryOut d (.createTable name columns key) = .ok c') :
    c.columnNames table ⊆ c'.columnNames table := by
  obtain ⟨-, rfl⟩ := carryOut_createTable h
  simp only [columnNames, columnsOf, table?, List.find?_append]
  cases c.tables.find? fun t => sameName t.name table with
  | none => exact List.nil_subset _
  | some t => exact List.Subset.refl _

/-- More columns at the end of a table leave the others. -/
theorem appended_columns {columns : List Column} (h : c.hasTable name = true) :
    c.columnNames table ⊆ (c.setColumns name (c.columnsOf name ++ columns)).columnNames table := by
  by_cases hsame : sameName table name = true
  · rw [columnNames, columnNames, columnsOf_congr hsame, columnsOf_congr hsame,
      columnsOf_setColumns h, List.map_append]
    exact List.subset_append_left _ _
  · rw [columnNames, columnNames, columnsOf_setColumns_other (by simpa using hsame)]
    exact List.Subset.refl _

/-- **Creating and adding take nothing away.** -/
theorem carryOut_grows {st : Statement} (hst : st.IsAdditive) (h : c.carryOut d st = .ok c') :
    Grows c c' ∧ c'.recorded = c.recorded := by
  cases st with
  | createTable n columns key =>
    have hcolumns : ∀ t, c.columnNames t ⊆ c'.columnNames t := fun _ => createTable_columns h
    obtain ⟨hrecorded, hgrown⟩ := createTable_hasTable h
    obtain ⟨-, rfl⟩ := carryOut_createTable h
    refine ⟨⟨fun t ht => ?_, hcolumns, fun _ _ => hasIndex_mono (List.Subset.refl _),
      fun _ _ _ => hasConstraint_mono (List.subset_append_left _ _)⟩, hrecorded⟩
    rw [hgrown, ht, Bool.true_or]
  | createIndex i =>
    obtain ⟨-, rfl⟩ := carryOut_createIndex h
    exact ⟨⟨fun _ ht => ht, fun _ => List.Subset.refl _,
      fun _ _ => hasIndex_mono (List.subset_append_left _ _),
      fun _ _ _ => hasConstraint_mono (List.Subset.refl _)⟩, rfl⟩
  | addColumns n columns =>
    obtain ⟨hhas, rfl⟩ := carryOut_addColumns h
    refine ⟨⟨fun t ht => ?_, fun _ => appended_columns hhas,
      fun _ _ => hasIndex_mono (List.Subset.refl _),
      fun _ _ _ => hasConstraint_mono (List.Subset.refl _)⟩, rfl⟩
    rw [hasTable_setColumns]
    exact ht
  | addConstraint k =>
    obtain ⟨-, rfl⟩ := carryOut_addConstraint h
    exact ⟨⟨fun _ ht => ht, fun _ => List.Subset.refl _,
      fun _ _ => hasIndex_mono (List.Subset.refl _),
      fun _ _ _ => hasConstraint_mono (List.subset_append_left _ _)⟩, rfl⟩
  | _ => exact hst.elim

theorem carryOutAll_grows {l : List Statement} (hl : ∀ st ∈ l, st.IsAdditive)
    (h : c.carryOutAll d l = .ok c') : Grows c c' ∧ c'.recorded = c.recorded := by
  induction l generalizing c with
  | nil =>
    cases h
    exact ⟨.refl _, rfl⟩
  | cons st rest ih =>
    obtain ⟨c₁, hone, hrest⟩ := carryOutAll_cons_ok.mp h
    obtain ⟨hst, hothers⟩ := List.forall_mem_cons.mp hl
    obtain ⟨hgrows, hrecorded⟩ := carryOut_grows hst hone
    obtain ⟨hgrows', hrecorded'⟩ := ih hothers hrest
    exact ⟨hgrows.trans hgrows', hrecorded'.trans hrecorded⟩

/-- Statements create or add something exactly if the change does that they are for. -/
theorem isAdditive_statements (d : Dialect) (x : Change) :
    ∀ st ∈ x.statements d, (st.IsAdditive ↔ x.IsAdditive) := by
  intro st hst
  cases x with
  | addColumns t columns =>
    simp only [Change.statements] at hst
    split at hst
    · rw [List.mem_singleton.mp hst]
      exact Iff.rfl
    · obtain ⟨k, -, rfl⟩ := List.mem_map.mp hst
      exact Iff.rfl
  | dropColumns t columns =>
    simp only [Change.statements] at hst
    split at hst
    · rw [List.mem_singleton.mp hst]
      exact Iff.rfl
    · obtain ⟨k, -, rfl⟩ := List.mem_map.mp hst
      exact Iff.rfl
  | _ =>
    rw [List.mem_singleton.mp hst]
    exact Iff.rfl

/-- What is due for a change creates or adds something exactly if the change does. -/
theorem due_isAdditive {x : Change} {l : List Statement} (h : c.due d x = .ok l) :
    ∀ st ∈ l, (st.IsAdditive ↔ x.IsAdditive) := by
  intro st hst
  have hnarrowed : (c.narrowed d x).IsAdditive ↔ x.IsAdditive := by cases x <;> exact Iff.rfl
  rcases due_narrowed h with rfl | hbuild
  · exact (List.not_mem_nil hst).elim
  · obtain ⟨-, -, rfl⟩ := Change.build_eq_ok.mp hbuild
    exact (isAdditive_statements d _ st hst).trans hnarrowed

/-! ## Settled for good -/

/-- **An additive change stays settled** while the catalog grows. -/
theorem Settled.grows {x : Change} (h : Settled d c x) (hx : x.IsAdditive) (hg : Grows c c') :
    Settled d c' x := by
  have hname : ∀ t k, Guarded.hasName (c.columnNames t) k = true →
      Guarded.hasName (c'.columnNames t) k = true := by
    intro t k hk
    exact decide_eq_true (hg.columns t (of_decide_eq_true hk))
  cases x with
  | createTable t =>
    obtain ⟨hcheck, ⟨hhas, -, hall⟩ | ⟨-, hnil⟩⟩ := due_createTable.mp h
    · refine due_createTable.mpr ⟨hcheck, Or.inl ⟨hg.tables _ hhas, rfl, ?_⟩⟩
      exact fun k hk => hname _ _ (hall k hk)
    · cases hnil
  | createIndex i =>
    obtain ⟨hcheck, hhas, ⟨hindex, -⟩ | ⟨-, -, hnil⟩⟩ := due_createIndex.mp h
    · exact due_createIndex.mpr
        ⟨hcheck, hg.tables _ hhas, Or.inl ⟨hg.indexes _ _ hindex, rfl⟩⟩
    · cases hnil
  | addColumns t columns =>
    obtain ⟨hbuild, hhas, ⟨hnone, -⟩ | ⟨-, hnil⟩⟩ := due_addColumns.mp h
    · refine due_addColumns.mpr ⟨hbuild, hg.tables _ hhas, Or.inl ⟨?_, rfl⟩⟩
      exact missing_eq_nil.mpr fun k hk => hname _ _ (missing_eq_nil.mp hnone k hk)
    · exact (not_build_nil hnil).elim
  | addConstraint k =>
    obtain ⟨hcheck, hsupported, hhas, ⟨hconstraint, -⟩ | ⟨-, hnil⟩⟩ := due_addConstraint.mp h
    · exact due_addConstraint.mpr ⟨hcheck, hsupported, hg.tables _ hhas,
        Or.inl ⟨hg.constraints _ _ _ hconstraint, rfl⟩⟩
    · cases hnil
  | _ => exact hx.elim

/-- An additive change that has succeeded is settled. -/
theorem settles {x : Change} {l : List Statement} (hx : x.IsAdditive) (hdue : c.due d x = .ok l)
    (hcarried : c.carryOutAll d l = .ok c') : Settled d c' x := by
  cases x with
  | createTable t => exact settles_createTable hcarried hdue
  | createIndex i => exact settles_createIndex hcarried hdue
  | addColumns t columns => exact settles_addColumns hcarried hdue
  | addConstraint k => exact settles_addConstraint hcarried hdue
  | _ => exact hx.elim

theorem Passes.additive {xs : List Change} {ls : List (List Statement)}
    (h : Passes d c xs ls c') (hxs : ∀ x ∈ xs, x.IsAdditive) :
    ∀ st ∈ ls.flatten, st.IsAdditive := by
  induction h with
  | nil c => exact fun _ hst => (List.not_mem_nil hst).elim
  | cons hdue _ _ ih =>
    obtain ⟨hx, hothers⟩ := List.forall_mem_cons.mp hxs
    intro st hst
    rw [List.flatten_cons] at hst
    exact (List.mem_append.mp hst).elim (fun hst => (due_isAdditive hdue st hst).mpr hx)
      (ih hothers st)

theorem Passes.grows {xs : List Change} {ls : List (List Statement)} (h : Passes d c xs ls c')
    (hxs : ∀ x ∈ xs, x.IsAdditive) : Grows c c' ∧ c'.recorded = c.recorded :=
  carryOutAll_grows (h.additive hxs) h.carryOutAll

/-- **Additive changes that have passed are all settled** in the end. -/
theorem Passes.settled {xs : List Change} {ls : List (List Statement)} (h : Passes d c xs ls c')
    (hxs : ∀ x ∈ xs, x.IsAdditive) : ∀ x ∈ xs, Settled d c' x := by
  induction h with
  | nil c => exact fun _ hx => (List.not_mem_nil hx).elim
  | cons hdue hcarried hrest ih =>
    obtain ⟨hx, hothers⟩ := List.forall_mem_cons.mp hxs
    refine List.forall_mem_cons.mpr ⟨?_, ih hothers⟩
    exact (settles hx hdue hcarried).grows hx (hrest.grows hothers).1

/-- Settled changes pass without a statement. -/
theorem passes_of_settled {xs : List Change} (h : ∀ x ∈ xs, Settled d c x) :
    Passes d c xs (xs.map fun _ => []) c := by
  induction xs with
  | nil => exact .nil c
  | cons x rest ih =>
    obtain ⟨hx, hrest⟩ := List.forall_mem_cons.mp h
    exact .cons hx rfl (ih hrest)

end Catalog

/-- **Additive changes are stable once done.**  On a database that answers from a catalog, let
changes that create or add all succeed, one after the other.  Then any of them can be asked for
again, in any order and any number of times: each time nothing is changed, no statement is sent, and
the catalog stays as it is. -/
theorem Change.additive_stable (d : Dialect) {changes : List Change}
    (hadditive : ∀ x ∈ changes, x.IsAdditive) {span : Option Span} {w : World Catalog}
    {bs : List Bool}
    (hdone : World.outcome ((ensureAll d changes).run (Catalog.server d) span w) = .ok bs)
    {again : List Change} (hagain : ∀ x ∈ again, x ∈ changes) {span' : Option Span}
    {w₁ : World Catalog} (hw₁ : w₁.server =
      (World.leftBy ((ensureAll d changes).run (Catalog.server d) span w)).server) :
    World.outcome ((ensureAll d again).run (Catalog.server d) span' w₁) =
        .ok (again.map fun _ => false) ∧
      (World.leftBy ((ensureAll d again).run (Catalog.server d) span' w₁)).server = w₁.server ∧
      ∀ st a, .execute st a ∉ (Catalog.server d).exchanges w₁
        (World.leftBy ((ensureAll d again).run (Catalog.server d) span' w₁)) := by
  obtain ⟨ls, hpasses⟩ := run_passes hdone
  have hsettled := hpasses.settled hadditive
  rw [← hw₁] at hsettled
  obtain ⟨hok, hserver, hsent⟩ :=
    run_of_passes (Catalog.passes_of_settled fun x hx => hsettled x (hagain x hx)) span'
  refine ⟨?_, hserver, not_mem_of_statementsIn ?_⟩
  · rw [hok, List.map_map]
    rfl
  · rw [hsent]
    exact List.flatten_eq_nil_iff.mpr fun l hl => (List.mem_map.mp hl).elim fun _ h => h.2.symm

/-- A table, a column that it gains afterwards, and an index and a constraint on that column. -/
def widening : List Change := [
  .createTable (({ name := "users" } : Table).withKeyColumn { name := "id", type := .integer }),
  .addColumns "users" [{ name := "email", type := .varchar 100 }],
  .createIndex { table := "users", name := "users_email", columns := ["email"] },
  .addConstraint
    { table := "users", name := "users_email_key", kind := .unique, columns := ["email"] }]

/-- An empty database, widened. -/
def widened : World Catalog :=
  World.leftBy ((Change.ensureAll .postgres widening).run (Catalog.server .postgres) none
    { server := {} })

theorem widened_stable :
    World.outcome ((Change.ensureAll .postgres (widening.reverse ++ widening)).run
        (Catalog.server .postgres) none widened) =
          .ok ((widening.reverse ++ widening).map fun _ => false) ∧
      (World.leftBy ((Change.ensureAll .postgres (widening.reverse ++ widening)).run
        (Catalog.server .postgres) none widened)).server = widened.server ∧
      ∀ st a, .execute st a ∉ (Catalog.server .postgres).exchanges widened
        (World.leftBy ((Change.ensureAll .postgres (widening.reverse ++ widening)).run
          (Catalog.server .postgres) none widened)) := by
  have hdone : World.outcome ((Change.ensureAll .postgres widening).run (Catalog.server .postgres)
      none { server := {} }) = .ok [true, true, true, true] := by decide +kernel
  refine Change.additive_stable .postgres ?_ hdone (fun x hx => ?_) rfl
  · simp [widening, Change.IsAdditive]
  · simpa using hx

end SchemaMigration
