import SchemaMigration.Proofs.Effects
import SchemaMigration.Proofs.Passing

/-!
# Settled changes

A change is settled on a catalog if nothing is due: a guarded change would only look
(`Catalog.Settled`).  For each kind of change it is said what this means, and what is due otherwise.
All of it depends on names only: which tables there are, and the names of their columns, indexes and
constraints.
-/
namespace SchemaMigration
namespace Catalog

/-- Nothing is due for the change. -/
def Settled (d : Dialect) (c : Catalog) (x : Change) : Prop :=
  c.due d x = .ok []

variable {d : Dialect} {c c' : Catalog} {l : List Statement} {table name : String}

theorem not_build_nil {x : Change} : x.build d ≠ .ok [] :=
  fun h => x.build_ne_nil h rfl

theorem tableNeeded_eq_ok : c.tableNeeded table = .ok () ↔ c.hasTable table = true := by
  unfold tableNeeded
  split <;> simp [*]

theorem supportNeeded_eq_ok {x : Change} :
    supportNeeded d x = .ok () ↔ x.supported d = true := by
  unfold supportNeeded
  split <;> simp [*]

theorem lacking_eq_nil {columns : List Column} :
    c.lacking table (columns.map (·.name)) = [] ↔
      ∀ k ∈ columns, Guarded.hasName (c.columnNames table) k.name = true := by
  simp [lacking, List.filter_eq_nil_iff]

theorem missing_eq_nil {columns : List Column} : c.missing table columns = [] ↔
    ∀ k ∈ columns, Guarded.hasName (c.columnNames table) k.name = true := by
  simp [missing, List.filter_eq_nil_iff]

theorem present_eq_nil {columns : List String} : c.present table columns = [] ↔
    ∀ k ∈ columns, Guarded.hasName (c.columnNames table) k = false := by
  simp [present, List.filter_eq_nil_iff]

/-! ## Creating and dropping tables -/

theorem due_createTable {t : Table} : c.due d (.createTable t) = .ok l ↔ t.check d = .ok () ∧
    ((c.hasTable t.name = true ∧ l = [] ∧
        ∀ k ∈ t.columns, Guarded.hasName (c.columnNames t.name) k.name = true) ∨
      (c.hasTable t.name = false ∧ (Change.createTable t).statements d = l)) := by
  rw [due, check_bind_eq_ok, mapError_eq_ok]
  refine and_congr_right fun hcheck => ?_
  cases c.hasTable t.name with
  | false => simp [Change.build_eq_ok, Change.check, Change.supported, hcheck]
  | true =>
    rw [← lacking_eq_nil]
    cases c.lacking t.name (t.columns.map (·.name)) with
    | nil => simp [pure, Except.pure, eq_comm]
    | cons k rest => simp

theorem due_dropTable : c.due d (.dropTable table) = .ok l ↔
    (c.hasTable table = false ∧ l = []) ∨
      (c.hasTable table = true ∧ (Change.dropTable table).build d = .ok l) := by
  rw [due]
  cases c.hasTable table <;> simp [eq_comm]

theorem Settled.hasTable {t : Table} (h : Settled d c (.createTable t)) :
    c.hasTable t.name = true := by
  obtain ⟨-, ⟨hhas, -⟩ | ⟨-, hnil⟩⟩ := due_createTable.mp h
  · exact hhas
  · cases hnil

/-! ## Creating and dropping indexes -/

theorem due_createIndex {i : Index} : c.due d (.createIndex i) = .ok l ↔
    i.check d = .ok () ∧ c.hasTable i.table = true ∧
      ((c.has (.index i.table (i.storedName d)) = true ∧ l = []) ∨
        (c.has (.index i.table (i.storedName d)) = false ∧ c.indexNameTaken d i = .ok () ∧
          (Change.createIndex i).statements d = l)) := by
  rw [due, check_bind_eq_ok, mapError_eq_ok, check_bind_eq_ok, tableNeeded_eq_ok]
  refine and_congr_right fun hcheck => and_congr_right fun _ => ?_
  cases c.has (.index i.table (i.storedName d)) with
  | false =>
    simp [check_bind_eq_ok, Change.build_eq_ok, Change.check, Change.supported, hcheck]
  | true => simp [pure, Except.pure, eq_comm]

theorem due_dropIndex : c.due d (.dropIndex table name) = .ok l ↔
    (c.has (.index table (d.fit name)) = false ∧ l = []) ∨
      (c.has (.index table (d.fit name)) = true ∧
        (Change.dropIndex table (d.fit name)).build d = .ok l) := by
  rw [due]
  cases c.has (.index table (d.fit name)) <;> simp [eq_comm]

/-! ## Adding, dropping and altering columns -/

theorem due_addColumns {columns : List Column} : c.due d (.addColumns table columns) = .ok l ↔
    (∃ all, (Change.addColumns table columns).build d = .ok all) ∧ c.hasTable table = true ∧
      ((c.missing table columns = [] ∧ l = []) ∨ (c.missing table columns ≠ [] ∧
        (Change.addColumns table (c.missing table columns)).build d = .ok l)) := by
  rw [due, bind_eq_ok]
  simp only [check_bind_eq_ok, tableNeeded_eq_ok, exists_and_right]
  refine and_congr_right fun _ => and_congr_right fun _ => ?_
  cases c.missing table columns with
  | nil => simp [pure, Except.pure, eq_comm]
  | cons k rest => simp

theorem due_dropColumns {columns : List String} : c.due d (.dropColumns table columns) = .ok l ↔
    (c.present table columns = [] ∧ l = []) ∨ (c.present table columns ≠ [] ∧
      (Change.dropColumns table (c.present table columns)).build d = .ok l) := by
  rw [due]
  cases c.present table columns <;> simp [eq_comm]

theorem due_alterColumnType {k : Column} : c.due d (.alterColumnType table k) = .ok l ↔
    c.has (.column table k.name) = true ∧ (Change.alterColumnType table k).build d = .ok l := by
  rw [due, bind_eq_ok]
  cases c.has (.column table k.name) with
  | false => simp
  | true =>
    constructor
    · rintro ⟨_, _, h⟩
      exact ⟨rfl, h⟩
    · exact fun h => ⟨l, h.2, h.2⟩

/-! ## Adding and dropping constraints -/

theorem due_addConstraint {k : Constraint} : c.due d (.addConstraint k) = .ok l ↔
    k.check d = .ok () ∧ d.altersConstraints = true ∧ c.hasTable k.table = true ∧
      ((c.hasConstraint k.table (k.storedName d) k.kind = true ∧ l = []) ∨
        (c.hasConstraint k.table (k.storedName d) k.kind = false ∧
          (Change.addConstraint k).statements d = l)) := by
  rw [due, check_bind_eq_ok, mapError_eq_ok, check_bind_eq_ok, supportNeeded_eq_ok,
    check_bind_eq_ok, tableNeeded_eq_ok]
  refine and_congr_right fun hcheck => and_congr_right fun hsupported => and_congr_right fun _ => ?_
  cases c.hasConstraint k.table (k.storedName d) k.kind with
  | false => simp [Change.build_eq_ok, Change.check, hcheck, hsupported]
  | true => simp [pure, Except.pure, eq_comm]

theorem due_dropConstraint {kind : ConstraintKind} :
    c.due d (.dropConstraint table name kind) = .ok l ↔ d.altersConstraints = true ∧
      ((c.hasConstraint table (d.fit name) kind = false ∧ l = []) ∨
        (c.hasConstraint table (d.fit name) kind = true ∧
          (Change.dropConstraint table (d.fit name) kind).build d = .ok l)) := by
  rw [due, check_bind_eq_ok, supportNeeded_eq_ok]
  refine and_congr_right fun _ => ?_
  cases c.hasConstraint table (d.fit name) kind <;> simp [pure, Except.pure, eq_comm]

/-! ## What is due -/

/-- The change cut down to what is still to do, with the names that objects are stored under. -/
def narrowed (d : Dialect) (c : Catalog) : Change → Change
  | .dropIndex t n => .dropIndex t (d.fit n)
  | .addColumns t columns => .addColumns t (c.missing t columns)
  | .dropColumns t columns => .dropColumns t (c.present t columns)
  | .dropConstraint t n kind => .dropConstraint t (d.fit n) kind
  | x => x

/-- **Nothing is due, or what the narrowed change is built to.** -/
theorem due_narrowed {x : Change} (h : c.due d x = .ok l) :
    l = [] ∨ (c.narrowed d x).build d = .ok l := by
  cases x with
  | createTable t =>
    obtain ⟨hcheck, ⟨-, hnil, -⟩ | ⟨-, hl⟩⟩ := due_createTable.mp h
    · exact Or.inl hnil
    · exact Or.inr (Change.build_eq_ok.mpr ⟨hcheck, rfl, hl⟩)
  | dropTable t => exact (due_dropTable.mp h).imp And.right And.right
  | createIndex i =>
    obtain ⟨hcheck, -, ⟨-, hnil⟩ | ⟨-, -, hl⟩⟩ := due_createIndex.mp h
    · exact Or.inl hnil
    · exact Or.inr (Change.build_eq_ok.mpr ⟨hcheck, rfl, hl⟩)
  | dropIndex t n => exact (due_dropIndex.mp h).imp And.right And.right
  | addColumns t columns => exact (due_addColumns.mp h).2.2.imp And.right And.right
  | dropColumns t columns => exact (due_dropColumns.mp h).imp And.right And.right
  | alterColumnType t k => exact Or.inr (due_alterColumnType.mp h).2
  | addConstraint k =>
    obtain ⟨hcheck, hsupported, -, ⟨-, hnil⟩ | ⟨-, hl⟩⟩ := due_addConstraint.mp h
    · exact Or.inl hnil
    · exact Or.inr (Change.build_eq_ok.mpr ⟨hcheck, hsupported, hl⟩)
  | dropConstraint t n kind => exact (due_dropConstraint.mp h).2.imp And.right And.right

/-! ## What is due settles the change -/

theorem carryOutAll_singleton {st : Statement} : c.carryOutAll d [st] = c.carryOut d st :=
  bind_pure _

theorem carryOutAll_one {st : Statement} (h : c.carryOutAll d [st] = .ok c') :
    c.carryOut d st = .ok c' :=
  carryOutAll_singleton.symm.trans h

/-- A name that passed the check is found among the columns, if one of them has it. -/
theorem hasName_of_mem {columns : List Column} {k : Column} (hk : k ∈ columns)
    (hname : Name.check d k.name = .ok ()) :
    Guarded.hasName (columns.map fun k => k.name.map Char.toLower) k.name = true := by
  rw [Guarded.hasName, decide_eq_true_iff, Name.lower_of_check hname]
  exact List.mem_map_of_mem hk

theorem columnNames_createTable {columns : List Column} {key : Option PrimaryKey}
    (h : c.carryOut d (.createTable table columns key) = .ok c') :
    c'.columnNames table = columns.map fun k => k.name.map Char.toLower := by
  obtain ⟨hnew, rfl⟩ := carryOut_createTable h
  have hnone := table?_eq_none hnew
  rw [table?] at hnone
  simp [columnNames, columnsOf, table?, List.find?_append, hnone, sameName_refl]

/-- Columns are added to the end, in one statement or in one for each. -/
theorem carryOutAll_addColumns {columns : List Column} (hne : columns ≠ [])
    (h : c.carryOutAll d ((Change.addColumns table columns).statements d) = .ok c') :
    c.hasTable table = true ∧ c' = c.setColumns table (c.columnsOf table ++ columns) := by
  simp only [Change.statements] at h
  split at h
  · exact carryOut_addColumns (carryOutAll_one h)
  · induction columns generalizing c with
    | nil => exact (hne rfl).elim
    | cons k rest ih =>
      obtain ⟨c₁, hone, hrest⟩ := carryOutAll_cons_ok.mp h
      obtain ⟨hhas, rfl⟩ := carryOut_addColumns hone
      cases rest with
      | nil =>
        cases hrest
        exact ⟨hhas, rfl⟩
      | cons k' rest =>
        obtain ⟨-, rfl⟩ := ih (List.cons_ne_nil _ _) hrest
        refine ⟨hhas, ?_⟩
        rw [setColumns_setColumns, columnsOf_setColumns hhas, List.append_assoc]
        rfl

/-- Columns are taken out, in one statement or in one for each. -/
theorem carryOutAll_dropColumns {columns : List String}
    (h : c.carryOutAll d ((Change.dropColumns table columns).statements d) = .ok c') :
    c'.columnsOf table = (c.columnsOf table).filter fun k => !columns.any (sameName k.name ·) := by
  simp only [Change.statements] at h
  split at h
  · exact dropColumns_columnsOf (carryOutAll_one h)
  · induction columns generalizing c with
    | nil =>
      cases h
      simp
    | cons k rest ih =>
      obtain ⟨c₁, hfirst, hrest⟩ := carryOutAll_cons_ok.mp h
      rw [ih hrest, dropColumns_columnsOf hfirst, List.filter_filter]
      refine List.filter_congr fun col _ => ?_
      simp [Bool.and_comm]

/-- A new constraint is found, a primary key whatever it is called. -/
theorem hasConstraint_stored {k : Constraint} :
    ({ c with constraints := c.constraints ++ [stored d k] } : Catalog).hasConstraint k.table k.name
      k.kind = true := by
  have hmem : stored d k ∈ c.constraints ++ [stored d k] := by simp
  cases hkind : k.kind with
  | primaryKey =>
    refine List.any_eq_true.mpr ⟨stored d k, hmem, ?_⟩
    simp [sameName_refl, hkind]
  | unique =>
    refine has_constraint.mpr ⟨stored d k, hmem, ?_⟩
    simp [stored_unique hkind, sameName_refl]

section Settles

variable (hcarried : c.carryOutAll d l = .ok c')

include hcarried

theorem settles_createTable {t : Table} (hdue : c.due d (.createTable t) = .ok l) :
    Settled d c' (.createTable t) := by
  obtain ⟨hcheck, ⟨-, rfl, -⟩ | ⟨-, rfl⟩⟩ := due_createTable.mp hdue
  · cases hcarried
    exact hdue
  · have hcreated := carryOutAll_one hcarried
    refine due_createTable.mpr ⟨hcheck, Or.inl ⟨?_, rfl, fun k hk => ?_⟩⟩
    · rw [(createTable_hasTable hcreated).2, sameName_refl, Bool.or_true]
    · rw [columnNames_createTable hcreated]
      exact hasName_of_mem hk (Table.check_columns hcheck k hk)

theorem settles_dropTable (hdue : c.due d (.dropTable table) = .ok l) :
    Settled d c' (.dropTable table) := by
  obtain ⟨-, rfl⟩ | ⟨-, hbuild⟩ := due_dropTable.mp hdue
  · cases hcarried
    exact hdue
  · obtain ⟨-, -, rfl⟩ := Change.build_eq_ok.mp hbuild
    refine due_dropTable.mpr (Or.inl ⟨?_, rfl⟩)
    rw [carryOut_dropTable (carryOutAll_one hcarried), hasTable, List.any_filter]
    simp

theorem settles_createIndex {i : Index} (hdue : c.due d (.createIndex i) = .ok l) :
    Settled d c' (.createIndex i) := by
  obtain ⟨hcheck, hhas, ⟨-, rfl⟩ | ⟨-, -, rfl⟩⟩ := due_createIndex.mp hdue
  · cases hcarried
    exact hdue
  · obtain ⟨-, rfl⟩ := carryOut_createIndex (carryOutAll_one hcarried)
    refine due_createIndex.mpr ⟨hcheck, hhas, Or.inl ⟨has_index.mpr ?_, rfl⟩⟩
    exact ⟨_, List.mem_append_right _ (List.mem_singleton_self _), sameName_refl _,
      sameName_refl _⟩

theorem settles_dropIndex (hdue : c.due d (.dropIndex table name) = .ok l) :
    Settled d c' (.dropIndex table name) := by
  obtain ⟨-, rfl⟩ | ⟨-, hbuild⟩ := due_dropIndex.mp hdue
  · cases hcarried
    exact hdue
  · obtain ⟨-, -, rfl⟩ := Change.build_eq_ok.mp hbuild
    have hdropped := carryOut_dropIndex (carryOutAll_one hcarried)
    rw [Dialect.fit_fit] at hdropped
    refine due_dropIndex.mpr (Or.inl ⟨?_, rfl⟩)
    rw [← Bool.not_eq_true, has_index]
    rintro ⟨i, hi, htable, hname⟩
    rw [hdropped] at hi
    obtain ⟨hmem, hkept⟩ := List.mem_filter.mp hi
    refine of_decide_eq_true hkept (List.mem_filter.mpr ⟨hmem, ?_⟩)
    rw [hname, htable, Bool.or_true, Bool.and_true]

theorem settles_addColumns {columns : List Column}
    (hdue : c.due d (.addColumns table columns) = .ok l) :
    Settled d c' (.addColumns table columns) := by
  obtain ⟨⟨all, hall⟩, hhas, ⟨-, rfl⟩ | ⟨hne, hbuild⟩⟩ := due_addColumns.mp hdue
  · cases hcarried
    exact hdue
  · obtain ⟨-, -, rfl⟩ := Change.build_eq_ok.mp hbuild
    obtain ⟨-, rfl⟩ := carryOutAll_addColumns hne hcarried
    refine due_addColumns.mpr ⟨⟨all, hall⟩, ?_, Or.inl ⟨missing_eq_nil.mpr fun k hk => ?_, rfl⟩⟩
    · rw [hasTable_setColumns]
      exact hhas
    have hname := (Change.check_addColumns (Change.build_eq_ok.mp hall).1).2 k hk
    rw [columnNames, columnsOf_setColumns hhas, List.map_append, Guarded.hasName,
      decide_eq_true_iff, List.mem_append]
    by_cases hold : Guarded.hasName (c.columnNames table) k.name = true
    · exact Or.inl (of_decide_eq_true hold)
    · have hmissing : k ∈ c.missing table columns := List.mem_filter.mpr ⟨hk, by simp [hold]⟩
      exact Or.inr (of_decide_eq_true (hasName_of_mem hmissing hname))

theorem settles_dropColumns {columns : List String}
    (hdue : c.due d (.dropColumns table columns) = .ok l) :
    Settled d c' (.dropColumns table columns) := by
  obtain ⟨-, rfl⟩ | ⟨-, hbuild⟩ := due_dropColumns.mp hdue
  · cases hcarried
    exact hdue
  · obtain ⟨hcheck, -, rfl⟩ := Change.build_eq_ok.mp hbuild
    have hleft := carryOutAll_dropColumns hcarried
    refine due_dropColumns.mpr (Or.inl ⟨present_eq_nil.mpr fun k hk => ?_, rfl⟩)
    -- a column that is still there has been there before, so it was among those to drop
    rw [← Bool.not_eq_true, Guarded.hasName, decide_eq_true_iff]
    intro hstill
    obtain ⟨col, hcol, hlower⟩ := List.mem_map.mp hstill
    rw [hleft] at hcol
    obtain ⟨hmem, hkept⟩ := List.mem_filter.mp hcol
    have hpresent : k ∈ c.present table columns := by
      refine List.mem_filter.mpr ⟨hk, ?_⟩
      rw [Guarded.hasName, decide_eq_true_iff, ← hlower]
      exact List.mem_map_of_mem hmem
    have hname := (Change.check_dropColumns hcheck).2 k hpresent
    rw [Name.lower_of_check hname] at hlower
    have hdropped : (c.present table columns).any (sameName col.name ·) = true :=
      List.any_eq_true.mpr ⟨k, hpresent, sameName_iff.mpr hlower⟩
    rw [hdropped] at hkept
    cases hkept

theorem settles_addConstraint {k : Constraint} (hdue : c.due d (.addConstraint k) = .ok l) :
    Settled d c' (.addConstraint k) := by
  obtain ⟨hcheck, hsupported, hhas, ⟨-, rfl⟩ | ⟨-, rfl⟩⟩ := due_addConstraint.mp hdue
  · cases hcarried
    exact hdue
  · obtain ⟨-, rfl⟩ := carryOut_addConstraint (carryOutAll_one hcarried)
    exact due_addConstraint.mpr ⟨hcheck, hsupported, hhas, Or.inl ⟨hasConstraint_stored, rfl⟩⟩

/-- A constraint that is dropped is gone.  A primary key that is dropped by a name may still be
there, since it is looked for without one. -/
theorem settles_dropConstraint {kind : ConstraintKind}
    (hkind : kind = .primaryKey → c'.hasKey table = false)
    (hdue : c.due d (.dropConstraint table name kind) = .ok l) :
    Settled d c' (.dropConstraint table name kind) := by
  obtain ⟨hsupported, ⟨-, rfl⟩ | ⟨-, hbuild⟩⟩ := due_dropConstraint.mp hdue
  · cases hcarried
    exact hdue
  · obtain ⟨-, -, rfl⟩ := Change.build_eq_ok.mp hbuild
    have hdropped := carryOut_dropConstraint (carryOutAll_one hcarried)
    rw [Dialect.fit_fit] at hdropped
    refine due_dropConstraint.mpr ⟨hsupported, Or.inl ⟨?_, rfl⟩⟩
    cases kind with
    | primaryKey => exact hkind rfl
    | unique =>
      show c'.has (.constraint table (d.fit name)) = false
      rw [← Bool.not_eq_true, has_constraint]
      rintro ⟨k, hk, htable, hname⟩
      rw [hdropped] at hk
      obtain ⟨hmem, hkept⟩ := List.mem_filter.mp hk
      refine of_decide_eq_true hkept (List.mem_filter.mpr ⟨hmem, ?_⟩)
      simp [htable, hname]

end Settles

end Catalog
end SchemaMigration
