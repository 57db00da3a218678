import SchemaMigration.Proofs.Growth

/-!
# What a change has done

A change that has succeeded leaves parts of a schema behind, or has taken parts away
(`Change.ensures`, `Change.clears`).  As long as these are there, or gone (`Catalog.Done`), nothing
is due for the change again (`Catalog.Done.settled`), and the other way round a change that is
settled has nothing left to do (`Catalog.Settled.done`).
-/
namespace SchemaMigration

/-- A part of a schema that is looked up by name.  The names of columns are in lower case. -/
inductive Part
  | table (table : String)
  | column (table name : String)
  | index (table name : String)
  | constraint (table name : String)
  /-- The primary key of a table, whatever its name. -/
  | key (table : String)
  deriving DecidableEq

/-- The table that the part is or belongs to. -/
def Part.owner : Part → String
  | table t | column t _ | index t _ | constraint t _ | key t => t

namespace Change

/-- What is there once the change has succeeded. -/
def ensures (d : Dialect) : Change → List Part
  | createTable t => .table t.name :: t.columns.map fun k => .column t.name (Text.lower k.name)
  | createIndex i => [.table i.table, .index i.table (i.storedName d)]
  | addColumns table columns =>
    .table table :: columns.map fun k => .column table (Text.lower k.name)
  | alterColumnType table k => [.column table (Text.lower k.name)]
  | addConstraint k => [.table k.table, match k.kind with
    | .primaryKey => .key k.table
    | .unique => .constraint k.table (k.storedName d)]
  | _ => []

/-- What is gone once the change has succeeded.  A primary key need not be gone on PostgreSQL, where
it is looked for by its kind and dropped by its name. -/
def clears (d : Dialect) : Change → List Part
  | dropTable table => [.table table]
  | dropIndex table name => [.index table (d.fit name)]
  | dropColumns table columns => columns.map fun k => .column table (Text.lower k)
  | dropConstraint table name .unique => [.constraint table (d.fit name)]
  | dropConstraint table _ .primaryKey => if d = .postgres then [] else [.key table]
  | _ => []

end Change

namespace Catalog

variable {d : Dialect} {c c' : Catalog} {l : List Statement} {table name : String} {p : Part}

/-- The part is found in the catalog. -/
def Shows (c : Catalog) : Part → Prop
  | .table t => c.hasTable t = true
  | .column t n => n ∈ c.columnNames t
  | .index t n => c.has (.index t n) = true
  | .constraint t n => c.has (.constraint t n) = true
  | .key t => c.hasKey t = true

instance (c : Catalog) : (p : Part) → Decidable (c.Shows p)
  | .table t => inferInstanceAs (Decidable (c.hasTable t = true))
  | .column t n => inferInstanceAs (Decidable (n ∈ c.columnNames t))
  | .index t n => inferInstanceAs (Decidable (c.has (.index t n) = true))
  | .constraint t n => inferInstanceAs (Decidable (c.has (.constraint t n) = true))
  | .key t => inferInstanceAs (Decidable (c.hasKey t = true))

/-- What the change does is done: what it ensures is there, and what it clears is gone. -/
structure Done (d : Dialect) (c : Catalog) (x : Change) : Prop where
  there : ∀ p ∈ x.ensures d, c.Shows p
  gone : ∀ p ∈ x.clears d, ¬ c.Shows p

instance (d : Dialect) (c : Catalog) (x : Change) : Decidable (Done d c x) :=
  decidable_of_iff ((∀ p ∈ x.ensures d, c.Shows p) ∧ ∀ p ∈ x.clears d, ¬ c.Shows p)
    ⟨fun h => ⟨h.1, h.2⟩, fun h => ⟨h.there, h.gone⟩⟩

/-! ## Done and settled -/

theorem hasName_iff {t k : String} :
    Guarded.hasName (c.columnNames t) k = true ↔ c.Shows (.column t (Text.lower k)) :=
  decide_eq_true_iff

theorem hasName_eq_false {t k : String} :
    Guarded.hasName (c.columnNames t) k = false ↔ ¬ c.Shows (.column t (Text.lower k)) := by
  rw [← Bool.not_eq_true, hasName_iff]

/-- The column that is altered is found by its name in lower case. -/
theorem has_column_iff {t : String} {k : String} (hk : Name.check d k = .ok ()) :
    c.has (.column t k) = true ↔ c.Shows (.column t (Text.lower k)) := by
  rw [has_column, Name.lower_of_check hk, Shows, columnNames, List.mem_map]
  simp only [sameName_iff]

theorem hasConstraint_iff {k : Constraint} :
    c.hasConstraint k.table (k.storedName d) k.kind = true ↔
      c.Shows (match k.kind with
        | .primaryKey => .key k.table
        | .unique => .constraint k.table (k.storedName d)) := by
  cases k.kind <;> exact Iff.rfl

/-- A settled change is done. -/
theorem Settled.done {x : Change} (h : Settled d c x) : Done d c x := by
  cases x with
  | createTable t =>
    obtain ⟨-, ⟨hhas, -, hall⟩ | ⟨-, hnil⟩⟩ := due_createTable.mp h
    · refine ⟨List.forall_mem_cons.mpr ⟨hhas, fun p hp => ?_⟩, by simp [Change.clears]⟩
      obtain ⟨k, hk, rfl⟩ := List.mem_map.mp hp
      exact hasName_iff.mp (hall k hk)
    · cases hnil
  | dropTable t =>
    obtain ⟨hnone, -⟩ | ⟨-, hnil⟩ := due_dropTable.mp h
    · exact ⟨by simp [Change.ensures], by simp [Change.clears, Shows, hnone]⟩
    · exact (not_build_nil hnil).elim
  | createIndex i =>
    obtain ⟨-, hhas, ⟨hindex, -⟩ | ⟨-, -, hnil⟩⟩ := due_createIndex.mp h
    · exact ⟨by simp [Change.ensures, Shows, hhas, hindex], by simp [Change.clears]⟩
    · cases hnil
  | dropIndex t n =>
    obtain ⟨hnone, -⟩ | ⟨-, hnil⟩ := due_dropIndex.mp h
    · exact ⟨by simp [Change.ensures], by simp [Change.clears, Shows, hnone]⟩
    · exact (not_build_nil hnil).elim
  | addColumns t columns =>
    obtain ⟨-, hhas, ⟨hnone, -⟩ | ⟨-, hnil⟩⟩ := due_addColumns.mp h
    · refine ⟨List.forall_mem_cons.mpr ⟨hhas, fun p hp => ?_⟩, by simp [Change.clears]⟩
      obtain ⟨k, hk, rfl⟩ := List.mem_map.mp hp
      exact hasName_iff.mp (missing_eq_nil.mp hnone k hk)
    · exact (not_build_nil hnil).elim
  | dropColumns t columns =>
    obtain ⟨hnone, -⟩ | ⟨-, hnil⟩ := due_dropColumns.mp h
    · refine ⟨by simp [Change.ensures], fun p hp => ?_⟩
      obtain ⟨k, hk, rfl⟩ := List.mem_map.mp hp
      exact hasName_eq_false.mp (present_eq_nil.mp hnone k hk)
    · exact (not_build_nil hnil).elim
  | alterColumnType t k => exact (not_build_nil (due_alterColumnType.mp h).2).elim
  | addConstraint k =>
    obtain ⟨-, -, hhas, ⟨hconstraint, -⟩ | ⟨-, hnil⟩⟩ := due_addConstraint.mp h
    · refine ⟨List.forall_mem_cons.mpr ⟨hhas, fun p hp => ?_⟩, by simp [Change.clears]⟩
      rw [List.mem_singleton.mp hp]
      exact hasConstraint_iff.mp hconstraint
    · cases hnil
  | dropConstraint t n kind =>
    obtain ⟨-, ⟨hnone, -⟩ | ⟨-, hnil⟩⟩ := due_dropConstraint.mp h
    · cases kind with
      | primaryKey =>
        refine ⟨by simp [Change.ensures], fun p hp => ?_⟩
        simp only [Change.clears] at hp
        split at hp
        · exact (List.not_mem_nil hp).elim
        · rw [List.mem_singleton.mp hp]
          exact Bool.eq_false_iff.mp hnone
      | unique =>
        refine ⟨by simp [Change.ensures], fun p hp => ?_⟩
        rw [List.mem_singleton.mp hp]
        exact Bool.eq_false_iff.mp hnone
    · exact (not_build_nil hnil).elim

/-- **A change that is done is settled**, if nothing speaks against it as such.  Altering a column
is never settled, and on PostgreSQL dropping a primary key is if the table has none. -/
theorem Done.settled {x : Change} {c₀ : Catalog} (hdone : Done d c x) (hdue : c₀.due d x = .ok l)
    (halter : ∀ t k, x ≠ .alterColumnType t k)
    (hkey : d = .postgres → ∀ t n, x = .dropConstraint t n .primaryKey → c.hasKey t = false) :
    Settled d c x := by
  obtain ⟨hthere, hgone⟩ := hdone
  cases x with
  | createTable t =>
    obtain ⟨hhas, hcolumns⟩ := List.forall_mem_cons.mp hthere
    refine due_createTable.mpr ⟨(due_createTable.mp hdue).1, Or.inl ⟨hhas, rfl, fun k hk => ?_⟩⟩
    exact hasName_iff.mpr (hcolumns _ (List.mem_map_of_mem hk))
  | dropTable t =>
    have hnone := hgone _ (List.mem_singleton_self _)
    exact due_dropTable.mpr (Or.inl ⟨by simpa [Shows] using hnone, rfl⟩)
  | createIndex i =>
    obtain ⟨hhas, hrest⟩ := List.forall_mem_cons.mp hthere
    have hindex := hrest _ (List.mem_singleton_self _)
    exact due_createIndex.mpr ⟨(due_createIndex.mp hdue).1, hhas, Or.inl ⟨hindex, rfl⟩⟩
  | dropIndex t n =>
    have hnone := hgone _ (List.mem_singleton_self _)
    exact due_dropIndex.mpr (Or.inl ⟨by simpa [Shows] using hnone, rfl⟩)
  | addColumns t columns =>
    obtain ⟨hhas, hcolumns⟩ := List.forall_mem_cons.mp hthere
    refine due_addColumns.mpr ⟨(due_addColumns.mp hdue).1, hhas, Or.inl ⟨?_, rfl⟩⟩
    exact missing_eq_nil.mpr fun k hk => hasName_iff.mpr (hcolumns _ (List.mem_map_of_mem hk))
  | dropColumns t columns =>
    refine due_dropColumns.mpr (Or.inl ⟨present_eq_nil.mpr fun k hk => ?_, rfl⟩)
    exact hasName_eq_false.mpr (hgone _ (List.mem_map_of_mem hk))
  | alterColumnType t k => exact (halter t k rfl).elim
  | addConstraint k =>
    obtain ⟨hhas, hrest⟩ := List.forall_mem_cons.mp hthere
    have hconstraint := hasConstraint_iff.mpr (hrest _ (List.mem_singleton_self _))
    obtain ⟨hcheck, hsupported, -⟩ := due_addConstraint.mp hdue
    exact due_addConstraint.mpr ⟨hcheck, hsupported, hhas, Or.inl ⟨hconstraint, rfl⟩⟩
  | dropConstraint t n kind =>
    refine due_dropConstraint.mpr ⟨(due_dropConstraint.mp hdue).1, Or.inl ⟨?_, rfl⟩⟩
    cases kind with
    | primaryKey =>
      by_cases hd : d = .postgres
      · exact hkey hd t n rfl
      · have hnone := hgone (.key t) (by simp [Change.clears, hd])
        exact Bool.eq_false_iff.mpr hnone
    | unique =>
      have hnone := hgone _ (List.mem_singleton_self _)
      exact Bool.eq_false_iff.mpr hnone

/-- What is found in a catalog is found in a larger one. -/
theorem Grows.shows (hg : Grows c c') (hp : c.Shows p) : c'.Shows p := by
  cases p with
  | table t => exact hg.tables t hp
  | column t n => exact hg.columns t hp
  | index t n => exact hg.indexes t n hp
  | constraint t n => exact hg.constraints t n .unique hp
  | key t => exact hg.constraints t "" .primaryKey hp

end Catalog
end SchemaMigration
