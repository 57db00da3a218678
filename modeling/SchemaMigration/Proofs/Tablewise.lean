import SchemaMigration.Proofs.SafeDrops

/-!
# Tables one by one

A catalog falls into what belongs to one table and what belongs to the others (`Catalog.only`).  A
change looks at its own table and leaves the others alone, but for the names of indexes, which
SQLite and PostgreSQL share among all tables.  So changes pass on a catalog exactly if for each
table those of it pass on what belongs to the table (`Catalog.Passes.only`,
`Catalog.passes_of_only`).
-/
namespace SchemaMigration

/-- The change is one of the table. -/
def Change.IsOn (table : String) (x : Change) : Bool :=
  Catalog.sameName x.table table

/-- The name under which the change creates a table or an index. -/
def Change.newNames (d : Dialect) : Change → List String
  | createTable t => [t.name]
  | createIndex i => [i.storedName d]
  | _ => []

/-- The name under which the change creates a table, or creates or drops an index. -/
def Change.storedNames (d : Dialect) : Change → List String
  | dropIndex _ name => [d.fit name]
  | x => x.newNames d

/-- The statement is one of the table. -/
def Statement.IsOn (table : String) : Statement → Prop
  | .createTable t _ _ | .dropTable t | .dropIndex t _ | .addColumns t _ | .dropColumns t _
  | .alterColumn t _ | .dropConstraint t _ _ => Catalog.sameName t table = true
  | .createIndex i => Catalog.sameName i.table table = true
  | .addConstraint k => Catalog.sameName k.table table = true
  | _ => False

namespace Catalog

variable {d : Dialect} {c c' : Catalog} {l : List Statement} {table name other : String}

/-- The table and what belongs to it. -/
def only (c : Catalog) (table : String) : Catalog where
  tables := c.tables.filter fun t => sameName t.name table
  indexes := c.indexes.filter fun i => sameName i.table table
  constraints := c.constraints.filter fun k => sameName k.table table
  recorded := c.recorded.filter fun r => sameName r.1 table

/-! ## What is found of a table -/

section Found

variable (h : sameName name table = true)

include h

theorem sameName_left (a : String) : sameName a table = sameName a name := by
  rw [sameName, sameName, sameName_iff.mp h]

theorem hasTable_only : (c.only table).hasTable name = c.hasTable name := by
  simp [hasTable, only, List.any_filter, sameName_left h]

theorem table?_only : (c.only table).table? name = c.table? name := by
  simp [table?, only, List.find?_filter, sameName_left h]

theorem columnsOf_only : (c.only table).columnsOf name = c.columnsOf name := by
  rw [columnsOf, table?_only h, columnsOf]

theorem columnNames_only : (c.only table).columnNames name = c.columnNames name := by
  rw [columnNames, columnsOf_only h, columnNames]

theorem has_index_only {n : String} :
    (c.only table).has (.index name n) = c.has (.index name n) := by
  rw [Bool.eq_iff_iff, has_index, has_index]
  simp only [only, List.mem_filter, sameName_left h]
  exact exists_congr fun i => by tauto

theorem has_constraint_only {n : String} :
    (c.only table).has (.constraint name n) = c.has (.constraint name n) := by
  rw [Bool.eq_iff_iff, has_constraint, has_constraint]
  simp only [only, List.mem_filter, sameName_left h]
  exact exists_congr fun k => by tauto

theorem has_column_only {n : String} :
    (c.only table).has (.column name n) = c.has (.column name n) := by
  rw [Bool.eq_iff_iff, has_column, has_column, columnsOf_only h]

theorem hasKey_only : (c.only table).hasKey name = c.hasKey name := by
  simp [hasKey, only, List.any_filter, sameName_left h]

theorem hasConstraint_only {n : String} {kind : ConstraintKind} :
    (c.only table).hasConstraint name n kind = c.hasConstraint name n kind := by
  cases kind with
  | primaryKey => exact hasKey_only h
  | unique => exact has_constraint_only h

theorem usesColumn_only {n : String} :
    (c.only table).usesColumn name n = c.usesColumn name n := by
  simp [usesColumn, only, List.any_filter, sameName_left h]

end Found

/-! ## Statements of one table -/

/-- Where index names are shared, the indexes of the name are of the table. -/
def NamesIndexOf (d : Dialect) (c : Catalog) (table name : String) : Prop :=
  d.sharesIndexNames = true →
    ∀ i ∈ c.indexes, sameName i.name name = true → sameName i.table table = true

/-- What has the name that the statement gives or takes away belongs to its table. -/
def OwnsName (d : Dialect) (c : Catalog) : Statement → Prop
  | .createTable t _ _ => c.NamesIndexOf d t t
  | .createIndex i => c.NamesIndexOf d i.table i.name ∧
    (d.sharesIndexNames = true → c.hasTable i.name = true → sameName i.name i.table = true)
  | .dropIndex t n => c.NamesIndexOf d t n
  | _ => True

section Carried

variable {st : Statement}

theorem indexesNamed_only (h : sameName name table = true) {n : String}
    (hown : c.NamesIndexOf d name n) :
    (c.only table).indexesNamed d name n = c.indexesNamed d name n := by
  rw [indexesNamed, only, List.filter_filter, indexesNamed]
  refine List.filter_congr fun i hi => ?_
  rw [sameName_left h]
  cases hd : d.sharesIndexNames with
  | false => rw [Bool.false_or, Bool.and_assoc, Bool.and_self]
  | true =>
    have htable := hown hd i hi
    cases hname : sameName i.name n with
    | false => rfl
    | true => rw [htable hname]; rfl

theorem any_indexes_only (h : sameName name table = true) {n : String}
    (hown : c.NamesIndexOf d name n) (hd : d.sharesIndexNames = true) :
    ((c.only table).indexes.any fun i => sameName i.name n) =
      c.indexes.any fun i => sameName i.name n := by
  rw [only, List.any_filter, Bool.eq_iff_iff, List.any_eq_true, List.any_eq_true]
  refine exists_congr fun i => and_congr_right fun hi => ?_
  rw [Bool.and_eq_true, and_iff_right_iff_imp, sameName_left h]
  exact hown hd i hi

theorem only_setColumns {columns : List Column} :
    (c.setColumns name columns).only table = (c.only table).setColumns name columns := by
  simp only [only, setColumns, List.filter_map, mk.injEq, and_self, and_true]
  refine congrArg _ (List.filter_congr fun t _ => ?_)
  simp only [Function.comp]
  split <;> rfl

theorem only_releaseColumns (h : sameName name table = true) {dropped : List String} :
    (c.releaseColumns d name dropped).only table =
      (c.only table).releaseColumns d name dropped := by
  simp only [only, releaseColumns, List.filter_filterMap, List.filterMap_filter, mk.injEq, true_and,
    and_true, sameName_left h]
  constructor
  · refine List.filterMap_congr fun i _ => ?_
    cases hi : sameName i.table name with
    | false => simp [hi]
    | true => cases columnsLeft d dropped i.columns <;> simp [hi]
  · refine List.filterMap_congr fun k _ => ?_
    cases hk : sameName k.table name with
    | false => simp [hk]
    | true => cases columnsLeft d dropped k.columns <;> simp [hk]

/-- **A statement of a table is carried out on the table alone as on the whole.** -/
theorem carryOut_only (hon : st.IsOn table) (hown : c.OwnsName d st) :
    (c.only table).carryOut d st = (c.carryOut d st).map (·.only table) := by
  cases st with
  | createTable name columns key =>
    have hindexes :
        (d.sharesIndexNames && (c.only table).indexes.any fun i => sameName i.name name) =
          (d.sharesIndexNames && c.indexes.any fun i => sameName i.name name) := by
      cases hd : d.sharesIndexNames with
      | false => rfl
      | true => rw [any_indexes_only hon hown hd]
    simp only [carryOut, hasTable_only hon, hindexes]
    split
    · rfl
    split
    · rfl
    split
    · rfl
    have htable : sameName name table = true := hon
    have hkey : (key.toList.map fun k => stored d ⟨name, k.name, .primaryKey, k.columns⟩).filter
        (fun k => sameName k.table table) =
          key.toList.map fun k => stored d ⟨name, k.name, .primaryKey, k.columns⟩ := by
      refine List.filter_eq_self.mpr fun k hk => ?_
      obtain ⟨k', -, rfl⟩ := List.mem_map.mp hk
      rwa [stored_table]
    simp only [Except.map, only, List.filter_append, hkey, List.filter_cons, htable, if_true,
      List.filter_nil]
  | dropTable name =>
    simp only [carryOut, hasTable_only hon]
    split
    · simp only [Except.map, only, List.filter_filter, Bool.and_comm]
    · rfl
  | createIndex i =>
    have htable : sameName i.table table = true := hon
    have hindexes := indexesNamed_only hon hown.1
    have hhas : (d.sharesIndexNames && (c.only table).hasTable i.name) =
        (d.sharesIndexNames && c.hasTable i.name) := by
      cases hd : d.sharesIndexNames with
      | false => rfl
      | true =>
        rw [Bool.true_and, Bool.true_and, Bool.eq_iff_iff]
        constructor
        · intro h
          obtain ⟨t, ht, hname⟩ := List.any_eq_true.mp h
          exact List.any_eq_true.mpr ⟨t, List.mem_of_mem_filter ht, hname⟩
        · intro h
          rwa [hasTable_only (sameName_trans (hown.2 hd h) hon)]
    simp only [carryOut, table?_only hon, hindexes, hhas]
    split
    · rfl
    split
    · rfl
    split
    · rfl
    split
    · rfl
    · simp only [Except.map, only, List.filter_append, List.filter_cons, htable, if_true,
        List.filter_nil]
  | dropIndex t n =>
    have hindexes := indexesNamed_only hon hown
    simp only [carryOut, hindexes]
    split
    · rfl
    · simp only [Except.map, only, List.filter_filter, Bool.and_comm]
  | addColumns t columns =>
    simp only [carryOut, table?_only hon]
    split
    · rfl
    · cases appendColumns _ columns with
      | error f => rfl
      | ok all => simp only [Except.map, only_setColumns]
  | dropColumns t columns =>
    have hused : (c.only table).usesColumn t = c.usesColumn t :=
      funext fun n => usesColumn_only hon
    rw [carryOut, carryOut, table?_only hon, hused]
    split
    · rfl
    split
    · rfl
    · cases removeColumns _ columns with
      | error f => rfl
      | ok left => simp only [Except.map, only_setColumns, only_releaseColumns hon]
  | alterColumn t k =>
    simp only [carryOut, table?_only hon]
    split
    · rfl
    split
    · simp only [Except.map, only_setColumns]
    · rfl
  | addConstraint k =>
    have htable : sameName k.table table = true := hon
    have hany : ((c.only table).constraints.any fun old => sameName old.table k.table &&
          (sameName old.name k.name ||
            (decide (old.kind = .primaryKey) && decide (k.kind = .primaryKey)))) =
        c.constraints.any fun old => sameName old.table k.table &&
          (sameName old.name k.name ||
            (decide (old.kind = .primaryKey) && decide (k.kind = .primaryKey))) := by
      simp [only, List.any_filter, sameName_left hon]
    simp only [carryOut, table?_only hon, hany]
    split
    · rfl
    split
    · rfl
    split
    · rfl
    · simp only [Except.map, only, List.filter_append, List.filter_cons, stored_table, htable,
        if_true, List.filter_nil]
  | dropConstraint t n kind =>
    have hmeant : (c.only table).constraintsMeant d t n kind = c.constraintsMeant d t n kind := by
      simp only [constraintsMeant, only, List.filter_filter, sameName_left hon]
      refine List.filter_congr fun k _ => ?_
      cases sameName k.table t <;> simp
    simp only [carryOut, hmeant]
    split
    · rfl
    · simp only [Except.map, only, List.filter_filter, Bool.and_comm]
  | recordVersion history v => exact hon.elim
  | verbatim text => rfl

section Others

variable (hother : sameName other name = false)

include hother

theorem only_setColumns_other {columns : List Column} :
    (c.setColumns name columns).only other = c.only other := by
  have hname : ((fun t : StoredTable => sameName t.name other) ∘ fun t : StoredTable =>
      if sameName t.name name then { t with columns := columns } else t) =
      fun t => sameName t.name other := by
    funext t
    simp only [Function.comp]
    split <;> rfl
  simp only [only, setColumns, List.filter_map, hname, mk.injEq, and_self, and_true]
  refine (List.map_congr_left fun t ht => ?_).trans (List.map_id _)
  rw [if_neg (by simp [sameName_false (List.mem_filter.mp ht).2 hother])]
  rfl

theorem only_releaseColumns_other {dropped : List String} :
    (c.releaseColumns d name dropped).only other = c.only other := by
  simp only [only, releaseColumns, List.filter_filterMap, mk.injEq, true_and, and_true,
    ← List.filterMap_eq_filter]
  constructor
  · refine List.filterMap_congr fun i _ => ?_
    cases hi : sameName i.table other with
    | false =>
      cases sameName i.table name <;> cases columnsLeft d dropped i.columns <;>
        simp [hi, Option.guard]
    | true => simp [hi, sameName_false hi hother]
  · refine List.filterMap_congr fun k _ => ?_
    cases hk : sameName k.table other with
    | false =>
      cases sameName k.table name <;> cases columnsLeft d dropped k.columns <;>
        simp [hk, Option.guard]
    | true => simp [hk, sameName_false hk hother]

/-- Entries of another table stay where those that go are of this one. -/
theorem filter_other {α : Type} {l : List α} {of : α → String} {p : α → Bool}
    (hgone : ∀ a ∈ l, p a = false → sameName (of a) name = true) :
    (l.filter p).filter (fun a => sameName (of a) other) =
      l.filter fun a => sameName (of a) other := by
  rw [List.filter_filter]
  refine List.filter_congr fun a ha => ?_
  cases hp : p a with
  | true => rw [Bool.and_true]
  | false =>
    rw [Bool.and_false]
    refine (Bool.eq_false_iff.mpr fun hof => ?_).symm
    cases (hgone a ha hp).symm.trans (sameName_false hof hother)

/-- New entries of this table are none of the other. -/
theorem filter_append_other {α : Type} {l new : List α} {of : α → String}
    (hnew : ∀ a ∈ new, sameName (of a) name = true) :
    (l ++ new).filter (fun a => sameName (of a) other) =
      l.filter fun a => sameName (of a) other := by
  have hnone : new.filter (fun a => sameName (of a) other) = [] := by
    refine List.filter_eq_nil_iff.mpr fun a ha hof => ?_
    cases (hnew a ha).symm.trans (sameName_false hof hother)
  rw [List.filter_append, hnone, List.append_nil]

end Others

/-- **A statement of one table leaves the others alone.** -/
theorem carryOut_only_other (h : c.carryOut d st = .ok c') (hon : st.IsOn table)
    (hown : c.OwnsName d st) (hother : sameName other table = false) :
    c'.only other = c.only other := by
  cases st with
  | createTable name columns key =>
    rw [sameName_left hon] at hother
    obtain ⟨-, rfl⟩ := carryOut_createTable h
    simp only [only, mk.injEq, true_and, and_true]
    constructor
    · exact filter_append_other hother (by simp [sameName_refl])
    · refine filter_append_other hother fun k hk => ?_
      obtain ⟨k', -, rfl⟩ := List.mem_map.mp hk
      rw [stored_table]
      exact sameName_refl _
  | dropTable name =>
    rw [sameName_left hon] at hother
    rw [carryOut_dropTable h]
    simp only [only, mk.injEq]
    refine ⟨?_, ?_, ?_, ?_⟩ <;> exact filter_other hother (by simp)
  | createIndex i =>
    rw [sameName_left hon] at hother
    obtain ⟨-, rfl⟩ := carryOut_createIndex h
    simp only [only, mk.injEq, true_and, and_true]
    exact filter_append_other hother (by simp [sameName_refl])
  | dropIndex t n =>
    rw [sameName_left hon] at hother
    rw [carryOut_dropIndex h]
    simp only [only, mk.injEq, true_and, and_true]
    refine filter_other hother fun i hi hgone => ?_
    have hnamed : i ∈ c.indexesNamed d t n := by simpa using hgone
    obtain ⟨hname, htable⟩ := Bool.and_eq_true_iff.mp (List.mem_filter.mp hnamed).2
    exact (Bool.or_eq_true_iff.mp htable).elim (fun hd => hown hd i hi hname) id
  | addColumns t columns =>
    rw [sameName_left hon] at hother
    obtain ⟨-, rfl⟩ := carryOut_addColumns h
    exact only_setColumns_other hother
  | dropColumns t columns =>
    rw [sameName_left hon] at hother
    obtain ⟨-, rfl⟩ := carryOut_dropColumns h
    exact (only_setColumns_other hother).trans (only_releaseColumns_other hother)
  | alterColumn t k =>
    rw [sameName_left hon] at hother
    obtain ⟨-, rfl⟩ := carryOut_alterColumn h
    exact only_setColumns_other hother
  | addConstraint k =>
    rw [sameName_left hon] at hother
    obtain ⟨-, rfl⟩ := carryOut_addConstraint h
    simp only [only, mk.injEq, true_and, and_true]
    exact filter_append_other hother (by simp [sameName_refl])
  | dropConstraint t n kind =>
    rw [sameName_left hon] at hother
    rw [carryOut_dropConstraint h]
    simp only [only, mk.injEq, true_and, and_true]
    refine filter_other hother fun k hk hgone => ?_
    have hmeant : k ∈ c.constraintsMeant d t n kind := by simpa using hgone
    exact (Bool.and_eq_true_iff.mp (List.mem_filter.mp hmeant).2).1
  | recordVersion history v => exact hon.elim
  | verbatim text => cases h

end Carried

/-! ## Changes of one table -/

/-- What has the name that the change gives or takes away belongs to its table. -/
def OwnsNames (d : Dialect) (c : Catalog) : Change → Prop
  | .createTable t => c.NamesIndexOf d t.name t.name
  | .createIndex i => c.NamesIndexOf d i.table (i.storedName d) ∧ (d.sharesIndexNames = true →
    c.hasTable (i.storedName d) = true → sameName (i.storedName d) i.table = true)
  | .dropIndex t n => c.NamesIndexOf d t (d.fit n)
  | _ => True

section Changes

variable {x : Change}

theorem indexNameTaken_only {i : Index} (h : sameName i.table table = true)
    (hown : c.NamesIndexOf d i.table (i.storedName d)) :
    (c.only table).indexNameTaken d i = c.indexNameTaken d i := by
  cases hd : d.sharesIndexNames with
  | false => simp [indexNameTaken, hd]
  | true =>
    have howners : (c.only table).indexOwners (i.storedName d) =
        c.indexOwners (i.storedName d) := by
      rw [indexOwners, only, List.filter_filter, indexOwners]
      refine congrArg (fun l : List Index => (l.map fun i => i.table.map Char.toLower).eraseDups)
        (List.filter_congr fun j hj => ?_)
      rw [sameName_left h]
      cases hname : sameName j.name (i.storedName d) with
      | false => rfl
      | true => rw [hown hd j hj hname]; rfl
    rw [indexNameTaken, howners, indexNameTaken]

/-- **What is due for a change depends on its table**, and on the name of a new index. -/
theorem due_only (hon : x.IsOn table = true) (hown : ∀ i, x = .createIndex i →
    c.has (.index i.table (i.storedName d)) = false →
      c.NamesIndexOf d i.table (i.storedName d)) : (c.only table).due d x = c.due d x := by
  cases x with
  | createTable t =>
    have h : sameName t.name table = true := hon
    simp only [due, hasTable_only h, lacking, columnNames_only h]
  | dropTable t =>
    have h : sameName t table = true := hon
    simp only [due, hasTable_only h]
  | createIndex i =>
    have h : sameName i.table table = true := hon
    simp only [due, tableNeeded, hasTable_only h, has_index_only h]
    cases hhas : c.has (.index i.table (i.storedName d)) with
    | true => rfl
    | false => rw [indexNameTaken_only h (hown i rfl hhas)]
  | dropIndex t n =>
    have h : sameName t table = true := hon
    simp only [due, has_index_only h]
  | addColumns t columns =>
    have h : sameName t table = true := hon
    simp only [due, tableNeeded, hasTable_only h, missing, columnNames_only h]
  | dropColumns t columns =>
    have h : sameName t table = true := hon
    simp only [due, present, columnNames_only h]
  | alterColumnType t k =>
    have h : sameName t table = true := hon
    simp only [due, has_column_only h]
  | addConstraint k =>
    have h : sameName k.table table = true := hon
    simp only [due, tableNeeded, hasTable_only h, hasConstraint_only h]
  | dropConstraint t n kind =>
    have h : sameName t table = true := hon
    simp only [due, hasConstraint_only h]

/-- The statements are carried out on the table alone as on the whole, and leave other tables
alone. -/
structure Confined (d : Dialect) (c : Catalog) (table : String) (l : List Statement) : Prop where
  alone : (c.only table).carryOutAll d l = (c.carryOutAll d l).map (·.only table)
  others : ∀ c', c.carryOutAll d l = .ok c' →
    ∀ other, sameName other table = false → c'.only other = c.only other

theorem confined_nil (d : Dialect) (c : Catalog) (table : String) : Confined d c table [] := by
  refine ⟨rfl, fun c' h other _ => ?_⟩
  cases h
  rfl

theorem Confined.cons {st : Statement} (hon : st.IsOn table) (hown : c.OwnsName d st)
    (hrest : ∀ c', c.carryOut d st = .ok c' → Confined d c' table l) :
    Confined d c table (st :: l) := by
  have hone := carryOut_only hon hown
  constructor
  · rw [carryOutAll, carryOutAll, hone]
    cases hc : c.carryOut d st with
    | error f => rfl
    | ok c₁ => exact (hrest c₁ hc).alone
  · intro c' h other hother
    obtain ⟨c₁, hcarried, hall⟩ := carryOutAll_cons_ok.mp h
    rw [(hrest c₁ hcarried).others c' hall other hother,
      carryOut_only_other hcarried hon hown hother]

/-- Columns are added and dropped without regard to names of indexes. -/
theorem confined_columns (h : sameName name table = true)
    (hl : ∀ st ∈ l, (∃ columns, st = .addColumns name columns) ∨
      ∃ columns, st = .dropColumns name columns) : Confined d c table l := by
  induction l generalizing c with
  | nil => exact confined_nil d c table
  | cons st rest ih =>
    obtain ⟨hst, hrest⟩ := List.forall_mem_cons.mp hl
    obtain ⟨columns, rfl⟩ | ⟨columns, rfl⟩ := hst
    · exact .cons h trivial fun _ _ => ih hrest
    · exact .cons h trivial fun _ _ => ih hrest

/-- **What is due for a change is confined to its table**, if the names are. -/
theorem confined_due (hon : x.IsOn table = true) (hdue : c.due d x = .ok l)
    (hown : l ≠ [] → c.OwnsNames d x) : Confined d c table l := by
  have hone : ∀ {st : Statement}, st.IsOn table → c.OwnsName d st → Confined d c table [st] :=
    fun hon hown => .cons hon hown fun _ _ => confined_nil d _ table
  obtain rfl | hbuild := due_narrowed hdue
  · exact confined_nil d c table
  have hnames := hown (Change.build_ne_nil hbuild)
  obtain ⟨-, -, rfl⟩ := Change.build_eq_ok.mp hbuild
  cases x with
  | createTable t => exact hone hon hnames
  | dropTable t => exact hone hon trivial
  | createIndex i => exact hone hon hnames
  | dropIndex t n =>
    refine hone hon ?_
    rw [Dialect.fit_fit]
    exact hnames
  | addColumns t columns =>
    have h : sameName t table = true := hon
    refine confined_columns h fun st hst => .inl ?_
    simp only [narrowed, Change.statements] at hst
    split at hst
    · exact ⟨_, List.mem_singleton.mp hst⟩
    · obtain ⟨k, -, rfl⟩ := List.mem_map.mp hst
      exact ⟨_, rfl⟩
  | dropColumns t columns =>
    have h : sameName t table = true := hon
    refine confined_columns h fun st hst => .inr ?_
    simp only [narrowed, Change.statements] at hst
    split at hst
    · exact ⟨_, List.mem_singleton.mp hst⟩
    · obtain ⟨k, -, rfl⟩ := List.mem_map.mp hst
      exact ⟨_, rfl⟩
  | alterColumnType t k => exact hone hon trivial
  | addConstraint k => exact hone hon trivial
  | dropConstraint t n kind => exact hone hon trivial

/-- A change that has been carried out has found its names free for its table. -/
theorem ownsNames_of_carried (hdue : c.due d x = .ok l) (hcarried : c.carryOutAll d l = .ok c')
    (hapart : c.IndexNamesApart d) (hne : l ≠ []) : c.OwnsNames d x := by
  obtain hnil | hbuild := due_narrowed hdue
  · exact (hne hnil).elim
  obtain ⟨-, -, rfl⟩ := Change.build_eq_ok.mp hbuild
  cases x with
  | createTable t =>
    intro hd i hi hname
    have h := carryOutAll_one hcarried
    simp only [carryOut] at h
    split at h
    · cases h
    split at h
    · cases h
    next hnone =>
    simp only [hd, Bool.true_and, Bool.not_eq_true, List.any_eq_false] at hnone
    cases (hnone i hi).symm.trans hname
  | createIndex i =>
    have h := carryOutAll_one hcarried
    have hfree := createIndex_free h
    constructor
    · intro hd j hj hname
      have hmem : j ∈ c.indexesNamed d i.table (i.storedName d) := by
        simp [indexesNamed, hj, hname, hd]
      rw [hfree] at hmem
      cases hmem
    · intro hd hhas
      simp only [carryOut] at h
      split at h
      · cases h
      split at h
      · cases h
      next hnone =>
      rw [hd, hhas] at hnone
      exact (hnone rfl).elim
  | dropIndex t n =>
    intro hd j hj hname
    obtain ⟨-, hnil⟩ | ⟨hhas, -⟩ := due_dropIndex.mp hdue
    · exact (hne hnil).elim
    obtain ⟨i, hi, htable, hi'⟩ := has_index.mp hhas
    have hsame := hapart hd j hj i hi (sameName_trans hname (sameName_symm hi'))
    exact sameName_trans hsame htable
  | _ => trivial

/-- What is due depends on the table as far as anything is carried out under names of its own. -/
theorem due_only_of_owns (hon : x.IsOn table = true) (hdue : c.due d x = .ok l)
    (hown : l ≠ [] → c.OwnsNames d x) : (c.only table).due d x = .ok l := by
  rw [due_only hon, hdue]
  rintro i rfl hhas
  obtain ⟨-, -, ⟨hfound, -⟩ | ⟨-, -, rfl⟩⟩ := due_createIndex.mp hdue
  · cases hhas.symm.trans hfound
  · exact (hown (List.cons_ne_nil _ _)).1

end Changes

theorem carryOutAll_indexNamesApart (h : c.carryOutAll d l = .ok c')
    (hc : c.IndexNamesApart d) : c'.IndexNamesApart d := by
  induction l generalizing c with
  | nil =>
    cases h
    exact hc
  | cons st rest ih =>
    obtain ⟨c₁, hone, hrest⟩ := carryOutAll_cons_ok.mp h
    exact ih hrest (carryOut_indexNamesApart hone hc)

theorem sameName_comm (a b : String) : sameName a b = sameName b a := by
  rw [Bool.eq_iff_iff]
  exact ⟨sameName_symm, sameName_symm⟩

/-- **Changes that pass on a catalog pass on each table of it**, those of the table. -/
theorem Passes.only {xs : List Change} {ls : List (List Statement)} (h : Passes d c xs ls c')
    (hapart : c.IndexNamesApart d) (table : String) :
    ∃ ms, Passes d (c.only table) (xs.filter (Change.IsOn table)) ms (c'.only table) := by
  induction h with
  | nil c => exact ⟨[], .nil _⟩
  | @cons c x xs l ls c₁ c' hdue hcarried _ ih =>
    obtain ⟨ms, hms⟩ := ih (carryOutAll_indexNamesApart hcarried hapart)
    have hown : l ≠ [] → c.OwnsNames d x := ownsNames_of_carried hdue hcarried hapart
    cases hon : x.IsOn table with
    | true =>
      rw [List.filter_cons_of_pos hon]
      refine ⟨l :: ms, .cons (due_only_of_owns hon hdue hown) ?_ hms⟩
      rw [(confined_due hon hdue hown).alone, hcarried]
      rfl
    | false =>
      rw [List.filter_cons_of_neg (by simp [hon])]
      have hothers := (confined_due (sameName_refl _) hdue hown).others c₁ hcarried table
      rw [sameName_comm] at hothers
      rw [← hothers hon]
      exact ⟨ms, hms⟩

/-! ## From tables to the whole -/

variable {xs : List Change} {x : Change}

/-- Where index names are shared, the names that the change uses are those of its table: neither the
catalog nor any of the changes gives such a name to another table or to an index of it. -/
def NamesFree (d : Dialect) (c : Catalog) (xs : List Change) (x : Change) : Prop :=
  d.sharesIndexNames = true → ∀ n ∈ x.storedNames d,
    (∀ i ∈ c.indexes, sameName i.name n = true → sameName i.table x.table = true) ∧
    (c.hasTable n = true → sameName n x.table = true) ∧
    ∀ y ∈ xs, ∀ m ∈ y.newNames d, sameName m n = true → sameName y.table x.table = true

instance (d : Dialect) (c : Catalog) (xs : List Change) (x : Change) :
    Decidable (c.NamesFree d xs x) :=
  inferInstanceAs (Decidable (_ → _))

/-- The catalog shows nothing but what the other one does and what the changes add. -/
def ShownBy (d : Dialect) (c : Catalog) (xs : List Change) (e : Catalog) : Prop :=
  ∀ p, e.Shows p → c.Shows p ∨ ∃ y ∈ xs, y.adds d p = true

theorem newNames_of_adds_index {y : Change} {u n : String} (h : y.adds d (.index u n) = true) :
    ∃ m ∈ y.newNames d, sameName m n = true ∧ sameName y.table u = true := by
  cases y with
  | createIndex i =>
    obtain ⟨hu, hn⟩ := Bool.and_eq_true_iff.mp h
    exact ⟨_, List.mem_singleton_self _, sameName_symm hn, sameName_symm hu⟩
  | _ => cases h

theorem newNames_of_adds_table {y : Change} {n : String} (h : y.adds d (.table n) = true) :
    y.table ∈ y.newNames d ∧ sameName y.table n = true := by
  cases y with
  | createTable t => exact ⟨List.mem_singleton_self _, sameName_symm h⟩
  | _ => cases h

section Free

variable {e : Catalog} (h : c.NamesFree d xs x) (hshown : c.ShownBy d xs e)

include h hshown

theorem NamesFree.namesIndex {n : String} (hn : n ∈ x.storedNames d) :
    e.NamesIndexOf d x.table n := by
  intro hd i hi hname
  obtain ⟨hindexes, -, hnew⟩ := h hd n hn
  obtain hold | ⟨y, hy, hadds⟩ :=
    hshown (.index i.table n) (has_index.mpr ⟨i, hi, sameName_refl _, hname⟩)
  · obtain ⟨j, hj, htable, hname'⟩ := has_index.mp hold
    exact sameName_trans (sameName_symm htable) (hindexes j hj hname')
  · obtain ⟨m, hm, hname', htable⟩ := newNames_of_adds_index hadds
    exact sameName_trans (sameName_symm htable) (hnew y hy m hm hname')

theorem NamesFree.namesTable {n : String} (hn : n ∈ x.storedNames d)
    (hd : d.sharesIndexNames = true) (hhas : e.hasTable n = true) :
    sameName n x.table = true := by
  obtain ⟨-, htables, hnew⟩ := h hd n hn
  obtain hold | ⟨y, hy, hadds⟩ := hshown (.table n) hhas
  · exact htables hold
  · obtain ⟨hm, hname⟩ := newNames_of_adds_table hadds
    exact sameName_trans (sameName_symm hname) (hnew y hy _ hm hname)

theorem NamesFree.ownsNames : e.OwnsNames d x := by
  cases x with
  | createTable t => exact h.namesIndex hshown (List.mem_singleton_self _)
  | createIndex i =>
    have hn : i.storedName d ∈ (Change.createIndex i).storedNames d := List.mem_singleton_self _
    exact ⟨h.namesIndex hshown hn, h.namesTable hshown hn⟩
  | dropIndex t n => exact h.namesIndex hshown (List.mem_singleton_self _)
  | _ => trivial

end Free

/-- What is due on the table is due on the whole. -/
theorem due_of_only (hon : x.IsOn table = true) (hdue : (c.only table).due d x = .ok l)
    (hown : l ≠ [] → c.OwnsNames d x) : c.due d x = .ok l := by
  rw [← due_only hon, hdue]
  rintro i rfl hhas
  have h : sameName i.table table = true := hon
  obtain ⟨-, -, ⟨hfound, -⟩ | ⟨-, -, rfl⟩⟩ := due_createIndex.mp hdue
  · rw [has_index_only h, hhas] at hfound
    cases hfound
  · exact (hown (List.cons_ne_nil _ _)).1

/-- **Changes that pass on each table by themselves pass on the whole**, if those that something is
carried out for have their names free.  They leave of each table what they lead to there. -/
theorem passes_of_only {all : List Change} (hsub : xs ⊆ all) {e : Catalog}
    (hshown : c.ShownBy d all e) {left : String → Catalog → Prop}
    (halone : ∀ table, ∃ ms g,
      Passes d (e.only table) (xs.filter (Change.IsOn table)) ms g ∧ left table g ∧
        (xs.filter (Change.IsOn table)).Forall₂ (fun x l => l = [] ∨ c.NamesFree d all x) ms) :
    ∃ ls e', Passes d e xs ls e' ∧ ∀ table, left table (e'.only table) := by
  induction xs generalizing e with
  | nil =>
    refine ⟨[], e, .nil e, fun table => ?_⟩
    obtain ⟨ms, g, hms, hleft, -⟩ := halone table
    cases hms
    exact hleft
  | cons x rest ih =>
    obtain ⟨hx, hrest⟩ := List.cons_subset.mp hsub
    -- the change on its own table says what is due
    obtain ⟨l, e₁, hown, hdue, hcarried⟩ : ∃ l e₁, (l ≠ [] → e.OwnsNames d x) ∧
        e.due d x = .ok l ∧ e.carryOutAll d l = .ok e₁ := by
      have hon : x.IsOn x.table = true := sameName_refl _
      obtain ⟨ms, g, hms, -, hfree⟩ := halone x.table
      rw [List.filter_cons_of_pos hon] at hms hfree
      cases hms with
      | @cons _ _ _ l _ _ _ hdue hcarried _ =>
        obtain ⟨hnil | hfree, -⟩ := List.forall₂_cons.mp hfree
        · subst hnil
          exact ⟨[], e, fun h => (h rfl).elim, due_of_only hon hdue fun h => (h rfl).elim, rfl⟩
        · have hown : l ≠ [] → e.OwnsNames d x := fun _ => hfree.ownsNames hshown
          have hdue' := due_of_only hon hdue hown
          rw [(confined_due hon hdue' hown).alone] at hcarried
          cases hall : e.carryOutAll d l with
          | error f =>
            rw [hall] at hcarried
            cases hcarried
          | ok e₁ => exact ⟨l, e₁, hown, hdue', hall⟩
    have hshown₁ : c.ShownBy d all e₁ := by
      intro p hp
      rcases shows_of_added hdue hcarried hp with hp | hadds
      · exact hshown p hp
      · exact .inr ⟨x, hx, hadds⟩
    obtain ⟨ls, e', hpasses, honly⟩ := ih hrest hshown₁ fun table => by
      obtain ⟨ms, g, hms, hleft, hfree⟩ := halone table
      cases hon : x.IsOn table with
      | true =>
        rw [List.filter_cons_of_pos hon] at hms hfree
        cases hms with
        | @cons _ _ _ l' ls' c₁ _ hdue' hcarried' hms =>
          cases hdue'.symm.trans (due_only_of_owns hon hdue hown)
          rw [(confined_due hon hdue hown).alone, hcarried] at hcarried'
          cases hcarried'
          exact ⟨ls', g, hms, hleft, (List.forall₂_cons.mp hfree).2⟩
      | false =>
        rw [List.filter_cons_of_neg (by simp [hon])] at hms hfree
        rw [Change.IsOn, sameName_comm] at hon
        rw [(confined_due (sameName_refl _) hdue hown).others e₁ hcarried table hon]
        exact ⟨ms, g, hms, hleft, hfree⟩
    exact ⟨l :: ls, e', .cons hdue hcarried hpasses, honly⟩

theorem only_congr {other : String} (h : sameName table other = true) :
    c.only table = c.only other := by
  have hsame : ∀ a, sameName a table = sameName a other := sameName_left (sameName_symm h)
  simp only [only, hsame]

/-! ## The same catalog -/

/-- The catalogs hold the same tables, indexes, constraints and records. -/
structure Same (c c' : Catalog) : Prop where
  tables : c.tables.Perm c'.tables
  indexes : c.indexes.Perm c'.indexes
  constraints : c.constraints.Perm c'.constraints
  recorded : c.recorded.Perm c'.recorded

theorem Same.refl (c : Catalog) : c.Same c :=
  ⟨.refl _, .refl _, .refl _, .refl _⟩

/-- Lists of entries are the same if they are for each table. -/
theorem perm_of_only {α : Type} [DecidableEq α] {of : α → String} {l l' : List α}
    (h : ∀ table, (l.filter fun a => sameName (of a) table).Perm
      (l'.filter fun a => sameName (of a) table)) : l.Perm l' := by
  refine List.perm_iff_count.mpr fun a => ?_
  have hcount : ∀ l : List α, (l.filter fun b => sameName (of b) (of a)).count a = l.count a :=
    fun _ => List.count_filter (sameName_refl (of a))
  rw [← hcount l, ← hcount l', (h (of a)).count_eq]

/-- **Catalogs are the same if they are table by table.** -/
theorem same_of_only (h : ∀ table, (c.only table).Same (c'.only table)) : c.Same c' where
  tables := perm_of_only fun table => (h table).tables
  indexes := perm_of_only fun table => (h table).indexes
  constraints := perm_of_only fun table => (h table).constraints
  recorded := perm_of_only fun table => (h table).recorded

end Catalog
end SchemaMigration
