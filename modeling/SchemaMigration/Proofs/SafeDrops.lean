import SchemaMigration.Proofs.Clashes

/-!
# Dropping what is there

A request to drop something means objects of a catalog (`Catalog.HoldsAsked`).  If it holds any,
every statement that is sent drops such an object and finds it there, and afterwards they are gone
and nothing else is (`Catalog.without`); if it holds none, nothing is sent and nothing changes
(`Change.ensure_drops`).

A constraint is looked for in one way and dropped in another: a primary key is found by its kind and
dropped by its name, and a unique constraint is found by a name that a primary key may have.  Where
the two ways lead to different constraints, a request can fail although there is nothing to drop
(`Change.dropConstraint_mistaken`); `Catalog.Unmistakable` excludes this.
-/
namespace SchemaMigration

/-- The constraint is one that a request to drop it by table, name and kind means.  On MySQL a
primary key goes without a name. -/
def Constraint.IsAskedFor (d : Dialect) (table name : String) (kind : ConstraintKind)
    (k : Constraint) : Prop :=
  Catalog.sameName k.table table = true ∧ k.kind = kind ∧
    (d = .mysql ∧ kind = .primaryKey ∨ Catalog.sameName k.name name = true)

instance (d : Dialect) (table name : String) (kind : ConstraintKind) (k : Constraint) :
    Decidable (k.IsAskedFor d table name kind) :=
  inferInstanceAs (Decidable (_ ∧ _ ∧ _))

namespace Catalog

/-! ## What a request means -/

/-- The catalog holds something that the request is to drop. -/
def HoldsAsked (d : Dialect) (c : Catalog) : Change → Prop
  | .dropTable table => c.hasTable table = true
  | .dropIndex table name =>
    ∃ i ∈ c.indexes, sameName i.table table = true ∧ sameName i.name (d.fit name) = true
  | .dropColumns table names =>
    ∃ k ∈ c.columnsOf table, ∃ n ∈ names, sameName k.name n = true
  | .dropConstraint table name kind =>
    ∃ k ∈ c.constraints, k.IsAskedFor d table (d.fit name) kind
  | _ => False

/-- The catalog without the columns of a table that have the names. -/
def lessColumns (c : Catalog) (table : String) (names : List String) : Catalog :=
  c.setColumns table ((c.columnsOf table).filter fun k => !names.any (sameName k.name ·))

/-- The catalog without what the request is to drop.  Columns that are dropped are taken out of
indexes and constraints as well. -/
def without (d : Dialect) (c : Catalog) : Change → Catalog
  | .dropTable table => {
      tables := c.tables.filter fun t => !sameName t.name table
      indexes := c.indexes.filter fun i => !sameName i.table table
      constraints := c.constraints.filter fun k => !sameName k.table table
      recorded := c.recorded.filter fun r => !sameName r.1 table }
  | .dropIndex table name => { c with
      indexes := c.indexes.filter fun i =>
        !(sameName i.table table && sameName i.name (d.fit name)) }
  | .dropColumns table names =>
    (c.releaseColumns d table (c.present table names)).lessColumns table names
  | .dropConstraint table name kind => { c with
      constraints := c.constraints.filter fun k =>
        !decide (k.IsAskedFor d table (d.fit name) kind) }
  | _ => c

/-- The statement drops what the request is to drop, by the names that objects are stored under, and
the catalog holds all of it. -/
inductive DropsHeld (d : Dialect) (c : Catalog) : Change → Statement → Prop
  | table {table} (held : c.hasTable table = true) :
    DropsHeld d c (.dropTable table) (.dropTable table)
  | index {table name} (held : ∃ i ∈ c.indexes,
      sameName i.table table = true ∧ sameName i.name (d.fit name) = true) :
    DropsHeld d c (.dropIndex table name) (.dropIndex table (d.fit name))
  | columns {table names part} (asked : part ⊆ names)
      (held : ∀ n ∈ part, ∃ k ∈ c.columnsOf table, sameName k.name n = true) :
    DropsHeld d c (.dropColumns table names) (.dropColumns table part)
  | constraint {table name kind}
      (held : ∃ k ∈ c.constraints, k.IsAskedFor d table (d.fit name) kind) :
    DropsHeld d c (.dropConstraint table name kind) (.dropConstraint table (d.fit name) kind)

/-- One after the other the statements drop what the request is to drop, and each of them finds it
in the catalog at that moment. -/
inductive DropsInTurn (d : Dialect) (x : Change) : Catalog → List Statement → Catalog → Prop
  | nil (c) : DropsInTurn d x c [] c
  | cons {c st c₁ l c'} (held : c.DropsHeld d x st) (carried : c.carryOut d st = .ok c₁)
    (rest : DropsInTurn d x c₁ l c') : DropsInTurn d x c (st :: l) c'

/-- Where index names are shared by all tables, indexes of one name are of one table. -/
def IndexNamesApart (d : Dialect) (c : Catalog) : Prop :=
  d.sharesIndexNames = true → ∀ i ∈ c.indexes, ∀ j ∈ c.indexes,
    sameName i.name j.name = true → sameName i.table j.table = true

/-- The request is plain: SQLite is not asked to drop columns that an index or a constraint is over,
and the constraints of the table that have the name are those of the kind, unless the name does not
count. -/
def Unmistakable (d : Dialect) (c : Catalog) : Change → Prop
  | .dropColumns table names =>
    d = .sqlite → ∀ n ∈ c.present table names, c.usesColumn table n = false
  | .dropConstraint table name kind => ¬ (d = .mysql ∧ kind = .primaryKey) →
    ∀ k ∈ c.constraints, sameName k.table table = true →
      (sameName k.name (d.fit name) = true → k.kind = kind) ∧
      (k.kind = kind → kind = .primaryKey → sameName k.name (d.fit name) = true)
  | _ => True

instance (d : Dialect) (c : Catalog) : Decidable (c.IndexNamesApart d) :=
  inferInstanceAs (Decidable (_ → _))

instance (d : Dialect) (c : Catalog) : (x : Change) → Decidable (c.Unmistakable d x)
  | .dropColumns _ _ | .dropConstraint _ _ _ => inferInstanceAs (Decidable (_ → _))
  | .createTable _ | .dropTable _ | .createIndex _ | .dropIndex _ _ | .addColumns _ _
  | .alterColumnType _ _ | .addConstraint _ => inferInstanceAs (Decidable True)

variable {d : Dialect} {c c' : Catalog} {table name : String}

/-! ## Names of indexes stay apart -/

/-- Indexes that all come from others of the same table and name are apart if these are. -/
theorem IndexNamesApart.of_origins (h : c.IndexNamesApart d)
    (horigin : ∀ i ∈ c'.indexes, ∃ j ∈ c.indexes, j.table = i.table ∧ j.name = i.name) :
    c'.IndexNamesApart d := by
  intro hd i hi j hj hname
  obtain ⟨i', hi', htable, hi'name⟩ := horigin i hi
  obtain ⟨j', hj', htable', hj'name⟩ := horigin j hj
  rw [← htable, ← htable']
  exact h hd i' hi' j' hj' (by rwa [hi'name, hj'name])

theorem IndexNamesApart.filter (h : c.IndexNamesApart d) {p : Index → Bool}
    (hc' : c'.indexes = c.indexes.filter p) : c'.IndexNamesApart d :=
  h.of_origins fun i hi => ⟨i, List.mem_of_mem_filter (hc' ▸ hi), rfl, rfl⟩

/-- A new index has a name of its own. -/
theorem createIndex_free {i : Index} (h : c.carryOut d (.createIndex i) = .ok c') :
    c.indexesNamed d i.table i.name = [] := by
  simp only [carryOut] at h
  split at h
  · cases h
  · split at h
    · cases h
    · split at h
      · cases h
      · next hnone => exact not_not.mp hnone

/-- **No statement gives two tables indexes of one name** where index names are shared. -/
theorem carryOut_indexNamesApart {st : Statement} (h : c.carryOut d st = .ok c')
    (hc : c.IndexNamesApart d) : c'.IndexNamesApart d := by
  cases st with
  | createTable table columns key =>
    obtain ⟨-, rfl⟩ := carryOut_createTable h
    exact hc
  | dropTable table =>
    rw [carryOut_dropTable h]
    exact hc.filter rfl
  | createIndex i =>
    obtain ⟨-, rfl⟩ := carryOut_createIndex h
    intro hd
    have hnew : ∀ j ∈ c.indexes, sameName j.name i.name = false := by
      simpa [indexesNamed, hd, List.filter_eq_nil_iff] using createIndex_free h
    have hold := hc hd
    intro j hj k hk hname
    rcases List.mem_append.mp hj with hj | hj <;> rcases List.mem_append.mp hk with hk | hk
    · exact hold j hj k hk hname
    · rw [List.mem_singleton.mp hk, hnew j hj] at hname
      cases hname
    · rw [List.mem_singleton.mp hj] at hname
      cases (hnew k hk).symm.trans (sameName_symm hname)
    · rw [List.mem_singleton.mp hj, List.mem_singleton.mp hk]
      exact sameName_refl _
  | dropIndex table name =>
    rw [carryOut_dropIndex h]
    exact hc.filter rfl
  | addColumns table columns =>
    obtain ⟨-, rfl⟩ := carryOut_addColumns h
    exact hc
  | dropColumns table columns =>
    obtain ⟨-, rfl⟩ := carryOut_dropColumns h
    exact hc.of_origins fun i hi => mem_releaseColumns_indexes hi
  | alterColumn table k =>
    obtain ⟨-, rfl⟩ := carryOut_alterColumn h
    exact hc
  | addConstraint k =>
    obtain ⟨-, rfl⟩ := carryOut_addConstraint h
    exact hc
  | dropConstraint table name kind =>
    rw [carryOut_dropConstraint h]
    exact hc
  | recordVersion history v =>
    obtain ⟨-, rfl⟩ := recordVersion_recorded h
    exact hc
  | verbatim text => cases h

/-! ## What is there is dropped -/

/-- What a request to drop something comes to: the statements that are due drop what is there, and
lead to the catalog without it. -/
structure DropsDue (d : Dialect) (c : Catalog) (x : Change) (l : List Statement) (c' : Catalog) :
    Prop where
  due : c.due d x = .ok l
  inTurn : c.DropsInTurn d x l c'
  idle : l = [] ↔ ¬ c.HoldsAsked d x
  rest : c.HoldsAsked d x → c' = c.without d x

theorem DropsInTurn.carryOutAll {x : Change} {l : List Statement} (h : c.DropsInTurn d x l c') :
    c.carryOutAll d l = .ok c' := by
  induction h with
  | nil c => rfl
  | cons _ carried _ ih => exact carryOutAll_cons_ok.mpr ⟨_, carried, ih⟩

/-- Nothing is due if there is nothing to drop. -/
theorem DropsDue.none {x : Change} (hdue : c.due d x = .ok []) (hnone : ¬ c.HoldsAsked d x) :
    c.DropsDue d x [] c :=
  ⟨hdue, .nil c, iff_of_true rfl hnone, fun h => (hnone h).elim⟩

/-- One statement is due if it drops all that is asked for. -/
theorem DropsDue.one {x : Change} {st : Statement} (hdue : c.due d x = .ok [st])
    (hheld : c.DropsHeld d x st) (hasked : c.HoldsAsked d x)
    (hcarried : c.carryOut d st = .ok (c.without d x)) :
    c.DropsDue d x [st] (c.without d x) :=
  ⟨hdue, .cons hheld hcarried (.nil _), iff_of_false (List.cons_ne_nil _ _) (not_not.mpr hasked),
    fun _ => rfl⟩

theorem dropsDue_dropTable (hcheck : (Change.dropTable table).check d = .ok ()) :
    ∃ l c', c.DropsDue d (.dropTable table) l c' := by
  by_cases hhas : c.hasTable table = true
  · refine ⟨_, _, .one ?_ (.table hhas) hhas ?_⟩
    · exact due_dropTable.mpr (.inr ⟨hhas, Change.build_eq_ok.mpr ⟨hcheck, rfl, rfl⟩⟩)
    · simp only [carryOut, if_pos hhas]
      rfl
  · exact ⟨[], c, .none (due_dropTable.mpr (.inl ⟨by simpa using hhas, rfl⟩)) hhas⟩

/-- An index is dropped alone if, where index names are shared, no other table has one of the
name. -/
theorem dropsDue_ownIndex (hown : c.has (.index table (d.fit name)) = true →
      d.sharesIndexNames = true → ∀ i ∈ c.indexes, sameName i.name (d.fit name) = true →
        sameName i.table table = true)
    (hcheck : (Change.dropIndex table name).check d = .ok ()) :
    ∃ l c', c.DropsDue d (.dropIndex table name) l c' := by
  by_cases hhas : c.has (.index table (d.fit name)) = true
  · obtain ⟨i, hi, htable, hname⟩ := has_index.mp hhas
    have hmeant : ∀ j ∈ c.indexes, j ∉ c.indexesNamed d table (d.fit name) ↔
        (!(sameName j.table table && sameName j.name (d.fit name))) = true := by
      intro j hj
      have hother := fun hd => hown hhas hd j hj
      simp only [indexesNamed, List.mem_filter, hj, true_and, Bool.and_eq_true, Bool.or_eq_true]
      grind
    have hfound : c.indexesNamed d table (d.fit name) ≠ [] := by
      refine List.ne_nil_of_mem (a := i) (List.mem_filter.mpr ⟨hi, ?_⟩)
      rw [hname, htable, Bool.or_true, Bool.and_true]
    obtain ⟨htable', hstored⟩ := check_bind_eq_ok.mp hcheck
    have hbuild : (Change.dropIndex table (d.fit name)).build d =
        .ok [.dropIndex table (d.fit name)] := by
      refine Change.build_eq_ok.mpr
        ⟨check_bind_eq_ok.mpr ⟨htable', (Change.requireStored_fit d _ _).trans hstored⟩, rfl, ?_⟩
      rw [Change.statements, Dialect.fit_fit]
    refine ⟨_, _, .one ?_ (.index ⟨i, hi, htable, hname⟩) ⟨i, hi, htable, hname⟩ ?_⟩
    · exact due_dropIndex.mpr (.inr ⟨hhas, hbuild⟩)
    · simp only [carryOut]
      refine congrArg (fun l => Except.ok { c with indexes := l })
        (List.filter_congr fun j hj => ?_)
      rw [Bool.eq_iff_iff, decide_eq_true_iff]
      exact hmeant j hj
  · refine ⟨[], c, .none (due_dropIndex.mpr (.inl ⟨by simpa using hhas, rfl⟩)) fun hheld => ?_⟩
    exact hhas (has_index.mpr hheld)

theorem dropsDue_dropIndex (hapart : c.IndexNamesApart d)
    (hcheck : (Change.dropIndex table name).check d = .ok ()) :
    ∃ l c', c.DropsDue d (.dropIndex table name) l c' := by
  refine dropsDue_ownIndex (fun hhas hd j hj hsame => ?_) hcheck
  obtain ⟨i, hi, htable, hname⟩ := has_index.mp hhas
  exact sameName_trans (hapart hd j hj i hi (sameName_trans hsame (sameName_symm hname))) htable

/-! ### Columns -/

/-- Of two different good names, no column has both. -/
theorem sameName_eq {a b : String} (ha : Name.check d a = .ok ()) (hb : Name.check d b = .ok ())
    (h : sameName a b = true) : a = b := by
  rw [sameName_iff, Name.toLower_of_check ha, Name.toLower_of_check hb] at h
  exact h

/-- A name that is not like another one is not like what that is like. -/
theorem not_sameName {a b n : String} (h : sameName a b = false) (hb : sameName n b = true) :
    sameName n a = false := by
  rw [← Bool.not_eq_true]
  intro ha
  cases h.symm.trans (sameName_trans (sameName_symm ha) hb)

/-- Columns that are there can be dropped one after the other. -/
theorem removeColumns_ok {sofar : List Column} {names : List String}
    (hheld : ∀ n ∈ names, ∃ k ∈ sofar, sameName k.name n = true)
    (hapart : names.Pairwise fun a b => sameName a b = false) :
    removeColumns sofar names = .ok (sofar.filter fun k => !names.any (sameName k.name ·)) := by
  induction names generalizing sofar with
  | nil => simp [removeColumns]
  | cons n rest ih =>
    obtain ⟨hn, hrest⟩ := List.forall_mem_cons.mp hheld
    obtain ⟨hother, hapart⟩ := List.pairwise_cons.mp hapart
    rw [removeColumns, if_pos (List.any_eq_true.mpr hn), ih ?_ hapart, List.filter_filter]
    · refine congrArg _ (List.filter_congr fun k _ => ?_)
      simp [Bool.and_comm]
    · intro m hm
      obtain ⟨k, hk, hname⟩ := hrest m hm
      refine ⟨k, List.mem_filter.mpr ⟨hk, ?_⟩, hname⟩
      rw [Bool.not_eq_true', not_sameName (hother m hm) hname]

theorem columnsOf_lessColumns (c : Catalog) (table : String) (names : List String) :
    (c.lessColumns table names).columnsOf table =
      (c.columnsOf table).filter fun k => !names.any (sameName k.name ·) := by
  cases hhas : c.hasTable table with
  | true => exact columnsOf_setColumns hhas
  | false =>
    have hnone := table?_eq_none hhas
    rw [lessColumns, columnsOf, table?_setColumns, columnsOf, hnone]
    rfl

theorem lessColumns_cons (c : Catalog) (table n : String) (rest : List String) :
    (c.lessColumns table [n]).lessColumns table rest = c.lessColumns table (n :: rest) := by
  rw [lessColumns, columnsOf_lessColumns, lessColumns, setColumns_setColumns, List.filter_filter]
  refine congrArg _ (List.filter_congr fun k _ => ?_)
  simp [Bool.and_comm]

/-- Names that the same columns have make no difference. -/
theorem lessColumns_congr {names others : List String} (h : ∀ k ∈ c.columnsOf table,
    (∃ n ∈ names, sameName k.name n = true) ↔ ∃ n ∈ others, sameName k.name n = true) :
    c.lessColumns table names = c.lessColumns table others := by
  unfold lessColumns
  refine congrArg _ (List.filter_congr fun k hk => congrArg (! ·) ?_)
  rw [Bool.eq_iff_iff, List.any_eq_true, List.any_eq_true]
  exact h k hk

section HeldColumns

variable {part names : List String} (hne : part ≠ [])
  (hheld : ∀ n ∈ part, ∃ k ∈ c.columnsOf table, sameName k.name n = true)
  (hapart : part.Pairwise fun a b => sameName a b = false)

include hne hheld hapart

/-- Columns that are there are dropped in one statement. -/
theorem carryOut_dropColumns_ok (hunused : d = .sqlite → ∀ n ∈ part, c.usesColumn table n = false) :
    c.carryOut d (.dropColumns table part) =
      .ok ((c.releaseColumns d table part).lessColumns table part) := by
  cases ht : c.table? table with
  | none =>
    obtain ⟨n, hn⟩ := List.exists_mem_of_ne_nil part hne
    obtain ⟨k, hk, -⟩ := hheld n hn
    simp [columnsOf, ht] at hk
  | some t =>
    have hcolumns := columnsOf_table? ht
    have hused : (if d = .sqlite then part.find? (c.usesColumn table) else none) = none := by
      split
      · next hd => simpa using hunused hd
      · rfl
    rw [lessColumns, show (c.releaseColumns d table part).columnsOf table = t.columns from hcolumns]
    rw [hcolumns] at hheld
    simp only [carryOut, ht, hused, removeColumns_ok hheld hapart]
    rfl

/-- Columns that are there and that nothing is over are dropped with one statement for each. -/
theorem dropsInTurn_each (hasked : part ⊆ names)
    (hunused : ∀ n ∈ part, c.usesColumn table n = false) :
    c.DropsInTurn d (.dropColumns table names) (part.map fun n => .dropColumns table [n])
      (c.lessColumns table part) := by
  induction part generalizing c with
  | nil => exact (hne rfl).elim
  | cons n rest ih =>
    obtain ⟨hasked, hrest⟩ := List.cons_subset.mp hasked
    obtain ⟨hn, hheld⟩ := List.forall_mem_cons.mp hheld
    obtain ⟨hother, hapart⟩ := List.pairwise_cons.mp hapart
    obtain ⟨hfree, hunused⟩ := List.forall_mem_cons.mp hunused
    have hone : ∀ m ∈ [n], c.usesColumn table m = false := by simpa using hfree
    have hcarried := carryOut_dropColumns_ok (List.cons_ne_nil n [])
      (by simpa using hn) (List.pairwise_singleton ..) fun _ : d = .sqlite => hone
    rw [releaseColumns_unused hone] at hcarried
    refine .cons (.columns (by simpa using hasked) (by simpa using hn)) hcarried ?_
    cases rest with
    | nil => exact .nil _
    | cons m rest =>
      rw [← lessColumns_cons c table n (m :: rest)]
      refine ih (List.cons_ne_nil m rest) (fun m' hm' => ?_) hapart hrest hunused
      obtain ⟨k, hk, hname⟩ := hheld m' hm'
      rw [columnsOf_lessColumns]
      exact ⟨k, List.mem_filter.mpr ⟨hk, by simp [not_sameName (hother m' hm') hname]⟩, hname⟩

end HeldColumns

theorem hasName_iff_held {n : String} (hn : Name.check d n = .ok ()) :
    Guarded.hasName (c.columnNames table) n = true ↔
      ∃ k ∈ c.columnsOf table, sameName k.name n = true :=
  hasName_iff.trans ((has_column_iff hn).symm.trans has_column)

theorem dropsDue_dropColumns {names : List String}
    (hclear : c.Unmistakable d (.dropColumns table names))
    (hcheck : (Change.dropColumns table names).check d = .ok ()) :
    ∃ l c', c.DropsDue d (.dropColumns table names) l c' := by
  obtain ⟨htable, hcolumns⟩ := check_bind_eq_ok.mp hcheck
  obtain ⟨-, hgood, hnodup⟩ := Name.requireColumns_eq_ok.mp hcolumns
  have hmem : ∀ n, n ∈ c.present table names ↔
      n ∈ names ∧ ∃ k ∈ c.columnsOf table, sameName k.name n = true := fun n =>
    List.mem_filter.trans (and_congr_right fun hn => hasName_iff_held (hgood n hn))
  have hasked : c.HoldsAsked d (.dropColumns table names) ↔ c.present table names ≠ [] := by
    constructor
    · rintro ⟨k, hk, n, hn, hname⟩
      exact List.ne_nil_of_mem ((hmem n).mpr ⟨hn, k, hk, hname⟩)
    · intro hne
      obtain ⟨n, hn⟩ := List.exists_mem_of_ne_nil _ hne
      obtain ⟨hn, k, hk, hname⟩ := (hmem n).mp hn
      exact ⟨k, hk, n, hn, hname⟩
  by_cases hnone : c.present table names = []
  · refine ⟨[], c, .none (due_dropColumns.mpr (.inl ⟨hnone, rfl⟩)) ?_⟩
    exact fun h => hasked.mp h hnone
  have hheld : ∀ n ∈ c.present table names, ∃ k ∈ c.columnsOf table, sameName k.name n = true :=
    fun n hn => ((hmem n).mp hn).2
  have hsub : c.present table names ⊆ names := List.filter_subset_self _
  have hdistinct : (c.present table names).Nodup := hnodup.sublist List.filter_sublist
  have hapart : (c.present table names).Pairwise fun a b => sameName a b = false := by
    refine hdistinct.imp_of_mem fun ha hb hab => ?_
    rw [← Bool.not_eq_true]
    exact fun hsame => hab (sameName_eq (hgood _ (hsub ha)) (hgood _ (hsub hb)) hsame)
  have hbuild : (Change.dropColumns table (c.present table names)).build d =
      .ok ((Change.dropColumns table (c.present table names)).statements d) :=
    Change.build_eq_ok.mpr ⟨check_bind_eq_ok.mpr ⟨htable, Name.requireColumns_eq_ok.mpr
      ⟨hnone, fun n hn => hgood n (hsub hn), hdistinct⟩⟩, rfl, rfl⟩
  have hleft : (c.releaseColumns d table (c.present table names)).lessColumns table
      (c.present table names) = c.without d (.dropColumns table names) :=
    lessColumns_congr fun k hk => ⟨fun ⟨n, hn, hname⟩ => ⟨n, hsub hn, hname⟩,
      fun ⟨n, hn, hname⟩ => ⟨n, (hmem n).mpr ⟨hn, k, hk, hname⟩, hname⟩⟩
  refine ⟨_, c.without d (.dropColumns table names), due_dropColumns.mpr (.inr ⟨hnone, hbuild⟩), ?_,
    iff_of_false (Change.build_ne_nil hbuild) (not_not.mpr (hasked.mpr hnone)), fun _ => rfl⟩
  rw [← hleft]
  by_cases hd : d = .sqlite
  · subst hd
    rw [releaseColumns_unused (hclear rfl)]
    exact dropsInTurn_each hnone hheld hapart hsub (hclear rfl)
  · have hcombines : d.combinesAlterations = true := by cases d <;> trivial
    rw [Change.statements, if_pos hcombines]
    exact .cons (.columns hsub hheld) (carryOut_dropColumns_ok hnone hheld hapart hclear) (.nil _)

/-! ### Constraints -/

section Meant

variable {kind : ConstraintKind} (hclear : c.Unmistakable d (.dropConstraint table name kind))

include hclear

/-- Plain requests find the constraints that they mean. -/
theorem hasConstraint_iff_asked : c.hasConstraint table (d.fit name) kind = true ↔
    c.HoldsAsked d (.dropConstraint table name kind) := by
  cases kind with
  | unique =>
    refine has_constraint.trans (exists_congr fun k => and_congr_right fun hk => ?_)
    have hmeant := hclear (by simp) k hk
    simp only [Constraint.IsAskedFor]
    grind
  | primaryKey =>
    rw [show c.hasConstraint table (d.fit name) .primaryKey = c.hasKey table from rfl, hasKey,
      List.any_eq_true]
    refine exists_congr fun k => and_congr_right fun hk => ?_
    have hmeant := fun hd => hclear hd k hk
    simp only [Constraint.IsAskedFor, Bool.and_eq_true, decide_eq_true_eq]
    grind

/-- Plain requests drop the constraints that they mean. -/
theorem mem_constraintsMeant {k : Constraint} (hk : k ∈ c.constraints) :
    k ∈ c.constraintsMeant d table (d.fit name) kind ↔ k.IsAskedFor d table (d.fit name) kind := by
  have hmeant := fun hd => hclear hd k hk
  simp only [constraintsMeant, List.mem_filter, hk, true_and, Bool.and_eq_true,
    Constraint.IsAskedFor]
  split
  · next hd => simp [hd]
  · next hd => grind

end Meant

theorem dropsDue_dropConstraint {kind : ConstraintKind}
    (hclear : c.Unmistakable d (.dropConstraint table name kind))
    (hsupported : d.altersConstraints = true)
    (hcheck : (Change.dropConstraint table name kind).check d = .ok ()) :
    ∃ l c', c.DropsDue d (.dropConstraint table name kind) l c' := by
  have hfound := hasConstraint_iff_asked hclear
  by_cases hhas : c.hasConstraint table (d.fit name) kind = true
  · obtain ⟨htable, hstored⟩ := check_bind_eq_ok.mp hcheck
    have hbuild : (Change.dropConstraint table (d.fit name) kind).build d =
        .ok [.dropConstraint table (d.fit name) kind] := by
      refine Change.build_eq_ok.mpr
        ⟨check_bind_eq_ok.mpr ⟨htable, (Change.requireStored_fit d _ _).trans hstored⟩,
          hsupported, ?_⟩
      rw [Change.statements, Dialect.fit_fit]
    obtain ⟨k, hk, hmeant⟩ := hfound.mp hhas
    have hne : c.constraintsMeant d table (d.fit name) kind ≠ [] :=
      List.ne_nil_of_mem ((mem_constraintsMeant hclear hk).mpr hmeant)
    refine ⟨_, _, .one (due_dropConstraint.mpr ⟨hsupported, .inr ⟨hhas, hbuild⟩⟩)
      (.constraint ⟨k, hk, hmeant⟩) ⟨k, hk, hmeant⟩ ?_⟩
    simp only [carryOut]
    refine congrArg (fun l => Except.ok { c with constraints := l })
      (List.filter_congr fun j hj => ?_)
    rw [Bool.eq_iff_iff, decide_eq_true_iff, mem_constraintsMeant hclear hj]
    simp
  · refine ⟨[], c, .none ?_ (mt hfound.mpr hhas)⟩
    exact due_dropConstraint.mpr ⟨hsupported, .inl ⟨by simpa using hhas, rfl⟩⟩

/-! ## What is dropped is gone -/

/-- What a request to drop something has done to a catalog, once it ended with `r`: it sent the
statements of `l` and left `c'`. -/
structure SafelyDropped (d : Dialect) (x : Change) (c : Catalog) (l : List Statement)
    (r : Except MigrationError Bool) (c' : Catalog) : Prop where
  /-- It succeeded, and reported a change exactly if it sent anything. -/
  succeeded : r = .ok (!l.isEmpty)
  /-- Every statement dropped something that was asked for and that was there. -/
  inTurn : c.DropsInTurn d x l c'
  /-- If nothing was there, nothing was sent and nothing changed. -/
  idle : ¬ c.HoldsAsked d x → l = [] ∧ c' = c
  /-- If something was there, this was taken away and nothing else. -/
  rest : c.HoldsAsked d x → l ≠ [] ∧ c' = c.without d x
  /-- Nothing of it is left. -/
  gone : ¬ c'.HoldsAsked d x

/-- **Without what was asked for, the catalog holds nothing of it.** -/
theorem without_gone (d : Dialect) (c : Catalog) (x : Change) :
    ¬ (c.without d x).HoldsAsked d x := by
  cases x with
  | dropTable table => simp [HoldsAsked, without, hasTable]
  | dropIndex table name =>
    rintro ⟨i, hi, htable, hname⟩
    obtain ⟨-, hkept⟩ := List.mem_filter.mp hi
    rw [htable, hname] at hkept
    cases hkept
  | dropColumns table names =>
    rintro ⟨k, hk, n, hn, hname⟩
    rw [without, columnsOf_lessColumns] at hk
    obtain ⟨-, hkept⟩ := List.mem_filter.mp hk
    rw [List.any_eq_true.mpr ⟨n, hn, hname⟩] at hkept
    cases hkept
  | dropConstraint table name kind => simp [HoldsAsked, without]
  | _ => exact id

theorem DropsDue.safely {x : Change} {l : List Statement} (h : c.DropsDue d x l c') :
    SafelyDropped d x c l (.ok (!l.isEmpty)) c' := by
  refine ⟨rfl, h.inTurn, fun hnone => ?_, fun hasked => ⟨?_, h.rest hasked⟩, ?_⟩
  · obtain rfl := h.idle.mpr hnone
    cases h.inTurn
    exact ⟨rfl, rfl⟩
  · exact fun hnil => h.idle.mp hnil hasked
  · by_cases hasked : c.HoldsAsked d x
    · exact h.rest hasked ▸ without_gone d c x
    · obtain rfl := h.idle.mpr hasked
      cases h.inTurn
      exact hasked

end Catalog

namespace Change
open Catalog

variable {d : Dialect} {x : Change}

/-- The request, carried out on a database with a catalog, drops safely. -/
def DropsSafely (d : Dialect) (x : Change) (span : Option Span) (w : World Catalog) : Prop :=
  SafelyDropped d x w.server
    (statementsIn ((Catalog.server d).exchanges w
      (World.leftBy ((x.ensure d).run (Catalog.server d) span w))))
    (World.outcome ((x.ensure d).run (Catalog.server d) span w))
    (World.leftBy ((x.ensure d).run (Catalog.server d) span w)).server

/-- **What is there is dropped, and nothing else.**  Every request to drop something that can be
built, and that is plain in the catalog, succeeds on a database with this catalog. -/
theorem ensure_drops (hdrop : x.IsDrop) {built : List Statement} (hbuild : x.build d = .ok built)
    {w : World Catalog} (hapart : w.server.IndexNamesApart d) (hclear : w.server.Unmistakable d x)
    (span : Option Span) : x.DropsSafely d span w := by
  obtain ⟨hcheck, hsupported, -⟩ := build_eq_ok.mp hbuild
  obtain ⟨l, c', hdue⟩ : ∃ l c', w.server.DropsDue d x l c' := by
    cases x with
    | dropTable table => exact dropsDue_dropTable hcheck
    | dropIndex table name => exact dropsDue_dropIndex hapart hcheck
    | dropColumns table names => exact dropsDue_dropColumns hclear hcheck
    | dropConstraint table name kind => exact dropsDue_dropConstraint hclear hsupported hcheck
    | _ => exact hdrop.elim
  obtain ⟨houtcome, hserver, hsent⟩ := run_of_due hdue.due hdue.inTurn.carryOutAll span
  rw [DropsSafely, houtcome, hserver, hsent]
  exact hdue.safely

/-- A table with a primary key beside a unique constraint. -/
def keyedUsers : Catalog where
  tables := [⟨"users", [{ name := "id", type := .bigInteger },
    { name := "email", type := .varchar 100 }]⟩]
  constraints := [⟨"users", "pk_users", .primaryKey, ["id"]⟩,
    ⟨"users", "uq_email", .unique, ["email"]⟩]

/-- The request to drop the primary key of that table, by a name. -/
def dropUsersKey (name : String) : Change :=
  .dropConstraint "users" name .primaryKey

theorem keyedUsers_drops :
    (dropUsersKey "pk_users").IsDrop ∧
      (dropUsersKey "pk_users").build .postgres =
        .ok [.dropConstraint "users" "pk_users" .primaryKey] ∧
      keyedUsers.IndexNamesApart .postgres ∧
      keyedUsers.Unmistakable .postgres (dropUsersKey "pk_users") ∧
      (dropUsersKey "pk_users").DropsSafely .postgres none { server := keyedUsers } := by
  have hdrop : (dropUsersKey "pk_users").IsDrop := trivial
  have hbuild : (dropUsersKey "pk_users").build .postgres =
      .ok [.dropConstraint "users" "pk_users" .primaryKey] := by decide +kernel
  have hapart : keyedUsers.IndexNamesApart .postgres := by decide
  have hclear : keyedUsers.Unmistakable .postgres (dropUsersKey "pk_users") := by decide +kernel
  exact ⟨hdrop, hbuild, hapart, hclear, ensure_drops hdrop hbuild hapart hclear none⟩

/-- **A primary key of another name is mistaken for the one to drop.**  On PostgreSQL the request is
for a constraint that the table does not have, and still a statement is sent, which fails. -/
theorem dropConstraint_mistaken :
    (dropUsersKey "pk_old").build .postgres =
        .ok [.dropConstraint "users" "pk_old" .primaryKey] ∧
      ¬ keyedUsers.HoldsAsked .postgres (dropUsersKey "pk_old") ∧
      World.outcome (((dropUsersKey "pk_old").ensure .postgres).run (Catalog.server .postgres) none
        { server := keyedUsers }) = .error (.driver (refusal (.constraintMissing "pk_old"))) := by
  refine ⟨by decide +kernel, ?_, by decide +kernel⟩
  show ¬ ∃ k ∈ keyedUsers.constraints, _
  decide +kernel

end Change
end SchemaMigration
