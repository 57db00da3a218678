import SchemaMigration.Proofs.FailFast
import SchemaMigration.Proofs.Remaking

/-!
# Changes asked for again, table by table

Changes that have all succeeded can be asked for again if on each table they undo nothing, or begin
with what undoes the others of them: a table is dropped and created anew, or an index is replaced
(`Catalog.BeginsAnew`).  Then they succeed once more, and the catalog holds what it held
(`Change.ensureAll_idempotent`).
-/
namespace SchemaMigration
open Program

namespace Catalog

variable {d : Dialect} {c c' : Catalog} {l : List Statement} {table : String} {xs ys : List Change}
  {x : Change}

/-! ## Adding columns once more -/

/-- Columns that are not there yet can be added one after the other. -/
theorem appendColumns_ok {sofar added : List Column}
    (hnew : ∀ k ∈ added, ∀ old ∈ sofar, sameName old.name k.name = false)
    (hapart : added.Pairwise fun a b => sameName a.name b.name = false) :
    appendColumns sofar added = .ok (sofar ++ added) := by
  induction added generalizing sofar with
  | nil => simp [appendColumns]
  | cons k rest ih =>
    obtain ⟨hk, hrest⟩ := List.forall_mem_cons.mp hnew
    obtain ⟨hother, hapart⟩ := List.pairwise_cons.mp hapart
    have hnone : ¬ (sofar.any fun old => sameName old.name k.name) = true := by
      simpa using hk
    rw [appendColumns, if_neg hnone, ih ?_ hapart, List.append_assoc]
    · rfl
    · intro k' hk' old hold
      rcases List.mem_append.mp hold with hold | hold
      · exact hrest k' hk' old hold
      · rw [List.mem_singleton.mp hold]
        exact hother k' hk'

/-- So they can be added with one statement, or with one for each. -/
theorem addColumns_ok {columns : List Column} (hhas : c.hasTable table = true)
    (hnew : ∀ k ∈ columns, ∀ old ∈ c.columnsOf table, sameName old.name k.name = false)
    (hapart : columns.Pairwise fun a b => sameName a.name b.name = false) :
    ∃ c', c.carryOutAll d ((Change.addColumns table columns).statements d) = .ok c' := by
  have hone : ∀ {c : Catalog} {columns : List Column}, c.hasTable table = true →
      (∀ k ∈ columns, ∀ old ∈ c.columnsOf table, sameName old.name k.name = false) →
      (columns.Pairwise fun a b => sameName a.name b.name = false) →
      c.carryOut d (.addColumns table columns) =
        .ok (c.setColumns table (c.columnsOf table ++ columns)) := by
    intro c columns hhas hnew hapart
    obtain ⟨t, ht⟩ := table?_of_hasTable hhas
    rw [columnsOf_table? ht] at hnew ⊢
    simp only [carryOut, ht, appendColumns_ok hnew hapart]
    rfl
  simp only [Change.statements]
  split
  · exact ⟨_, carryOutAll_singleton.trans (hone hhas hnew hapart)⟩
  · induction columns generalizing c with
    | nil => exact ⟨c, rfl⟩
    | cons k rest ih =>
      obtain ⟨hk, hrest⟩ := List.forall_mem_cons.mp hnew
      obtain ⟨hother, hapart⟩ := List.pairwise_cons.mp hapart
      have hfirst : c.carryOut d (.addColumns table [k]) =
          .ok (c.setColumns table (c.columnsOf table ++ [k])) :=
        hone hhas (by simpa using hk) (List.pairwise_singleton ..)
      obtain ⟨c', hall⟩ := ih (c := c.setColumns table (c.columnsOf table ++ [k]))
        ((hasTable_setColumns c table _ table).trans hhas)
        (fun k' hk' old hold => by
          rw [columnsOf_setColumns hhas] at hold
          rcases List.mem_append.mp hold with hold | hold
          · exact hrest k' hk' old hold
          · rw [List.mem_singleton.mp hold]
            exact hother k' hk') hapart
      exact ⟨c', carryOutAll_cons_ok.mpr ⟨_, hfirst, hall⟩⟩

/-! ## Changes that can be made whatever has become of them -/

/-- The change can be made on the catalog, whether it has been made before or not: a table is
created if there is none, columns are added to a table that is there or altered if they are, what is
to be dropped can be, and whatever else is asked for is there already. -/
def Readmits (d : Dialect) (c : Catalog) : Change → Prop
  | .addColumns t _ => c.hasTable t = true
  | .alterColumnType t k => c.has (.column t k.name) = true
  | .createTable t => Done d c (.createTable t) ∨ c.hasTable t.name = false ∧
    (d.sharesIndexNames = true → ∀ i ∈ c.indexes, sameName i.name t.name = false)
  | .createIndex i => Done d c (.createIndex i)
  | .addConstraint k => Done d c (.addConstraint k)
  | x => x.check d = .ok () ∧ c.Unmistakable d x

instance (d : Dialect) (c : Catalog) : (x : Change) → Decidable (c.Readmits d x)
  | .addColumns _ _ | .alterColumnType _ _ => inferInstanceAs (Decidable (_ = true))
  | .createTable _ => inferInstanceAs (Decidable (_ ∨ _))
  | .createIndex _ | .addConstraint _ => inferInstanceAs (Decidable (Done ..))
  | .dropTable _ | .dropIndex _ _ | .dropColumns _ _ | .dropConstraint _ _ _ =>
    inferInstanceAs (Decidable (_ ∧ _))

/-- A table can be created if none has the name, and no index where names are shared. -/
theorem carryOut_createTable_ok {columns : List Column} {key : Option PrimaryKey}
    (hnew : c.hasTable table = false)
    (hname : d.sharesIndexNames = true → ∀ i ∈ c.indexes, sameName i.name table = false)
    (hknown : ∀ k ∈ key, ∀ n ∈ k.columns, ∃ col ∈ columns, sameName col.name n = true) :
    ∃ c', c.carryOut d (.createTable table columns key) = .ok c' := by
  have hfree : ¬ (d.sharesIndexNames && c.indexes.any fun i => sameName i.name table) = true := by
    rw [Bool.and_eq_true, List.any_eq_true]
    rintro ⟨hd, i, hi, hsame⟩
    rw [hname hd i hi] at hsame
    cases hsame
  have hcolumns : unknownColumn? columns (key.toList.flatMap (·.columns)) = none := by
    refine unknownColumn?_eq_none.mpr fun n hn => ?_
    obtain ⟨k, hk, hn⟩ := List.mem_flatMap.mp hn
    exact hknown k (Option.mem_toList.mp hk) n hn
  rw [carryOut, if_neg (Bool.eq_false_iff.mp hnew), if_neg hfree, hcolumns]
  exact ⟨_, rfl⟩

theorem readmitted_createTable {t : Table} (hcheck : t.check d = .ok ())
    (hnew : c.hasTable t.name = false)
    (hname : d.sharesIndexNames = true → ∀ i ∈ c.indexes, sameName i.name t.name = false) :
    ∃ l' c', c.due d (.createTable t) = .ok l' ∧ c.carryOutAll d l' = .ok c' := by
  obtain ⟨-, -, hkey⟩ := Table.check_eq_ok_iff.mp hcheck
  have hknown : ∀ k ∈ (if t.primaryKey = [] then none else some ⟨t.storedKeyName d, t.primaryKey⟩ :
      Option PrimaryKey), ∀ n ∈ k.columns, ∃ col ∈ t.columns, sameName col.name n = true := by
    intro k hk n hn
    split at hk
    · cases hk
    · cases hk
      obtain ⟨col, hcol, rfl, -⟩ := hkey.required n hn
      exact ⟨col, hcol, sameName_refl _⟩
  obtain ⟨c', hcarried⟩ := carryOut_createTable_ok hnew hname hknown
  exact ⟨_, c', due_createTable.mpr ⟨hcheck, .inr ⟨hnew, rfl⟩⟩,
    carryOutAll_singleton.trans hcarried⟩

theorem readmitted_addColumns {columns : List Column} {c₀ : Catalog}
    (hdue : c₀.due d (.addColumns table columns) = .ok l) (hhas : c.hasTable table = true) :
    ∃ l' c', c.due d (.addColumns table columns) = .ok l' ∧ c.carryOutAll d l' = .ok c' := by
  obtain ⟨⟨all, hbuild⟩, -⟩ := due_addColumns.mp hdue
  by_cases hnone : c.missing table columns = []
  · exact ⟨[], c, due_addColumns.mpr ⟨⟨all, hbuild⟩, hhas, .inl ⟨hnone, rfl⟩⟩, rfl⟩
  have hpart : (Change.addColumns table columns).Remains
      (.addColumns table (c.missing table columns)) := .columns List.filter_sublist hnone
  have hrest := hpart.build hbuild
  have hcheck := (Change.build_eq_ok.mp hrest).1
  have hgood := (Change.check_addColumns hcheck).2
  obtain ⟨-, hwell, -⟩ := Change.check_eq_ok_iff.mp hcheck
  have hnew : ∀ k ∈ c.missing table columns, ∀ old ∈ c.columnsOf table,
      sameName old.name k.name = false := by
    intro k hk old hold
    rw [← Bool.not_eq_true]
    intro hsame
    have hthere := (hasName_iff_held (hgood k hk)).mpr ⟨old, hold, hsame⟩
    have habsent := (List.mem_filter.mp hk).2
    rw [hthere] at habsent
    cases habsent
  have hapart : (c.missing table columns).Pairwise fun a b => sameName a.name b.name = false := by
    refine (List.pairwise_map.mp hwell.distinct).imp_of_mem fun ha hb hab => ?_
    rw [← Bool.not_eq_true]
    exact fun hsame => hab (sameName_eq (hgood _ ha) (hgood _ hb) hsame)
  obtain ⟨c', hcarried⟩ := addColumns_ok hhas hnew hapart
  exact ⟨_, c', due_addColumns.mpr ⟨⟨all, hbuild⟩, hhas, .inr ⟨hnone, hrest⟩⟩, hcarried⟩

theorem carryOut_alterColumn_ok {k : Column} (h : c.has (.column table k.name) = true) :
    ∃ c', c.carryOut d (.alterColumn table k) = .ok c' := by
  obtain ⟨old, hold, hname⟩ := has_column.mp h
  obtain ⟨t, ht⟩ : ∃ t, c.table? table = some t := by
    cases ht : c.table? table with
    | none =>
      rw [columnsOf, ht] at hold
      cases hold
    | some t => exact ⟨t, rfl⟩
  rw [columnsOf_table? ht] at hold
  have hany : (t.columns.any fun old => sameName old.name k.name) = true :=
    List.any_eq_true.mpr ⟨old, hold, hname⟩
  simp only [carryOut, ht, if_pos hany]
  exact ⟨_, rfl⟩

/-- **A change that was admitted once and is admitted again can be made.** -/
theorem Readmits.carried {c₀ : Catalog} (h : c.Readmits d x) (hdue : c₀.due d x = .ok l)
    (hapart : c.IndexNamesApart d) :
    ∃ l' c', c.due d x = .ok l' ∧ c.carryOutAll d l' = .ok c' := by
  have hdone : Done d c x → (∀ t k, x ≠ .alterColumnType t k) →
      (∀ t n, x ≠ .dropConstraint t n .primaryKey) →
      ∃ l' c', c.due d x = .ok l' ∧ c.carryOutAll d l' = .ok c' := fun hdone halter hkey =>
    ⟨[], c, hdone.settled hdue halter fun _ t n hx => (hkey t n hx).elim, rfl⟩
  have hdrops : (∃ l' c', c.DropsDue d x l' c') →
      ∃ l' c', c.due d x = .ok l' ∧ c.carryOutAll d l' = .ok c' := fun ⟨l', c', hdrops⟩ =>
    ⟨l', c', hdrops.due, hdrops.inTurn.carryOutAll⟩
  cases x with
  | createTable t =>
    obtain hthere | ⟨hnew, hname⟩ := h
    · exact hdone hthere nofun nofun
    · exact readmitted_createTable (due_createTable.mp hdue).1 hnew hname
  | createIndex i => exact hdone h nofun nofun
  | addConstraint k => exact hdone h nofun nofun
  | addColumns t columns => exact readmitted_addColumns hdue h
  | alterColumnType t k =>
    obtain ⟨-, hbuild⟩ := due_alterColumnType.mp hdue
    obtain ⟨-, -, rfl⟩ := Change.build_eq_ok.mp hbuild
    obtain ⟨c', hcarried⟩ := carryOut_alterColumn_ok h
    exact ⟨_, c', due_alterColumnType.mpr ⟨h, hbuild⟩, carryOutAll_singleton.trans hcarried⟩
  | dropTable t => exact hdrops (dropsDue_dropTable h.1)
  | dropIndex t n => exact hdrops (dropsDue_dropIndex hapart h.1)
  | dropColumns t columns => exact hdrops (dropsDue_dropColumns h.2 h.1)
  | dropConstraint t n kind =>
    exact hdrops (dropsDue_dropConstraint h.2 (due_dropConstraint.mp hdue).1 h.1)

/-! ## Beginning anew -/

/-- The changes begin with some that can be made on the catalog which all of them leave, and that
lead from there to where they have led before.  So the others find what they found. -/
structure BeginsAnew (d : Dialect) (c : Catalog) (xs : List Change) (m : Nat) : Prop where
  readmitted : ∀ n < m, ∀ x ∈ xs[n]?, ((c.after d xs).after d (xs.take n)).Readmits d x
  anew : (c.after d xs).after d (xs.take m) = c.after d (xs.take m)

/-- **Changes that begin anew pass again** on the catalog that they lead to, and leave it. -/
theorem BeginsAnew.passes {m : Nat} (h : c.BeginsAnew d xs m) {ls : List (List Statement)}
    (hpasses : Passes d c xs ls c') (hapart : c'.IndexNamesApart d) :
    ∃ ms, Passes d c' xs ms c' := by
  obtain ⟨hreadmitted, hanew⟩ := h
  rw [hpasses.after] at hreadmitted hanew
  have hbegin : ∀ n ≤ m, ∃ ms, Passes d c' (xs.take n) ms (c'.after d (xs.take n)) := by
    intro n hn
    induction n with
    | zero =>
      rw [List.take_zero, (Passes.nil c').after]
      exact ⟨[], .nil c'⟩
    | succ n ih =>
      obtain ⟨ms, hms⟩ := ih (Nat.le_of_succ_le hn)
      rw [List.take_add_one]
      cases hx : xs[n]? with
      | none =>
        rw [Option.toList_none, List.append_nil]
        exact ⟨ms, hms⟩
      | some x =>
        obtain ⟨c₀, l₀, hdue₀⟩ := hpasses.once (List.mem_of_getElem? hx)
        have hreached := carryOutAll_indexNamesApart hms.carryOutAll hapart
        obtain ⟨l, e, hdue, hcarried⟩ := (hreadmitted n hn x hx).carried hdue₀ hreached
        have hnext := passes_snoc.mpr ⟨ms, l, _, rfl, hms, hdue, hcarried⟩
        rw [Option.toList_some, hnext.after]
        exact ⟨_, hnext⟩
  obtain ⟨ms, hms⟩ := hbegin m le_rfl
  rw [← List.take_append_drop m xs] at hpasses
  obtain ⟨ls₁, ls₂, c₁, -, hfirst, hrest⟩ := hpasses.split
  rw [hanew, hfirst.after] at hms
  have hagain := hms.append hrest
  rw [List.take_append_drop] at hagain
  exact ⟨_, hagain⟩

/-! ## Table by table -/

/-- On the table the changes undo nothing.  Or they undo nothing but indexes and unique constraints,
or begin anew, and have the names that they use to themselves. -/
def Repeats (d : Dialect) (c : Catalog) (xs : List Change) (table : String) : Prop :=
  (c.only table).Keeps d (xs.filter (Change.IsOn table)) (fun _ => false) ∨
    ((c.only table).Remakes d (xs.filter (Change.IsOn table)) ∨
        ∃ m, (c.only table).BeginsAnew d (xs.filter (Change.IsOn table)) m) ∧
      ∀ x ∈ xs.filter (Change.IsOn table), c.NamesFree d xs x

theorem Passes.forall {P : Change → Prop} {ls : List (List Statement)} (h : Passes d c xs ls c')
    (hall : ∀ x ∈ xs, P x) : List.Forall₂ (fun x l => l = [] ∨ P x) xs ls := by
  induction h with
  | nil c => exact .nil
  | cons _ _ _ ih =>
    obtain ⟨hx, hrest⟩ := List.forall_mem_cons.mp hall
    exact .cons (.inr hx) (ih hrest)

/-- Only what alters columns is sent again, and this needs no name. -/
theorem forall_resent (all : List Change) :
    List.Forall₂ (fun x l => l = [] ∨ c.NamesFree d all x) xs (xs.map Change.resent) := by
  induction xs with
  | nil => exact .nil
  | cons x rest ih =>
    refine .cons ?_ ih
    cases x with
    | alterColumnType t k => exact .inr fun _ n hn => (List.not_mem_nil hn).elim
    | _ => exact .inl rfl

theorem indexNamesApart_only (d : Dialect) (c : Catalog) (table : String) :
    (c.only table).IndexNamesApart d := by
  intro _ i hi j hj _
  exact sameName_trans (List.mem_filter.mp hi).2 (sameName_symm (List.mem_filter.mp hj).2)

theorem isOn_congr {other : String} (h : sameName table other = true) :
    Change.IsOn table = Change.IsOn other :=
  funext fun x => sameName_left (sameName_symm h) x.table

theorem Repeats.congr {other : String} (h : c.Repeats d xs table)
    (hsame : sameName table other = true) : c.Repeats d xs other := by
  rwa [Repeats, only_congr hsame, isOn_congr hsame] at h

theorem Passes.shownBy {ls : List (List Statement)} (h : Passes d c xs ls c') :
    c.ShownBy d xs c' := by
  induction h with
  | nil c => exact fun p hp => .inl hp
  | @cons _ x _ _ _ _ _ hdue hcarried _ ih =>
    intro p hp
    obtain hp | ⟨y, hy, hadds⟩ := ih p hp
    · exact (shows_of_added hdue hcarried hp).imp_right fun hadds =>
        ⟨x, List.mem_cons_self, hadds⟩
    · exact .inr ⟨y, List.mem_cons_of_mem _ hy, hadds⟩

/-- **On a table that they repeat on, the changes pass again.** -/
theorem Repeats.passes {ls : List (List Statement)} (h : c.Repeats d xs table)
    (hpasses : Passes d c xs ls c') (hapart : c.IndexNamesApart d) :
    ∃ ms e, Passes d (c'.only table) (xs.filter (Change.IsOn table)) ms e ∧
      e.Same (c'.only table) ∧
      (xs.filter (Change.IsOn table)).Forall₂ (fun x l => l = [] ∨ c.NamesFree d xs x) ms := by
  obtain ⟨ms₀, hfirst⟩ := hpasses.only hapart table
  obtain hkeeps | ⟨hremakes | ⟨m, hanew⟩, hfree⟩ := h
  · exact ⟨_, _, hkeeps.passes hfirst, .refl _, forall_resent xs⟩
  · obtain ⟨ms, e, hms, hsame⟩ := hremakes.passes hfirst
      (fun x hx => (List.mem_filter.mp hx).2) fun i hi => (List.mem_filter.mp hi).2
    exact ⟨ms, e, hms, hsame, hms.forall hfree⟩
  · obtain ⟨ms, hms⟩ := hanew.passes hfirst (indexNamesApart_only d c' table)
    exact ⟨ms, _, hms, .refl _, hms.forall hfree⟩

/-- **Changes that repeat on each table pass again**, and leave the same catalog. -/
theorem passes_of_repeats {ls : List (List Statement)} (hpasses : Passes d c xs ls c')
    (hapart : c.IndexNamesApart d) (hrepeats : ∀ x ∈ xs, c.Repeats d xs x.table) :
    ∃ ms e, Passes d c' xs ms e ∧ e.Same c' := by
  have halone : ∀ table, ∃ ms g,
      Passes d (c'.only table) (xs.filter (Change.IsOn table)) ms g ∧ g.Same (c'.only table) ∧
      (xs.filter (Change.IsOn table)).Forall₂ (fun x l => l = [] ∨ c.NamesFree d xs x) ms := by
    intro table
    by_cases hon : ∃ x ∈ xs, x.IsOn table = true
    · obtain ⟨x, hx, hon⟩ := hon
      exact ((hrepeats x hx).congr hon).passes hpasses hapart
    · have hnone : xs.filter (Change.IsOn table) = [] :=
        List.filter_eq_nil_iff.mpr fun x hx hx' => hon ⟨x, hx, hx'⟩
      rw [hnone]
      exact ⟨[], _, .nil _, .refl _, .nil⟩
  obtain ⟨ms, e, hms, hsame⟩ := passes_of_only (List.Subset.refl xs) hpasses.shownBy halone
  exact ⟨ms, e, hms, same_of_only hsame⟩

end Catalog

/-- **Changes are idempotent** unless they undo each other.  On a database that answers from a
catalog, let changes all succeed, one after the other.  Let them undo nothing, or repeat on each
table: undo nothing there but indexes and unique constraints, which may be made and taken away
again, or begin anew.  Asked for again, they all succeed, and the catalog holds what it held. -/
theorem Change.ensureAll_idempotent (d : Dialect) {changes : List Change} {span : Option Span}
    {w : World Catalog} {bs : List Bool}
    (hdone : World.outcome ((ensureAll d changes).run (Catalog.server d) span w) = .ok bs)
    (hrepeats : w.server.Keeps d changes (fun _ => false) ∨
      w.server.IndexNamesApart d ∧ ∀ x ∈ changes, w.server.Repeats d changes x.table)
    {span' : Option Span} {w₁ : World Catalog} (hw₁ : w₁.server = leaves d changes span w) :
    (∃ bs', World.outcome ((ensureAll d changes).run (Catalog.server d) span' w₁) = .ok bs') ∧
      (leaves d changes span' w₁).Same w₁.server := by
  obtain ⟨ls, hpasses⟩ := run_passes hdone
  obtain ⟨ms, e, hagain, hsame⟩ : ∃ ms e, Catalog.Passes d w₁.server changes ms e ∧
      e.Same w₁.server := by
    rw [hw₁]
    obtain hkeeps | ⟨hapart, hrepeats⟩ := hrepeats
    · exact ⟨_, _, hkeeps.passes hpasses, .refl _⟩
    · exact Catalog.passes_of_repeats hpasses hapart hrepeats
  obtain ⟨hok, hserver, -⟩ := run_of_passes hagain span'
  rw [leaves, hserver]
  exact ⟨⟨_, hok⟩, hsame⟩

/-- A catalog with a column to be dropped and one to be widened and indexed, an index over the wrong
column, and a table that is to look different. -/
def Catalog.outdated : Catalog where
  tables := [
    ⟨"users", [{ name := "legacy", type := .integer },
      { name := "email", type := .varchar 20, default := some (.text "none") }]⟩,
    ⟨"orders", [{ name := "id", type := .integer }, { name := "user_id", type := .integer }]⟩,
    ⟨"sessions", [{ name := "id", type := .integer }]⟩]
  indexes := [{ table := "orders", name := "orders_user", columns := ["id"] }]

/-- Nothing is undone on the first table, where dropping the column could undo the index.  On the
second one the index is replaced before a column is added, and the third one is created anew. -/
def updating : List Change := [
  .createIndex { table := "users", name := "users_email", columns := ["email"] },
  .alterColumnType "users" { name := "email", type := .varchar 100 },
  .dropIndex "orders" "orders_user",
  .dropTable "sessions",
  .createIndex { table := "orders", name := "orders_user", columns := ["user_id"] },
  .addColumns "orders" [{ name := "paid_at", type := .timestamp }],
  .dropColumns "users" ["legacy"],
  .createTable { name := "sessions", columns := [{ name := "token", type := .varchar 64 }] }]

/-- A database with that catalog, updated. -/
def updated : World Catalog :=
  World.leftBy ((Change.ensureAll .postgres updating).run (Catalog.server .postgres) none
    { server := .outdated })

theorem updated_idempotent :
    (∃ bs, World.outcome ((Change.ensureAll .postgres updating).run (Catalog.server .postgres) none
        updated) = .ok bs) ∧
      (Change.leaves .postgres updating none updated).Same updated.server := by
  have hdone : World.outcome ((Change.ensureAll .postgres updating).run (Catalog.server .postgres)
      none { server := .outdated }) = .ok (List.replicate 8 true) := by decide +kernel
  have husers : Catalog.outdated.Repeats .postgres updating "users" :=
    .inl ⟨by decide +kernel, by decide +kernel⟩
  have horders : Catalog.outdated.Repeats .postgres updating "orders" :=
    .inr ⟨.inl ⟨⟨by decide +kernel, by decide +kernel⟩, by decide +kernel, by decide +kernel,
      by decide +kernel, by decide +kernel⟩, by decide +kernel⟩
  have hsessions : Catalog.outdated.Repeats .postgres updating "sessions" :=
    .inr ⟨.inr ⟨1, by decide +kernel, by decide +kernel⟩, by decide +kernel⟩
  have htables : ∀ x ∈ updating,
      x.table = "users" ∨ x.table = "orders" ∨ x.table = "sessions" := by decide +kernel
  refine Change.ensureAll_idempotent .postgres hdone (.inr ⟨by decide +kernel, fun x hx => ?_⟩) rfl
  obtain htable | htable | htable := htables x hx <;> rw [htable]
  · exact husers
  · exact horders
  · exact hsessions

/-- The table loses a column that it is created with. -/
def undoing : List Change := [
  .createTable { name := "users", columns := [{ name := "id", type := .integer },
    { name := "email", type := .varchar 100 }] },
  .dropColumns "users" ["email"]]

/-- **Changes that undo each other are not idempotent.**  On an empty database they succeed, and
asked for again they fail, since the table has not all of the columns that it is created with. -/
theorem Change.ensureAll_not_idempotent :
    World.outcome ((ensureAll .sqlite undoing).run (Catalog.server .sqlite) none
        { server := {} }) = .ok [true, true] ∧
      World.outcome ((ensureAll .sqlite undoing).run (Catalog.server .sqlite) none
        { server := leaves .sqlite undoing none { server := {} } }) =
          .error (.conflict (.columnsMissing "users" ["email"])) := by
  decide +kernel

end SchemaMigration
