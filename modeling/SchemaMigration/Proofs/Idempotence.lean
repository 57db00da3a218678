import Mathlib.Data.List.Induction
import SchemaMigration.Proofs.Refitting

/-!
# Changes asked for again

Once changes have all succeeded, what they have done is upheld in the catalog that they leave
(`Catalog.Upheld`), as long as no later one of them has undone what an earlier one did
(`Catalog.Keeps`).  Asked for again they all succeed then and leave this catalog as it is
(`Change.ensureAll_resent`): whatever creates, adds or drops is settled, and columns that are
altered once more are what they were.
-/
namespace SchemaMigration
open Program

/-- The change alters a column. -/
def Change.alters : Change → Bool
  | alterColumnType _ _ => true
  | _ => false

namespace Catalog
open Change (refitted refittedAll refitted_congr refittedAll_congr)

variable {d : Dialect} {c c' : Catalog} {l : List Statement} {table name : String}
  {xs : List Change} {y : Change}

/-! ## Tables after a change -/

/-- The tables that are left of those of the catalog by a change that alters no column. -/
inductive Rebuilt (c : Catalog) : List StoredTable → Prop
  | same : Rebuilt c c.tables
  | created (t : StoredTable) (hnew : c.hasTable t.name = false) : Rebuilt c (c.tables ++ [t])
  | dropped (name : String) : Rebuilt c (c.tables.filter fun t => !sameName t.name name)
  | columns (table : String) (columns : List Column)
    (horigin : ∀ k ∈ columns, k ∈ c.columnsOf table ∨
      k.name.map Char.toLower ∉ c.columnNames table) :
    Rebuilt c (c.setColumns table columns).tables

/-- Dropping columns leaves some of the columns of the table, and other tables as they are. -/
theorem carryOutAll_dropColumns_tables {columns : List String} (hne : columns ≠ [])
    (h : c.carryOutAll d ((Change.dropColumns table columns).statements d) = .ok c') :
    ∃ kept, kept ⊆ c.columnsOf table ∧ c'.tables = (c.setColumns table kept).tables := by
  have hone : ∀ {c c' : Catalog} {columns : List String},
      c.carryOut d (.dropColumns table columns) = .ok c' →
      ∃ kept, kept ⊆ c.columnsOf table ∧ c'.tables = (c.setColumns table kept).tables := by
    intro c c' columns h
    obtain ⟨-, rfl⟩ := carryOut_dropColumns h
    exact ⟨_, List.filter_subset_self _, rfl⟩
  simp only [Change.statements] at h
  split at h
  · exact hone (carryOutAll_one h)
  · induction columns generalizing c with
    | nil => exact (hne rfl).elim
    | cons k rest ih =>
      obtain ⟨c₁, hfirst, hrest⟩ := carryOutAll_cons_ok.mp h
      cases rest with
      | nil =>
        cases hrest
        exact hone hfirst
      | cons k' rest =>
        obtain ⟨kept, hkept, htables⟩ := ih (List.cons_ne_nil _ _) hrest
        refine ⟨kept, List.Subset.trans hkept ?_, htables.trans ?_⟩
        · rw [dropColumns_columnsOf hfirst]
          exact List.filter_subset_self _
        · obtain ⟨-, rfl⟩ := carryOut_dropColumns hfirst
          rw [setColumns_setColumns]
          rfl

/-- **What a change does to tables**, if it alters no column. -/
theorem rebuilt (hy : y.alters = false) (hdue : c.due d y = .ok l)
    (hcarried : c.carryOutAll d l = .ok c') : Rebuilt c c'.tables := by
  rcases due_narrowed hdue with rfl | hbuild
  · cases hcarried
    exact .same
  obtain ⟨hcheck, -, rfl⟩ := Change.build_eq_ok.mp hbuild
  cases y with
  | createTable t =>
    obtain ⟨hnew, rfl⟩ := carryOut_createTable (carryOutAll_one hcarried)
    exact .created ⟨t.name, t.columns⟩ hnew
  | dropTable t =>
    rw [carryOut_dropTable (carryOutAll_one hcarried)]
    exact .dropped t
  | createIndex i =>
    obtain ⟨-, rfl⟩ := carryOut_createIndex (carryOutAll_one hcarried)
    exact .same
  | dropIndex t n =>
    rw [carryOut_dropIndex (carryOutAll_one hcarried)]
    exact .same
  | addColumns t columns =>
    obtain ⟨hne, hnames⟩ := Change.check_addColumns hcheck
    obtain ⟨-, rfl⟩ := carryOutAll_addColumns hne hcarried
    refine .columns t _ fun k hk => (List.mem_append.mp hk).imp id fun hk => ?_
    rw [← Name.lower_of_check (hnames k hk)]
    exact hasName_eq_false.mp (by simpa using (List.mem_filter.mp hk).2)
  | dropColumns t columns =>
    have hne := (Change.check_dropColumns hcheck).1
    obtain ⟨kept, hkept, htables⟩ := carryOutAll_dropColumns_tables hne hcarried
    rw [htables]
    exact .columns t kept fun k hk => Or.inl (hkept hk)
  | alterColumnType t k => cases hy
  | addConstraint k =>
    obtain ⟨-, rfl⟩ := carryOut_addConstraint (carryOutAll_one hcarried)
    exact .same
  | dropConstraint t n kind =>
    rw [carryOut_dropConstraint (carryOutAll_one hcarried)]
    exact .same

/-! ## Columns that stay as they are -/

/-- Altering the columns once more, as the changes ask for, leaves them as they are. -/
def Fitted (d : Dialect) (c : Catalog) (xs : List Change) : Prop :=
  ∀ t ∈ c.tables, ∀ k ∈ t.columns, refittedAll d t.name k xs = k

theorem Fitted.refit (h : Fitted d c xs) : c.refit d xs = c :=
  mapColumns_eq_self h

theorem refitted_of_not_alters {k : Column} (hy : y.alters = false) :
    refitted d table k y = k := by
  cases y with
  | alterColumnType t new => cases hy
  | _ => rfl

theorem mem_tables_of_columnsOf {k : Column} (h : k ∈ c.columnsOf table) :
    ∃ t ∈ c.tables, sameName t.name table = true ∧ k ∈ t.columns := by
  cases ht : c.table? table with
  | none =>
    rw [columnsOf, ht] at h
    cases h
  | some t =>
    rw [columnsOf, ht] at h
    exact ⟨t, List.mem_of_find?_eq_some ht, table?_name ht, h⟩

/-- A table that has just been set to new columns has them, and the others are as before. -/
theorem mem_setColumns {columns : List Column} {s : StoredTable}
    (h : s ∈ (c.setColumns table columns).tables) :
    (sameName s.name table = true ∧ s.columns = columns) ∨
      (sameName s.name table = false ∧ s ∈ c.tables) := by
  obtain ⟨t, ht, rfl⟩ := List.mem_map.mp h
  by_cases hsame : sameName t.name table = true
  · rw [if_pos hsame]
    exact Or.inl ⟨hsame, rfl⟩
  · rw [if_neg hsame]
    exact Or.inr ⟨by simpa using hsame, ht⟩

theorem Fitted.columnsOf (h : Fitted d c xs) {k : Column} (hk : k ∈ c.columnsOf table) :
    refittedAll d table k xs = k := by
  obtain ⟨t, ht, hname, hmem⟩ := mem_tables_of_columnsOf hk
  rw [← refittedAll_congr hname]
  exact h t ht k hmem

section

variable (hcolumns : ∀ t k, .alterColumnType t k ∈ xs → c.has (.column t k.name) = true)

include hcolumns

/-- The changes that alter columns which are there alter none that comes anew. -/
theorem refittedAll_new {k : Column} (hnew : k.name.map Char.toLower ∉ c.columnNames table) :
    refittedAll d table k xs = k := by
  refine Change.refittedAll_eq_self fun x hx => ?_
  cases x with
  | alterColumnType t new =>
    refine if_neg fun hhit => hnew ?_
    rw [Bool.and_eq_true_iff] at hhit
    obtain ⟨old, hold, hlike⟩ := has_column.mp (hcolumns t new hx)
    rw [columnNames, columnsOf_congr hhit.1]
    have hsame : sameName old.name k.name = true := sameName_trans hlike (sameName_symm hhit.2)
    exact List.mem_map.mpr ⟨old, hold, sameName_iff.mp hsame⟩
  | _ => rfl

theorem Fitted.rebuilt (h : Fitted d c xs) (hr : Rebuilt c c'.tables) : Fitted d c' xs := by
  intro s hs k hk
  generalize c'.tables = tables at hr hs
  cases hr with
  | same => exact h s hs k hk
  | created t hnew =>
    rcases List.mem_append.mp hs with hs | hs
    · exact h s hs k hk
    · rw [List.mem_singleton.mp hs]
      refine refittedAll_new hcolumns ?_
      rw [columnNames, Catalog.columnsOf, table?_eq_none hnew]
      exact List.not_mem_nil
  | dropped n => exact h s (List.mem_filter.mp hs).1 k hk
  | columns t columns horigin =>
    rcases mem_setColumns hs with ⟨hsame, rfl⟩ | ⟨-, hs⟩
    · rw [refittedAll_congr hsame]
      exact (horigin k hk).elim h.columnsOf (refittedAll_new hcolumns)
    · exact h s hs k hk

end

theorem Fitted.alterColumn {k : Column} (h : Fitted d c xs)
    (haltered : c.carryOut d (.alterColumn table k) = .ok c') :
    Fitted d c' (xs ++ [.alterColumnType table k]) := by
  obtain ⟨-, rfl⟩ := carryOut_alterColumn haltered
  intro s hs col hcol
  rw [Change.refittedAll_snoc]
  rcases mem_setColumns hs with ⟨hsame, hcolumns⟩ | ⟨hother, hs⟩
  · rw [hcolumns] at hcol
    obtain ⟨old, hold, hrefitted⟩ := List.mem_map.mp hcol
    have hnew : col = refitted d table old (.alterColumnType table k) := by
      simp only [refitted, sameName_refl, Bool.true_and]
      exact hrefitted.symm
    rw [refitted_congr hsame, refittedAll_congr hsame, hnew, Change.refitted_refittedAll,
      h.columnsOf hold]
  · rw [h s hs col hcol]
    simp [refitted, hother]

theorem Uniform.setColumns {columns : List Column} (h : c.Uniform table) :
    (c.setColumns name columns).Uniform table := by
  intro s hs t ht hsame hsame'
  have hlike := sameName_trans hsame (sameName_symm hsame')
  rcases mem_setColumns hs with ⟨hs, hcolumns⟩ | ⟨hs, hmem⟩ <;>
    rcases mem_setColumns ht with ⟨ht, hcolumns'⟩ | ⟨ht, hmem'⟩
  · rw [hcolumns, hcolumns']
  · cases ht.symm.trans (sameName_trans (sameName_symm hlike) hs)
  · cases hs.symm.trans (sameName_trans hlike ht)
  · exact h s hmem t hmem' hsame hsame'

theorem uniform_setColumns {columns : List Column} :
    (c.setColumns table columns).Uniform table := by
  intro s hs t ht hsame hsame'
  rcases mem_setColumns hs with ⟨-, hcolumns⟩ | ⟨hs, -⟩
  · rcases mem_setColumns ht with ⟨-, hcolumns'⟩ | ⟨ht, -⟩
    · rw [hcolumns, hcolumns']
    · cases ht.symm.trans hsame'
  · cases hs.symm.trans hsame

theorem Uniform.rebuilt (h : c.Uniform table) (hhas : c.hasTable table = true)
    (hr : Rebuilt c c'.tables) : c'.Uniform table := by
  unfold Uniform
  generalize c'.tables = tables at hr
  cases hr with
  | same => exact h
  | created t hnew =>
    -- the new table has another name than the one that is there
    have hother : ∀ s ∈ c.tables ++ [t], sameName s.name table = true → s ∈ c.tables := by
      intro s hs hsame
      rcases List.mem_append.mp hs with hs | hs
      · exact hs
      · rw [List.mem_singleton.mp hs] at hsame
        cases hnew.symm.trans ((hasTable_congr hsame).trans hhas)
    intro s hs s' hs' hsame hsame'
    exact h s (hother s hs hsame) s' (hother s' hs' hsame') hsame hsame'
  | dropped n =>
    exact fun s hs s' hs' => h s (List.mem_filter.mp hs).1 s' (List.mem_filter.mp hs').1
  | columns t columns _ => exact h.setColumns

/-! ## What changes have done is upheld -/

/-- What the changes have done is upheld in the catalog: it is still done, and altering the columns
once more would make no difference. -/
structure Upheld (d : Dialect) (c : Catalog) (xs : List Change) : Prop where
  /-- Each change could be carried out once. -/
  once : ∀ x ∈ xs, ∃ (c₀ : Catalog) (l : List Statement), c₀.due d x = .ok l
  done : ∀ x ∈ xs, Done d c x
  fitted : Fitted d c xs
  uniform : ∀ t k, .alterColumnType t k ∈ xs → c.Uniform t

theorem upheld_nil (d : Dialect) (c : Catalog) : Upheld d c [] where
  once _ hx := (List.not_mem_nil hx).elim
  done _ hx := (List.not_mem_nil hx).elim
  fitted _ _ _ _ := rfl
  uniform _ _ hx := (List.not_mem_nil hx).elim

theorem Upheld.column (h : Upheld d c xs) {t : String} {k : Column}
    (hx : .alterColumnType t k ∈ xs) : c.has (.column t k.name) = true := by
  obtain ⟨c₀, l, hdue⟩ := h.once _ hx
  obtain ⟨hcheck, -⟩ := Change.build_eq_ok.mp (due_alterColumnType.mp hdue).2
  refine (has_column_iff (Change.check_alterColumnType hcheck)).mpr ?_
  exact (h.done _ hx).there _ (List.mem_singleton_self _)

theorem Upheld.hasTable (h : Upheld d c xs) {t : String} {k : Column}
    (hx : .alterColumnType t k ∈ xs) : c.hasTable t = true := by
  obtain ⟨old, hold, -⟩ := has_column.mp (h.column hx)
  obtain ⟨s, hs, hname, -⟩ := mem_tables_of_columnsOf hold
  exact List.any_eq_true.mpr ⟨s, hs, hname⟩

/-- **A further change upholds what has been done**, unless it clashes and undoes it. -/
theorem Upheld.step (h : Upheld d c xs) (hdue : c.due d y = .ok l)
    (hcarried : c.carryOutAll d l = .ok c')
    (hkept : ∀ x ∈ xs, x.clashes d y = true → Done d c' x) : Upheld d c' (xs ++ [y]) where
  once x hx := by
    rcases List.mem_append.mp hx with hx | hx
    · exact h.once x hx
    · exact ⟨c, l, List.mem_singleton.mp hx ▸ hdue⟩
  done x hx := by
    rcases List.mem_append.mp hx with hx | hx
    · cases hclash : x.clashes d y with
      | true => exact hkept x hx hclash
      | false => exact (h.done x hx).lasts hdue hcarried hclash
    · exact List.mem_singleton.mp hx ▸ done_of_carried hdue hcarried
  fitted := by
    cases hy : y.alters with
    | false =>
      intro t ht k hk
      rw [Change.refittedAll_snoc, refitted_of_not_alters hy]
      exact h.fitted.rebuilt (fun _ _ => h.column) (rebuilt hy hdue hcarried) t ht k hk
    | true =>
      cases y with
      | alterColumnType t k =>
        obtain ⟨-, -, rfl⟩ := Change.build_eq_ok.mp (due_alterColumnType.mp hdue).2
        exact h.fitted.alterColumn (carryOutAll_one hcarried)
      | _ => cases hy
  uniform t k hx := by
    have hold : .alterColumnType t k ∈ xs → c'.Uniform t := by
      intro hold
      cases hy : y.alters with
      | false => exact (h.uniform t k hold).rebuilt (h.hasTable hold) (rebuilt hy hdue hcarried)
      | true =>
        cases y with
        | alterColumnType s new =>
          obtain ⟨-, -, rfl⟩ := Change.build_eq_ok.mp (due_alterColumnType.mp hdue).2
          obtain ⟨-, rfl⟩ := carryOut_alterColumn (carryOutAll_one hcarried)
          exact (h.uniform t k hold).setColumns
        | _ => cases hy
    rcases List.mem_append.mp hx with hx | hx
    · exact hold hx
    · cases List.mem_singleton.mp hx
      obtain ⟨-, -, rfl⟩ := Change.build_eq_ok.mp (due_alterColumnType.mp hdue).2
      obtain ⟨-, rfl⟩ := carryOut_alterColumn (carryOutAll_one hcarried)
      exact uniform_setColumns

theorem Passes.once {x : Change} {ls : List (List Statement)} (h : Passes d c xs ls c')
    (hx : x ∈ xs) :
    ∃ (c₀ : Catalog) (l : List Statement), c₀.due d x = .ok l := by
  induction h with
  | nil c => cases hx
  | @cons c y _ l _ _ _ hdue _ _ ih =>
    rcases List.mem_cons.mp hx with rfl | hx
    · exact ⟨c, l, hdue⟩
    · exact ih hx

theorem Passes.append {ys : List Change} {ls ms : List (List Statement)} {c₁ : Catalog}
    (h : Passes d c xs ls c₁) (h' : Passes d c₁ ys ms c') :
    Passes d c (xs ++ ys) (ls ++ ms) c' := by
  induction h with
  | nil c => exact h'
  | cons hdue hcarried _ ih => exact .cons hdue hcarried (ih h')

theorem Passes.split {ys : List Change} {ls : List (List Statement)}
    (h : Passes d c (xs ++ ys) ls c') :
    ∃ ls₁ ls₂ c₁, ls = ls₁ ++ ls₂ ∧ Passes d c xs ls₁ c₁ ∧ Passes d c₁ ys ls₂ c' := by
  induction xs generalizing c ls with
  | nil => exact ⟨[], ls, c, rfl, .nil c, h⟩
  | cons x rest ih =>
    cases h with
    | @cons _ _ _ l _ _ _ hdue hcarried hrest =>
      obtain ⟨ls₁, ls₂, c₁, rfl, hfirst, hthen⟩ := ih hrest
      exact ⟨l :: ls₁, ls₂, c₁, rfl, .cons hdue hcarried hfirst, hthen⟩

theorem passes_snoc {ls : List (List Statement)} : Passes d c (xs ++ [y]) ls c' ↔
    ∃ ls₁ l c₁, ls = ls₁ ++ [l] ∧ Passes d c xs ls₁ c₁ ∧ c₁.due d y = .ok l ∧
      c₁.carryOutAll d l = .ok c' := by
  constructor
  · intro h
    obtain ⟨ls₁, ls₂, c₁, rfl, hpasses, hlast⟩ := h.split
    cases hlast with
    | cons hdue hcarried hnil =>
      cases hnil
      exact ⟨ls₁, _, c₁, rfl, hpasses, hdue, hcarried⟩
  · rintro ⟨ls₁, l, c₁, rfl, hpasses, hdue, hcarried⟩
    exact hpasses.append (.cons hdue hcarried (.nil c'))

/-- What is upheld of changes is upheld without the last one, if this alters no column. -/
theorem Upheld.of_snoc (hy : y.alters = false) (h : Upheld d c (xs ++ [y])) : Upheld d c xs where
  once x hx := h.once x (List.mem_append_left _ hx)
  done x hx := h.done x (List.mem_append_left _ hx)
  fitted t ht k hk := by
    have hk' := h.fitted t ht k hk
    rwa [Change.refittedAll_snoc, refitted_of_not_alters hy] at hk'
  uniform t k hx := h.uniform t k (List.mem_append_left _ hx)

/-- **Changes that have passed are upheld**, if none has undone what an earlier one did.  Some that
alter no column may be left aside. -/
theorem Passes.upheld {aside : Change → Bool} (haside : ∀ y, aside y = true → y.alters = false)
    {ls : List (List Statement)} (h : Passes d c xs ls c')
    (hkept : ∀ pre y post, xs = pre ++ y :: post → ∀ ms c₂, Passes d c (pre ++ [y]) ms c₂ →
      ∀ x ∈ pre, aside x = false → x.clashes d y = true → Done d c₂ x) :
    Upheld d c' (xs.filter fun x => !aside x) := by
  induction xs using List.reverseRecOn generalizing c' ls with
  | nil =>
    cases h
    exact upheld_nil d c
  | append_singleton pre y ih =>
    obtain ⟨ls₁, l, c₁, rfl, hpre, hdue, hcarried⟩ := passes_snoc.mp h
    have hupheld := ih hpre fun p z post hsplit =>
      hkept p z (post ++ [y]) (by rw [hsplit, List.append_assoc]; rfl)
    have hstep := hupheld.step hdue hcarried fun x hx => by
      obtain ⟨hmem, hnot⟩ := List.mem_filter.mp hx
      exact hkept pre y [] rfl _ _ h x hmem (by simpa using hnot)
    rw [List.filter_append]
    cases hy : aside y with
    | true => simpa [hy] using hstep.of_snoc (haside y hy)
    | false => simpa [hy] using hstep

end Catalog

/-- What is sent for the change when there is nothing left to do. -/
def Change.resent : Change → List Statement
  | alterColumnType t k => [.alterColumn t k]
  | _ => []

namespace Catalog

variable {d : Dialect} {c : Catalog} {xs pre : List Change} {x : Change}

/-- What is upheld is settled, also after columns have been altered once more. -/
theorem Upheld.settled (h : Upheld d c xs)
    (hkeys : d = .postgres → ∀ t n, .dropConstraint t n .primaryKey ∈ xs → c.hasKey t = false)
    (hx : x ∈ xs) (hnot : x.alters = false) : Settled d (c.refit d pre) x := by
  obtain ⟨c₀, l, hdue⟩ := h.once x hx
  obtain ⟨hthere, hgone⟩ := h.done x hx
  have hdone : Done d (c.refit d pre) x := {
    there p hp := shows_refit.mpr (hthere p hp)
    gone p hp hshown := hgone p hp (shows_refit.mp hshown) }
  refine hdone.settled hdue ?_ ?_
  · rintro t k rfl
    cases hnot
  · rintro hd t n rfl
    exact hkeys hd t n hx

/-- **Changes that are upheld pass again**: only what alters columns is sent. -/
theorem Upheld.passes (h : Upheld d c xs)
    (hkeys : d = .postgres → ∀ t n, .dropConstraint t n .primaryKey ∈ xs → c.hasKey t = false)
    (hpre : pre ⊆ xs) : Passes d c pre (pre.map Change.resent) (c.refit d pre) := by
  induction pre using List.reverseRecOn with
  | nil =>
    have hsame : c.refit d [] = c := mapColumns_eq_self fun _ _ _ _ => rfl
    rw [hsame]
    exact .nil c
  | append_singleton pre x ih =>
    have hx : x ∈ xs := hpre (List.mem_append_right _ (List.mem_singleton_self x))
    have hothers := ih fun z hz => hpre (List.mem_append_left _ hz)
    refine passes_snoc.mpr ⟨_, x.resent, _, List.map_append, hothers, ?_⟩
    rw [refit_snoc]
    cases hnot : x.alters with
    | false =>
      have hsettled : Settled d (c.refit d pre) x := h.settled hkeys hx hnot
      have hsent : x.resent = [] := by cases x <;> first | rfl | cases hnot
      rw [hsent, mapColumns_eq_self fun _ _ _ _ => refitted_of_not_alters hnot]
      exact ⟨hsettled, rfl⟩
    | true =>
      cases x with
      | alterColumnType t k =>
        obtain ⟨c₀, l, hdue⟩ := h.once _ hx
        have hbuild := (due_alterColumnType.mp hdue).2
        obtain ⟨-, -, rfl⟩ := Change.build_eq_ok.mp hbuild
        have hhas : (c.refit d pre).has (.column t k.name) = true := has_column_refit (h.column hx)
        refine ⟨due_alterColumnType.mpr ⟨hhas, hbuild⟩, carryOutAll_cons_ok.mpr ⟨_, ?_, rfl⟩⟩
        exact alterColumn_ok hhas (h.uniform t k hx).refit
      | _ => cases hnot

end Catalog

/-- The catalog that running the changes leaves. -/
def Change.leaves (d : Dialect) (changes : List Change) (span : Option Span) (w : World Catalog) :
    Catalog :=
  (World.leftBy ((ensureAll d changes).run (Catalog.server d) span w)).server

/-- The change drops a primary key. -/
def Change.dropsKey : Change → Bool
  | dropConstraint _ _ .primaryKey => true
  | _ => false

namespace Catalog
open Change (leaves)

variable {d : Dialect} {c c' : Catalog} {xs : List Change} {aside : Change → Bool}

/-- The catalog after the changes have been asked for. -/
def after (d : Dialect) (c : Catalog) (xs : List Change) : Catalog :=
  leaves d xs none { server := c }

theorem Passes.after {ls : List (List Statement)} (h : Passes d c xs ls c') :
    c.after d xs = c' :=
  (Change.run_of_passes (w := { server := c }) h none).2.1

/-- What a change does is not undone by a later one, but for the changes that are left aside.  A
change that clashes with an earlier one leaves what that has done; and if a primary key is dropped
on PostgreSQL, its table is without one in the end. -/
structure Keeps (d : Dialect) (c : Catalog) (xs : List Change) (aside : Change → Bool) :
    Prop where
  kept : ∀ n (hn : n < xs.length), ∀ x ∈ xs.take n, aside x = false → x.clashes d xs[n] = true →
    Done d (c.after d (xs.take (n + 1))) x
  keyless : d = .postgres → ∀ x ∈ xs, x.dropsKey = true → (c.after d xs).hasKey x.table = false

theorem Keeps.upheld (hk : Keeps d c xs aside) (haside : ∀ y, aside y = true → y.alters = false)
    {ls : List (List Statement)} (h : Passes d c xs ls c') :
    Upheld d c' (xs.filter fun x => !aside x) := by
  refine h.upheld haside fun pre y post hsplit ms c₂ hprefix x hx hnot hclash => ?_
  subst hsplit
  have htake : (pre ++ y :: post).take (pre.length + 1) = pre ++ [y] :=
    List.take_length_add_append ..
  have hlast := hk.kept pre.length (by simp) x (by simpa using hx) hnot (by simpa using hclash)
  rwa [htake, hprefix.after] at hlast

theorem Keeps.keylessAfter (hk : Keeps d c xs aside) {ls : List (List Statement)}
    (h : Passes d c xs ls c') (hd : d = .postgres) (t n : String)
    (hx : .dropConstraint t n .primaryKey ∈ xs) : c'.hasKey t = false := by
  have hkeyless := hk.keyless hd _ hx rfl
  rwa [h.after] at hkeyless

/-- **Changes that undo nothing pass again** on the catalog that they lead to, and leave it. -/
theorem Keeps.passes (hk : Keeps d c xs fun _ => false) {ls : List (List Statement)}
    (h : Passes d c xs ls c') : Passes d c' xs (xs.map Change.resent) c' := by
  have hupheld := hk.upheld (fun _ hy => nomatch hy) h
  have hall : (xs.filter fun _ => !false) = xs := List.filter_eq_self.mpr fun _ _ => rfl
  rw [hall] at hupheld
  have hagain := hupheld.passes (hk.keylessAfter h) (List.Subset.refl xs)
  rwa [hupheld.fitted.refit] at hagain

end Catalog

/-- **Changes that undo nothing only alter columns again.**  On a database that answers from a
catalog, let changes all succeed, one after the other, and let none undo what an earlier one has
done.  Asked for again, they all succeed: columns are altered once more, nothing else is changed,
and the catalog stays as it is. -/
theorem Change.ensureAll_resent (d : Dialect) {changes : List Change} {span : Option Span}
    {w : World Catalog} {bs : List Bool}
    (hdone : World.outcome ((ensureAll d changes).run (Catalog.server d) span w) = .ok bs)
    (hkeeps : w.server.Keeps d changes fun _ => false) {span' : Option Span} {w₁ : World Catalog}
    (hw₁ : w₁.server = leaves d changes span w) :
    World.outcome ((ensureAll d changes).run (Catalog.server d) span' w₁) =
        .ok (changes.map alters) ∧
      leaves d changes span' w₁ = w₁.server := by
  obtain ⟨ls, hpasses⟩ := run_passes hdone
  have hagain := hkeeps.passes hpasses
  rw [← leaves, ← hw₁] at hagain
  obtain ⟨hok, hserver, -⟩ := run_of_passes hagain span'
  refine ⟨?_, hserver⟩
  rw [hok, List.map_map]
  refine congrArg _ (List.map_congr_left fun x _ => ?_)
  cases x <;> rfl

end SchemaMigration
