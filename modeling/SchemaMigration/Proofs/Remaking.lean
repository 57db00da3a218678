import SchemaMigration.Proofs.Holdings
import SchemaMigration.Proofs.Idempotence
import SchemaMigration.Proofs.Tablewise

/-!
# Indexes and unique constraints that are made again

Among changes that undo nothing there may be some that make an index or a unique constraint and take
it away again (`Catalog.Remakes`).  Asked for again, they lead to what is there, as long as whatever
may have to be made can be made: at each point the catalog is the one they started on this time, but
for columns that have been altered once more and for what is held under the names in question
(`Catalog.Reached`).
-/
namespace SchemaMigration
namespace Catalog

variable {d : Dialect} {c : Catalog} {l : List Statement} {xs : List Change} {x : Change}
  {p q : Part} {table : String}

/-- Indexes and unique constraints may be made and taken away again and again; what the other
changes do is not undone. -/
structure Remakes (d : Dialect) (c : Catalog) (xs : List Change) : Prop where
  /-- The other changes undo nothing. -/
  kept : c.Keeps d xs fun x => (x.named d).isSome
  /-- What is held in the end is what the changes make of what was held at first. -/
  decided : ∀ x ∈ xs, ∀ p ∈ x.named d,
    (c.after d xs).held p = Remake.runAll (xs.map (Change.remake d p)) (c.held p)
  /-- No primary key has a name that is made or taken away. -/
  plain : ∀ k ∈ (c.after d xs).constraints, k.kind = .primaryKey →
    ∀ x ∈ xs, ∀ p ∈ x.named d, (Holding.constraint k).part.same p = false
  /-- What may have to be dropped again can be. -/
  droppable : ∀ x ∈ xs, ∀ p ∈ x.named d, x.remaking d = .clear → x.check d = .ok ()
  /-- What may have to be made again can be: there is room for it, unless it is never taken away. -/
  makable : ∀ x ∈ xs, ∀ p ∈ x.named d, x.remaking d ≠ .clear →
    (Done d (c.after d xs) x ∧ ∀ y ∈ xs, y.remake d p ≠ .clear) ∨ (c.after d xs).Room d x

/-- The catalog that the changes have reached when they are made again on `f`. -/
structure Reached (d : Dialect) (f : Catalog) (pre : List Change) (e : Catalog) : Prop where
  tables : e.tables = (f.refit d (pre.filter fun x => !(x.named d).isSome)).tables
  recorded : e.recorded = f.recorded
  held : ∀ p, e.held p = Remake.runAll (pre.map (Change.remake d p)) (f.held p)

theorem named_addConstraint {k : Constraint} (hx : (Change.addConstraint k).named d = some p) :
    k.kind = .unique ∧ p = .constraint k.table (k.storedName d) := by
  rw [Change.named] at hx
  split at hx
  · next hunique => exact ⟨hunique, (Option.some.inj hx).symm⟩
  · cases hx

theorem remake_eq_make {a : Holding} (h : x.remake d p = .make a) :
    (∃ i, x = .createIndex i ∧ a = .index { i with name := i.storedName d }) ∨
      ∃ k, x = .addConstraint k ∧ k.kind = .unique ∧
        a = .constraint { k with name := k.storedName d } := by
  cases hx : x.named d with
  | none =>
    rw [remake_none hx] at h
    cases h
  | some q =>
    cases hsame : q.same p with
    | false =>
      rw [remake_other hx hsame] at h
      cases h
    | true =>
      rw [remake_same hx hsame] at h
      cases x with
      | createIndex i =>
        cases h
        exact .inl ⟨i, rfl, rfl⟩
      | addConstraint k =>
        cases h
        exact .inr ⟨k, rfl, (named_addConstraint hx).1, rfl⟩
      | _ => cases h

theorem alters_of_named (hx : (x.named d).isSome = true) : x.alters = false := by
  cases x with
  | alterColumnType t k => cases hx
  | _ => rfl

theorem unnamed_kind {k : Constraint} (hx : (Change.addConstraint k).named d = none) :
    k.kind = .primaryKey := by
  cases hkind : k.kind with
  | primaryKey => rfl
  | unique =>
    rw [Change.named, if_pos hkind] at hx
    cases hx

/-- A change that names nothing ensures and clears tables, columns and primary keys only. -/
theorem isOfTable_of_unnamed (hx : x.named d = none) :
    (∀ p ∈ x.ensures d, p.IsOfTable) ∧ ∀ p ∈ x.clears d, p.IsOfTable := by
  cases x with
  | createIndex i => cases hx
  | dropIndex t n => cases hx
  | addConstraint k =>
    have hkind := unnamed_kind hx
    simp [Change.ensures, Change.clears, hkind, Part.IsOfTable]
  | dropConstraint t n kind =>
    cases kind with
    | unique => cases hx
    | primaryKey => cases d <;> simp [Change.ensures, Change.clears, Part.IsOfTable]
  | _ => simp [Change.ensures, Change.clears, Part.IsOfTable]

section Again

variable {f e : Catalog} {pre : List Change}

theorem Reached.hasTable (hr : Reached d f pre e) (t : String) : e.hasTable t = f.hasTable t := by
  rw [Catalog.hasTable, hr.tables]
  exact hasTable_mapColumns t

theorem Reached.columnsOf (hr : Reached d f pre e) (t : String) :
    e.columnsOf t = (f.refit d (pre.filter fun x => !(x.named d).isSome)).columnsOf t := by
  rw [Catalog.columnsOf, table?, hr.tables, Catalog.columnsOf, table?]

theorem Reached.has_column (hr : Reached d f pre e) {t n : String}
    (h : f.has (.column t n) = true) : e.has (.column t n) = true := by
  have hrefit : (f.refit d (pre.filter fun x => !(x.named d).isSome)).has (.column t n) = true :=
    has_column_refit h
  rw [Catalog.has_column] at hrefit ⊢
  rwa [hr.columnsOf]

/-- An index that is there was there before or has been created. -/
theorem Reached.mem_indexes (hr : Reached d f pre e) {i : Index} (hi : i ∈ e.indexes) :
    i ∈ f.indexes ∨ ∃ x ∈ pre, x.table = i.table := by
  have hmem := mem_held_part.mpr (mem_entries_index.mpr hi)
  rw [hr.held] at hmem
  rcases Remake.mem_runAll hmem with hold | hnew
  · exact .inl (mem_entries_index.mp (mem_held_part.mp hold))
  · obtain ⟨x, hx, hmakes⟩ := List.mem_map.mp hnew
    obtain ⟨j, rfl, hj⟩ | ⟨k, -, -, hk⟩ := remake_eq_make hmakes
    · cases hj
      exact .inr ⟨_, hx, rfl⟩
    · cases hk

/-- A primary key that is there was there before. -/
theorem Reached.mem_keys (hr : Reached d f pre e) {k : Constraint} (hk : k ∈ e.constraints)
    (hkind : k.kind = .primaryKey) : k ∈ f.constraints := by
  have hmem := mem_held_part.mpr (mem_entries_constraint.mpr hk)
  rw [hr.held] at hmem
  rcases Remake.mem_runAll hmem with hold | hnew
  · exact mem_entries_constraint.mp (mem_held_part.mp hold)
  · obtain ⟨x, -, hmakes⟩ := List.mem_map.mp hnew
    obtain ⟨j, -, hj⟩ | ⟨k', -, hunique, hk'⟩ := remake_eq_make hmakes
    · cases hj
    · cases hk'
      cases hunique.symm.trans hkind

section Plain

variable (hr : Reached d f pre e) (hplain : ∀ k ∈ f.constraints, k.kind = .primaryKey →
  ∀ x ∈ pre, ∀ p ∈ x.named d, (Holding.constraint k).part.same p = false)

include hr hplain

theorem Reached.hasKey (t : String) : e.hasKey t = f.hasKey t := by
  rw [Bool.eq_iff_iff, Catalog.hasKey, Catalog.hasKey, List.any_eq_true, List.any_eq_true]
  constructor
  · rintro ⟨k, hk, hkey⟩
    have hkind := of_decide_eq_true (Bool.and_eq_true_iff.mp hkey).2
    exact ⟨k, hr.mem_keys hk hkind, hkey⟩
  · rintro ⟨k, hk, hkey⟩
    have hkind := of_decide_eq_true (Bool.and_eq_true_iff.mp hkey).2
    refine ⟨k, ?_, hkey⟩
    have hkeep : ∀ op ∈ pre.map (Change.remake d (Holding.constraint k).part), op = .keep := by
      intro op hop
      obtain ⟨x, hx, rfl⟩ := List.mem_map.mp hop
      cases hnamed : x.named d with
      | none => exact remake_none hnamed
      | some q =>
        have hnot := hplain k hk hkind x hx q hnamed
        rw [Part.same, decide_eq_false_iff_not, eq_comm] at hnot
        exact remake_other hnamed (decide_eq_false hnot)
    have hheld := hr.held (Holding.constraint k).part
    rw [Remake.runAll_of_keep hkeep] at hheld
    have hmem := mem_held_part.mpr (mem_entries_constraint.mpr hk)
    rw [← hheld] at hmem
    exact mem_entries_constraint.mp (mem_held_part.mp hmem)

theorem Reached.shows {p : Part} (hp : p.IsOfTable) : e.Shows p ↔ f.Shows p := by
  cases p with
  | table t => rw [Shows, Shows, hr.hasTable]
  | column t n =>
    rw [Shows, Catalog.columnNames, hr.columnsOf]
    exact shows_refit (p := .column t n)
  | key t => rw [Shows, Shows, hr.hasKey hplain]
  | _ => exact hp.elim

theorem Reached.done (hx : x.named d = none) (h : Done d f x) : Done d e x := by
  obtain ⟨hensures, hclears⟩ := isOfTable_of_unnamed hx
  exact ⟨fun p hp => (hr.shows hplain (hensures p hp)).mpr (h.there p hp),
    fun p hp hshown => h.gone p hp ((hr.shows hplain (hclears p hp)).mp hshown)⟩

end Plain

/-! ### Steps -/

variable {e' : Catalog}

/-- What is due can be carried out, and leads on. -/
def Leads (d : Dialect) (f : Catalog) (pre : List Change) (e : Catalog) (x : Change) : Prop :=
  ∃ l e', e.due d x = .ok l ∧ e.carryOutAll d l = .ok e' ∧ Reached d f (pre ++ [x]) e'

theorem Reached.remade (hr : Reached d f pre e) (hx : x.named d = some p) (h : e.Remade d e' x) :
    Reached d f (pre ++ [x]) e' where
  tables := by
    rw [h.tables, hr.tables, List.filter_append, List.filter_cons_of_neg (by simp [hx]),
      List.filter_nil, List.append_nil]
  recorded := h.recorded.trans hr.recorded
  held q := by rw [h.held, hr.held, List.map_append, List.map_singleton, Remake.runAll_snoc]

theorem hasTable_of_done (hmakes : x.remaking d ≠ .clear) (h : Done d f x) :
    f.hasTable x.table = true := by
  cases x with
  | createIndex i => exact h.there (.table i.table) List.mem_cons_self
  | addConstraint k => exact h.there (.table k.table) List.mem_cons_self
  | _ => exact (hmakes rfl).elim

theorem hasTable_of_room (hmakes : x.remaking d ≠ .clear) (h : f.Room d x) :
    f.hasTable x.table = true := by
  cases x with
  | createIndex i => exact h.1
  | addConstraint k => exact h.1
  | _ => exact (hmakes rfl).elim

section Named

variable {c₀ : Catalog} {l₀ : List Statement} (hr : Reached d f pre e) (hx : x.named d = some p)
  (hdue : c₀.due d x = .ok l₀) (hindexes : ∀ i ∈ e.indexes, sameName i.table x.table = true)

include hr hx hdue hindexes

/-- An index or a unique constraint is made again if there is room for it. -/
theorem Reached.makes (hmakes : x.remaking d ≠ .clear)
    (hroom : (Done d f x ∧ ∀ y ∈ pre, y.remake d p ≠ .clear) ∨ f.Room d x) : Leads d f pre e x := by
  have hheld : (∀ y ∈ pre, y.remake d p ≠ .clear) → f.held p ≠ [] → e.held p ≠ [] := by
    intro hnever hne
    rw [hr.held, Remake.runAll_of_not_clear _ hne]
    · exact hne
    · intro op hop
      obtain ⟨y, hy, rfl⟩ := List.mem_map.mp hop
      exact hnever y hy
  have hhas : e.hasTable x.table = true :=
    (hr.hasTable _).trans
      (hroom.elim (fun h => hasTable_of_done hmakes h.1) (hasTable_of_room hmakes))
  cases x with
  | createIndex i =>
    cases hx
    obtain ⟨l, e', hdue', hcarried, hremade⟩ := createIndex_remade (due_createIndex.mp hdue).1 hhas
      hindexes fun hnone => by
        obtain ⟨hdone, hnever⟩ | ⟨-, hknown, hname⟩ := hroom
        · refine (hheld hnever (fun hnil => ?_) hnone).elim
          have hthere := hdone.there (.index i.table (i.storedName d))
            (List.mem_cons_of_mem _ (List.mem_singleton_self _))
          rw [Shows, held_index_eq_nil.mp hnil] at hthere
          cases hthere
        · exact ⟨hhas, fun n hn => hr.has_column (hknown n hn),
            fun hd => (hr.hasTable _).trans (hname hd)⟩
    exact ⟨l, e', hdue', hcarried, hr.remade rfl hremade⟩
  | addConstraint k =>
    obtain ⟨hunique, rfl⟩ := named_addConstraint hx
    obtain ⟨hcheck, hsupported, -⟩ := due_addConstraint.mp hdue
    obtain ⟨l, e', hdue', hcarried, hremade⟩ :=
      addConstraint_remade hunique hcheck hsupported hhas fun hnone => by
        obtain ⟨hdone, hnever⟩ | ⟨-, hknown⟩ := hroom
        · refine (hheld hnever (fun hnil => ?_) hnone).elim
          have hthere := hdone.there (.constraint k.table (k.storedName d))
            (by simp [Change.ensures, hunique])
          rw [Shows, held_constraint_eq_nil.mp hnil] at hthere
          cases hthere
        · exact ⟨hhas, fun n hn => hr.has_column (hknown n hn)⟩
    exact ⟨l, e', hdue', hcarried, hr.remade hx hremade⟩
  | _ => exact (hmakes rfl).elim

/-- It is taken away again if its name can be asked for. -/
theorem Reached.clears (hclears : x.remaking d = .clear) (hcheck : x.check d = .ok ())
    (hplain : ∀ k ∈ f.constraints, k.kind = .primaryKey →
      (Holding.constraint k).part.same p = false) : Leads d f pre e x := by
  cases x with
  | dropIndex t n =>
    have hapart : e.IndexNamesApart d := fun _ i hi j hj _ =>
      sameName_trans (hindexes i hi) (sameName_symm (hindexes j hj))
    obtain ⟨l, e', hdue', hcarried, hremade⟩ := dropIndex_remade hcheck hapart
    exact ⟨l, e', hdue', hcarried, hr.remade hx hremade⟩
  | dropConstraint t n kind =>
    cases kind with
    | primaryKey => cases hx
    | unique =>
      cases hx
      obtain ⟨l, e', hdue', hcarried, hremade⟩ := dropConstraint_remade hcheck
        (due_dropConstraint.mp hdue).1 fun k hk hkind => hplain k (hr.mem_keys hk hkind) hkind
      exact ⟨l, e', hdue', hcarried, hr.remade rfl hremade⟩
  | createIndex i => cases hclears
  | addConstraint k => cases hclears
  | _ => cases hx

end Named

/-- What the other changes have done is still done, and a column is altered once more. -/
theorem Reached.unnamed (hr : Reached d f pre e) (hx : x.named d = none)
    (hupheld : Upheld d f (xs.filter fun y => !(y.named d).isSome)) (hmem : x ∈ xs)
    (hkeys : d = .postgres → ∀ t n, .dropConstraint t n .primaryKey ∈ xs → f.hasKey t = false)
    (hplain : ∀ k ∈ f.constraints, k.kind = .primaryKey →
      ∀ y ∈ pre, ∀ p ∈ y.named d, (Holding.constraint k).part.same p = false) :
    Leads d f pre e x := by
  have hin : x ∈ xs.filter fun y => !(y.named d).isSome := List.mem_filter.mpr ⟨hmem, by simp [hx]⟩
  obtain ⟨c₀, l₀, hdue⟩ := hupheld.once x hin
  have hfilter : (pre ++ [x]).filter (fun y => !(y.named d).isSome) =
      pre.filter (fun y => !(y.named d).isSome) ++ [x] := by
    rw [List.filter_append, List.filter_cons_of_pos (by simp [hx]), List.filter_nil]
  have hheld : ∀ p, e.held p = Remake.runAll ((pre ++ [x]).map (Change.remake d p)) (f.held p) := by
    intro p
    rw [hr.held, List.map_append, List.map_singleton, Remake.runAll_snoc, remake_none hx]
    rfl
  cases hnot : x.alters with
  | false =>
    have hsettled : Settled d e x := by
      refine (hr.done hplain hx (hupheld.done x hin)).settled hdue ?_ ?_
      · rintro t k rfl
        cases hnot
      · rintro hd t n rfl
        exact (hr.hasKey hplain t).trans (hkeys hd t n hmem)
    refine ⟨[], e, hsettled, rfl, ?_, hr.recorded, hheld⟩
    rw [hr.tables, hfilter, refit_snoc,
      mapColumns_eq_self fun _ _ _ _ => refitted_of_not_alters hnot]
  | true =>
    cases x with
    | alterColumnType t k =>
      have hbuild := (due_alterColumnType.mp hdue).2
      obtain ⟨-, -, rfl⟩ := Change.build_eq_ok.mp hbuild
      have hhas : e.has (.column t k.name) = true := hr.has_column (hupheld.column hin)
      have huniform : e.Uniform t := by
        have hrefit : (f.refit d (pre.filter fun y => !(y.named d).isSome)).Uniform t :=
          (hupheld.uniform t k hin).refit
        rwa [Uniform, ← hr.tables] at hrefit
      refine ⟨_, _, due_alterColumnType.mpr ⟨hhas, hbuild⟩,
        carryOutAll_singleton.trans (alterColumn_ok hhas huniform), ?_, hr.recorded, hheld⟩
      rw [hfilter, refit_snoc, mapColumns, mapColumns, hr.tables]
    | _ => cases hnot

end Again

theorem entries_indexes (c : Catalog) :
    c.entries.filterMap (fun | .index i => some i | _ => none) = c.indexes := by
  simp [entries, List.filterMap_append, List.filterMap_map]

theorem entries_constraints (c : Catalog) :
    c.entries.filterMap (fun | .constraint k => some k | _ => none) = c.constraints := by
  simp [entries, List.filterMap_append, List.filterMap_map]

theorem remake_congr (h : p.same q = true) : x.remake d p = x.remake d q := by
  have hsame : ∀ r : Part, r.same p = r.same q := fun _ => same_trans h
  simp only [Change.remake, hsame]

section Whole

variable {f : Catalog}

/-- What the changes have decided they do not change when they are made again. -/
theorem runAll_held (hdecided : ∀ x ∈ xs, ∀ p ∈ x.named d,
      f.held p = Remake.runAll (xs.map (Change.remake d p)) (c.held p)) (p : Part) :
    Remake.runAll (xs.map (Change.remake d p)) (f.held p) = f.held p := by
  by_cases hnamed : ∃ x ∈ xs, ∃ q ∈ x.named d, q.same p = true
  · obtain ⟨x, hx, q, hq, hsame⟩ := hnamed
    have hops : xs.map (Change.remake d q) = xs.map (Change.remake d p) :=
      List.map_congr_left fun _ _ => remake_congr hsame
    rw [← hops, ← held_congr hsame, hdecided x hx q hq, Remake.runAll_runAll]
  · refine Remake.runAll_of_keep fun op hop => ?_
    obtain ⟨x, hx, rfl⟩ := List.mem_map.mp hop
    cases hq : x.named d with
    | none => exact remake_none hq
    | some q =>
      have hother : q.same p = false :=
        Bool.eq_false_iff.mpr fun hsame => hnamed ⟨x, hx, q, hq, hsame⟩
      exact remake_other hq hother

theorem Remakes.passes (h : c.Remakes d xs) {ls : List (List Statement)}
    (hpasses : Passes d c xs ls f) (hon : ∀ x ∈ xs, x.IsOn table = true)
    (hown : ∀ i ∈ f.indexes, sameName i.table table = true) :
    ∃ ms e, Passes d f xs ms e ∧ e.Same f := by
  obtain ⟨hkept, hdecided, hplain, hdrop, hmake⟩ := h
  have hupheld := hkept.upheld (fun _ => alters_of_named) hpasses
  have hkeys := hkept.keylessAfter hpasses
  rw [hpasses.after] at hdecided hplain hmake
  have hagain : ∀ pre ⊆ xs, ∃ ms e, Passes d f pre ms e ∧ Reached d f pre e := by
    intro pre hpre
    induction pre using List.reverseRecOn with
    | nil =>
      refine ⟨[], f, .nil f, ?_, rfl, fun _ => rfl⟩
      exact congrArg Catalog.tables (mapColumns_eq_self fun _ _ _ _ => rfl).symm
    | append_singleton pre x ih =>
      have hx : x ∈ xs := hpre (List.mem_append_right _ (List.mem_singleton_self x))
      have hbefore : pre ⊆ xs := fun y hy => hpre (List.mem_append_left _ hy)
      obtain ⟨ms, e, hms, hr⟩ := ih hbefore
      have hindexes : ∀ i ∈ e.indexes, sameName i.table x.table = true := by
        intro i hi
        refine sameName_trans ?_ (sameName_symm (hon x hx))
        rcases hr.mem_indexes hi with hold | ⟨y, hy, htable⟩
        · exact hown i hold
        · rw [← htable]
          exact hon y (hbefore hy)
      obtain ⟨l, e', hdue, hcarried, hr'⟩ : Leads d f pre e x := by
        cases hnamed : x.named d with
        | none =>
          exact hr.unnamed hnamed hupheld hx hkeys fun k hk hkind y hy =>
            hplain k hk hkind y (hbefore hy)
        | some p =>
          obtain ⟨c₀, l₀, hdue⟩ := hpasses.once hx
          by_cases hclears : x.remaking d = .clear
          · exact hr.clears hnamed hdue hindexes hclears (hdrop x hx p hnamed hclears)
              fun k hk hkind => hplain k hk hkind x hx p hnamed
          · exact hr.makes hnamed hdue hindexes hclears <| (hmake x hx p hnamed hclears).imp_left
              fun ⟨hdone, hnever⟩ => ⟨hdone, fun y hy => hnever y (hbefore hy)⟩
      exact ⟨_, e', passes_snoc.mpr ⟨ms, l, e, rfl, hms, hdue, hcarried⟩, hr'⟩
  obtain ⟨ms, e, hms, hr⟩ := hagain xs (List.Subset.refl xs)
  refine ⟨ms, e, hms, ?_⟩
  have hentries : e.entries.Perm f.entries := entries_perm fun p => by
    rw [hr.held, runAll_held hdecided]
  constructor
  · rw [hr.tables, hupheld.fitted.refit]
  · rw [← entries_indexes e, ← entries_indexes f]
    exact hentries.filterMap _
  · rw [← entries_constraints e, ← entries_constraints f]
    exact hentries.filterMap _
  · rw [hr.recorded]

end Whole

end Catalog
end SchemaMigration
