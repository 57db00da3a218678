import SchemaMigration.Proofs.Growth
import SchemaMigration.Proofs.HistoryRows

/-!
# Continuing where a run broke off

What an upgrade with additive steps does to a catalog, as a list of statements: those of the history
table, and for each step that is planned those of its changes and its record (`Upgrade.Completes`).

If one statement has been carried out, then exactly the others are due to the same upgrade, and they
lead to the same end (`Upgrade.Completes.step`).  So wherever an upgrade breaks off, it can be
continued (`Upgrade.Completes.continues`).
-/
namespace SchemaMigration
namespace Catalog

variable {d : Dialect} {c c' c₁ : Catalog} {st : Statement} {rest : List Statement}

/-- When the first of the missing columns has been added, the others are missing. -/
theorem missing_rest {table : String} {columns more : List Column} {k : Column}
    (hmissing : c.missing table columns = k :: more)
    (hcheck : (Change.addColumns table (k :: more)).check d = .ok ())
    (hhas : c.hasTable table = true) :
    (c.setColumns table (c.columnsOf table ++ [k])).missing table columns = more := by
  have hnames := (Change.check_addColumns hcheck).2
  have hlower : ∀ k' ∈ k :: more, Text.lower k'.name = k'.name := fun k' hk' =>
    (Name.lower_of_check (hnames k' hk')).trans (Name.toLower_of_check (hnames k' hk'))
  have hk : k.name.map Char.toLower = k.name := Name.toLower_of_check (hnames k List.mem_cons_self)
  have hsplit : ∀ x : Column, (!Guarded.hasName
      ((c.setColumns table (c.columnsOf table ++ [k])).columnNames table) x.name) =
      (!decide (Text.lower x.name = k.name) &&
        !Guarded.hasName (c.columnNames table) x.name) := by
    intro x
    rw [columnNames, columnsOf_setColumns hhas, List.map_append, List.map_singleton, hk]
    simp [Guarded.hasName, columnNames, Bool.and_comm]
  have hfilter : (c.setColumns table (c.columnsOf table ++ [k])).missing table columns =
      (c.missing table columns).filter fun x => !decide (Text.lower x.name = k.name) := by
    simp only [missing, hsplit, List.filter_filter]
  rw [hfilter, hmissing, List.filter_cons, hlower k List.mem_cons_self]
  simp only [decide_true, Bool.not_true, Bool.false_eq_true, if_false]
  refine List.filter_eq_self.mpr fun k' hk' => ?_
  rw [hlower k' (List.mem_cons_of_mem _ hk')]
  simpa using (Change.check_addColumns_cons hcheck).1 k' hk'

/-- Of an additive change the other statements are due once the first has been carried out. -/
theorem due_rest {x : Change} (hx : x.IsAdditive) (hdue : c.due d x = .ok (st :: rest))
    (hone : c.carryOut d st = .ok c₁) : c₁.due d x = .ok rest := by
  cases rest with
  | nil => exact settles hx hdue (carryOutAll_cons_ok.mpr ⟨c₁, hone, rfl⟩)
  | cons st' rest =>
    rcases due_narrowed hdue with hnil | hnarrowed
    · cases hnil
    obtain ⟨hcheck, hsupported, hl⟩ := Change.build_eq_ok.mp hnarrowed
    -- only columns that are added one by one have several statements
    cases x with
    | createTable t => cases (List.cons.inj hl).2
    | createIndex i => cases (List.cons.inj hl).2
    | addConstraint k => cases (List.cons.inj hl).2
    | addColumns table columns =>
      obtain ⟨hbuild, hhas, -⟩ := due_addColumns.mp hdue
      rw [narrowed] at hcheck hl
      cases hmissing : c.missing table columns with
      | nil => exact ((Change.check_addColumns hcheck).1 hmissing).elim
      | cons k more =>
        rw [hmissing] at hcheck hl
        simp only [Change.statements] at hl
        split at hl
        · cases (List.cons.inj hl).2
        obtain ⟨rfl, hothers⟩ := List.cons.inj hl
        obtain ⟨-, rfl⟩ := carryOut_addColumns hone
        have hmore : more ≠ [] := by
          rintro rfl
          cases hothers
        refine due_addColumns.mpr ⟨hbuild, ?_, Or.inr ?_⟩
        · rw [hasTable_setColumns]
          exact hhas
        · rw [missing_rest hmissing hcheck hhas]
          refine ⟨hmore, Change.build_eq_ok.mpr
            ⟨(Change.check_addColumns_cons hcheck).2 hmore, hsupported, ?_⟩⟩
          rw [← hothers]
          simp only [Change.statements]
          rw [if_neg (by assumption)]
    | _ => exact hx.elim

/-- **One statement forward, the others are due**: changes that pass with some statements pass with
the others after the first. -/
theorem Passes.step {xs : List Change} {ls : List (List Statement)} (h : Passes d c xs ls c')
    (hxs : ∀ x ∈ xs, x.IsAdditive) (hl : ls.flatten = st :: rest)
    (hone : c.carryOut d st = .ok c₁) : ∃ ls', Passes d c₁ xs ls' c' ∧ ls'.flatten = rest := by
  induction h with
  | nil c => cases hl
  | @cons c x xs l ls c₂ c' hdue hcarried hrest ih =>
    obtain ⟨hx, hothers⟩ := List.forall_mem_cons.mp hxs
    cases l with
    | nil =>
      -- the change was settled before, and the statement takes nothing away
      cases hcarried
      obtain ⟨ls', hpasses, hflat⟩ := ih hothers hl hone
      have hst : st.IsAdditive := hrest.additive hothers st (hl ▸ List.mem_cons_self)
      have hsettled : Settled d c₁ x := Settled.grows hdue hx (carryOut_grows hst hone).1
      exact ⟨[] :: ls', .cons hsettled rfl hpasses, hflat⟩
    | cons st' l =>
      obtain ⟨rfl, rfl⟩ := List.cons.inj hl
      obtain ⟨c₃, hfirst, hcarried⟩ := carryOutAll_cons_ok.mp hcarried
      cases hone.symm.trans hfirst
      exact ⟨l :: ls, .cons (due_rest hx hdue hone) hcarried hrest, rfl⟩

/-- The versions that the history table records. -/
def completedIn (c : Catalog) (table : String) : VersionSet :=
  .ofList ((c.recorded.filter fun r => sameName r.1 table).map (·.2))

theorem mem_completedIn {table : String} {v : Version} : v ∈ c.completedIn table ↔
    ∃ r ∈ c.recorded, sameName r.1 table = true ∧ r.2 = v := by
  simp only [completedIn, VersionSet.mem_ofList, List.mem_map, List.mem_filter, and_assoc]

end Catalog

/-- Carries out changes one after the other, as a step does that is made of them. -/
def Change.carryOutAll (d : Dialect) (changes : List Change) : Program Unit := do
  let _ ← Change.ensureAll d changes

/-- The body of the step creates and adds, by guarded changes one after the other. -/
def Step.IsAdditive (s : Step) : Prop :=
  ∀ d, ∃ changes, (∀ x ∈ changes, x.IsAdditive) ∧ s.body d = Change.carryOutAll d changes

/-- All steps create and add. -/
def Registry.IsAdditive (r : Registry) : Prop :=
  ∀ s ∈ r.steps.toList, s.IsAdditive

namespace Upgrade
open Catalog

variable (u : Upgrade) (d : Dialect)

/-- Steps are applied to the catalog `c` and recorded, one after the other, by these statements,
which lead to the catalog `c'`. -/
inductive Applies : Catalog → List Step → List Statement → Catalog → Prop
  | nil (c) : Applies c [] [] c
  | cons {c s changes ls c₁ c₂ rest sts c'} (hadditive : ∀ x ∈ changes, x.IsAdditive)
    (hbody : s.body d = Change.carryOutAll d changes) (hpasses : Passes d c changes ls c₁)
    (hrecord : c₁.carryOut d (u.recordOf s.version) = .ok c₂) (hrest : Applies c₂ rest sts c') :
    Applies c (s :: rest) (ls.flatten ++ u.recordOf s.version :: sts) c'

/-- The upgrade of the catalog `c` is completed by these statements, which lead to the catalog
`c'`: those of the history table come first, and those of the steps that are planned follow. -/
def Completes (c : Catalog) (sts : List Statement) (c' : Catalog) : Prop :=
  ∃ prep c₁ pending steps,
    c.due d (.createTable (History.table u.settings.historyTable)) = .ok prep ∧
    c.carryOutAll d prep = .ok c₁ ∧
    u.registry.plan u.settings.policy (c₁.completedIn u.settings.historyTable) = .ok pending ∧
    u.Applies d c₁ pending steps c' ∧ sts = prep ++ steps

variable {u d} {c c' c₁ : Catalog} {st : Statement} {sts rest : List Statement}

theorem Applies.carryOutAll {steps : List Step} (h : u.Applies d c steps sts c') :
    c.carryOutAll d sts = .ok c' := by
  induction h with
  | nil c => rfl
  | cons _ _ hpasses hrecord _ ih =>
    exact carryOutAll_append_ok.mpr
      ⟨_, hpasses.carryOutAll, carryOutAll_cons_ok.mpr ⟨_, hrecord, ih⟩⟩

theorem Completes.carryOutAll (h : u.Completes d c sts c') : c.carryOutAll d sts = .ok c' := by
  obtain ⟨prep, c₁, pending, steps, -, hprep, -, happlies, rfl⟩ := h
  exact carryOutAll_append_ok.mpr ⟨c₁, hprep, happlies.carryOutAll⟩

theorem plan_recorded {pending : List Step} {s : Step} {c : Catalog}
    (hplan : u.registry.plan u.settings.policy (c.completedIn u.settings.historyTable) =
      .ok (s :: pending))
    (hrecord : c.carryOut d (u.recordOf s.version) = .ok c₁) :
    u.registry.plan u.settings.policy (c₁.completedIn u.settings.historyTable) = .ok pending := by
  obtain ⟨-, rfl⟩ := recordVersion_recorded hrecord
  refine Registry.plan_advance (k := 1) hplan fun v => ?_
  simp only [mem_completedIn, List.mem_append, or_and_right, exists_or]
  refine or_congr_right ?_
  rw [List.take_succ_cons, List.take_zero, List.map_singleton, List.mem_singleton]
  constructor
  · rintro ⟨r, hr, -, rfl⟩
    rw [List.mem_singleton.mp hr]
  · rintro rfl
    exact ⟨_, List.mem_singleton_self _, sameName_refl _, rfl⟩

/-- **One statement forward, the same upgrade has the others to do.** -/
theorem Completes.step (h : u.Completes d c (st :: rest) c') (hone : c.carryOut d st = .ok c₁) :
    u.Completes d c₁ rest c' := by
  obtain ⟨prep, c₂, pending, steps, hdue, hprep, hplan, happlies, hsts⟩ := h
  cases prep with
  | cons st' prep =>
    -- the statement makes the history table
    obtain ⟨rfl, rfl⟩ := List.cons.inj hsts
    obtain ⟨c₃, hfirst, hprep⟩ := carryOutAll_cons_ok.mp hprep
    cases hone.symm.trans hfirst
    exact ⟨prep, c₂, pending, steps, due_rest trivial hdue hone, hprep, hplan, happlies, rfl⟩
  | nil =>
    cases hprep
    cases happlies with
    | nil c => cases hsts
    | @cons _ s changes ls c₂ c₃ others sts c' hadditive hbody hpasses hrecord hrest =>
      cases hflat : ls.flatten with
      | nil =>
        -- the statement records the step
        have hnone := hpasses.carryOutAll
        rw [hflat] at hsts hnone
        cases hnone
        obtain ⟨rfl, rfl⟩ := List.cons.inj hsts
        cases hone.symm.trans hrecord
        have hgrows : Grows c c₁ := by
          obtain ⟨-, rfl⟩ := recordVersion_recorded hrecord
          exact ⟨fun _ h => h, fun _ => List.Subset.refl _,
            fun _ _ => hasIndex_mono (List.Subset.refl _),
            fun _ _ _ => hasConstraint_mono (List.Subset.refl _)⟩
        exact ⟨[], c₁, others, _, Settled.grows hdue trivial hgrows, rfl,
          plan_recorded hplan hrecord, hrest, rfl⟩
      | cons st' more =>
        -- the statement belongs to the changes of the step
        rw [hflat] at hsts
        obtain ⟨rfl, rfl⟩ := List.cons.inj hsts
        have hst : st.IsAdditive := hpasses.additive hadditive st (hflat ▸ List.mem_cons_self)
        obtain ⟨hgrows, hrecorded⟩ := carryOut_grows hst hone
        obtain ⟨ls', hpasses', rfl⟩ := hpasses.step hadditive hflat hone
        refine ⟨[], c₁, s :: others, _, Settled.grows hdue trivial hgrows, rfl, ?_,
          .cons hadditive hbody hpasses' hrecord hrest, rfl⟩
        rw [completedIn, hrecorded]
        exact hplan

/-- **Where an upgrade broke off, it can be continued**, and comes to the same end. -/
theorem Completes.continues {trouble : Prop} (h : u.Completes d c sts c')
    (hbreak : BreaksOff d trouble c sts c₁) : ∃ rest, u.Completes d c₁ rest c' := by
  obtain ⟨-, l₁, l₂, rfl, hcarried⟩ := hbreak
  refine ⟨l₂, ?_⟩
  induction l₁ generalizing c with
  | nil =>
    cases hcarried
    exact h
  | cons st l₁ ih =>
    obtain ⟨c₂, hone, hcarried⟩ := carryOutAll_cons_ok.mp hcarried
    exact ih hcarried (h.step hone)

end Upgrade
end SchemaMigration
