import SchemaMigration.Proofs.SafeDrops

/-!
# What is held under a name

Changes may drop an index and create it once more, or the other way round, and so with a unique
constraint.  What a catalog then holds under the name (`Catalog.held`) is decided by those changes
alone: each of them makes it, takes it away or leaves it (`Change.remake`), and all of them done
twice come to what they come to when done once (`Remake.runAll_runAll`).  A change of this kind,
carried out where there is room for what it makes, does what it says and nothing else
(`Catalog.Remade`).
-/
namespace SchemaMigration

/-- What a change does to what is held under a name. -/
inductive Remake (α : Type)
  | make (new : α)
  | clear
  | keep
  deriving DecidableEq

namespace Remake

variable {α : Type} {ops : List (Remake α)} {l : List α}

/-- Something is made only where nothing is held yet. -/
def run : Remake α → List α → List α
  | make new, [] => [new]
  | make _, a :: rest => a :: rest
  | clear, _ => []
  | keep, l => l

/-- What is held after all of them, one after the other. -/
def runAll (ops : List (Remake α)) (l : List α) : List α :=
  ops.foldl (fun l op => op.run l) l

theorem runAll_snoc (op : Remake α) : runAll (ops ++ [op]) l = op.run (runAll ops l) :=
  List.foldl_append ..

/-- Either what is held at first makes no difference, or whatever is held stays. -/
theorem runAll_cases (ops : List (Remake α)) :
    (∃ m, ∀ l, runAll ops l = m) ∨ ∀ l, l ≠ [] → runAll ops l = l := by
  induction ops with
  | nil => exact .inr fun _ _ => rfl
  | cons op rest ih =>
    rcases ih with ⟨m, hm⟩ | hkept
    · exact .inl ⟨m, fun l => hm (op.run l)⟩
    · cases op with
      | make new =>
        refine .inr fun l hl => ?_
        obtain ⟨a, l', rfl⟩ := List.exists_cons_of_ne_nil hl
        exact hkept _ hl
      | clear => exact .inl ⟨runAll rest [], fun _ => rfl⟩
      | keep => exact .inr hkept

/-- **Done twice is done once.** -/
theorem runAll_runAll (ops : List (Remake α)) (l : List α) :
    runAll ops (runAll ops l) = runAll ops l := by
  rcases runAll_cases ops with ⟨m, hm⟩ | hkept
  · rw [hm, hm]
  · by_cases hl : l = []
    · by_cases hnone : runAll ops l = []
      · rw [hnone, ← hl, hnone, hl]
      · exact hkept _ hnone
    · rw [hkept l hl, hkept l hl]

/-- What is held stays if nothing is cleared. -/
theorem runAll_of_not_clear (hops : ∀ op ∈ ops, op ≠ clear) (hl : l ≠ []) : runAll ops l = l := by
  obtain ⟨a, rest, rfl⟩ := List.exists_cons_of_ne_nil hl
  induction ops with
  | nil => rfl
  | cons op more ih =>
    obtain ⟨hop, hmore⟩ := List.forall_mem_cons.mp hops
    cases op with
    | clear => exact (hop rfl).elim
    | _ => exact ih hmore

theorem runAll_of_keep (hops : ∀ op ∈ ops, op = keep) : runAll ops l = l := by
  induction ops with
  | nil => rfl
  | cons op more ih =>
    obtain ⟨rfl, hmore⟩ := List.forall_mem_cons.mp hops
    exact ih hmore

/-- What is held was held at first or has been made. -/
theorem mem_runAll {a : α} (h : a ∈ runAll ops l) : a ∈ l ∨ make a ∈ ops := by
  induction ops generalizing l with
  | nil => exact .inl h
  | cons op rest ih =>
    rcases ih h with hl | hrest
    · cases op with
      | make new =>
        cases l with
        | nil =>
          obtain rfl := List.mem_singleton.mp hl
          exact .inr List.mem_cons_self
        | cons b more => exact .inl hl
      | clear => cases hl
      | keep => exact .inl hl
    · exact .inr (List.mem_cons_of_mem _ hrest)

end Remake

/-- The part with its names in lower case. -/
def Part.folded : Part → Part
  | .table t => .table (t.map Char.toLower)
  | .column t n => .column (t.map Char.toLower) (n.map Char.toLower)
  | .index t n => .index (t.map Char.toLower) (n.map Char.toLower)
  | .constraint t n => .constraint (t.map Char.toLower) (n.map Char.toLower)
  | .key t => .key (t.map Char.toLower)

/-- Whether the parts are the same but for the case of their names. -/
def Part.same (p q : Part) : Bool :=
  decide (p.folded = q.folded)

/-- The part is a table, a column or a primary key, whatever its name. -/
def Part.IsOfTable : Part → Prop
  | .table _ | .column _ _ | .key _ => True
  | _ => False

/-- An index or a constraint. -/
inductive Holding
  | index (i : Index)
  | constraint (k : Constraint)
  deriving DecidableEq

/-- The name that it is held under. -/
def Holding.part : Holding → Part
  | index i => .index i.table i.name
  | constraint k => .constraint k.table k.name

namespace Change

variable (d : Dialect)

/-- The index or the unique constraint that the change makes or takes away. -/
def named : Change → Option Part
  | createIndex i => some (.index i.table (i.storedName d))
  | dropIndex t n => some (.index t (d.fit n))
  | addConstraint k =>
    if k.kind = .unique then some (.constraint k.table (k.storedName d)) else none
  | dropConstraint t n .unique => some (.constraint t (d.fit n))
  | _ => none

/-- What the change does to it. -/
def remaking : Change → Remake Holding
  | createIndex i => .make (.index { i with name := i.storedName d })
  | addConstraint k => .make (.constraint { k with name := k.storedName d })
  | _ => .clear

/-- What the change does to what is held as the part. -/
def remake (p : Part) (x : Change) : Remake Holding :=
  if (x.named d).any (·.same p) then x.remaking d else .keep

end Change

namespace Catalog

variable {d : Dialect} {c c' : Catalog} {l : List Statement} {xs : List Change} {x : Change}
  {p q : Part} {table : String}

/-! ## What is held under a name -/

/-- The indexes and constraints. -/
def entries (c : Catalog) : List Holding :=
  c.indexes.map .index ++ c.constraints.map .constraint

/-- The indexes or the constraints that are held as the part. -/
def held (c : Catalog) (p : Part) : List Holding :=
  c.entries.filter fun a => a.part.same p

theorem mem_entries_index {i : Index} : .index i ∈ c.entries ↔ i ∈ c.indexes := by
  simp [entries]

theorem mem_entries_constraint {k : Constraint} :
    .constraint k ∈ c.entries ↔ k ∈ c.constraints := by
  simp [entries]

theorem mem_held {a : Holding} : a ∈ c.held p ↔ a ∈ c.entries ∧ a.part.same p = true :=
  List.mem_filter

theorem mem_held_part {a : Holding} : a ∈ c.held a.part ↔ a ∈ c.entries := by
  simp [mem_held, Part.same]

theorem held_congr (h : p.same q = true) : c.held p = c.held q := by
  have hfolded : p.folded = q.folded := of_decide_eq_true h
  simp only [held, Part.same, hfolded]

theorem same_index {t n u m : String} :
    (Part.index t n).same (.index u m) = (sameName t u && sameName n m) := by
  simp [Part.same, Part.folded, sameName]

theorem same_constraint {t n u m : String} :
    (Part.constraint t n).same (.constraint u m) = (sameName t u && sameName n m) := by
  simp [Part.same, Part.folded, sameName]

theorem same_constraint_index {t n u m : String} :
    (Part.constraint t n).same (.index u m) = false := by
  simp [Part.same, Part.folded]

theorem same_index_constraint {t n u m : String} :
    (Part.index t n).same (.constraint u m) = false := by
  simp [Part.same, Part.folded]

theorem held_index_eq_nil {t n : String} :
    c.held (.index t n) = [] ↔ c.has (.index t n) = false := by
  rw [← Bool.not_eq_true, has_index, held, List.filter_eq_nil_iff]
  constructor
  · rintro h ⟨i, hi, ht, hn⟩
    exact h (.index i) (mem_entries_index.mpr hi) (same_index.trans (by rw [ht, hn]; rfl))
  · rintro h (i | k) ha hsame
    · rw [Holding.part, same_index, Bool.and_eq_true] at hsame
      exact h ⟨i, mem_entries_index.mp ha, hsame⟩
    · rw [Holding.part, same_constraint_index] at hsame
      cases hsame

theorem held_constraint_eq_nil {t n : String} :
    c.held (.constraint t n) = [] ↔ c.has (.constraint t n) = false := by
  rw [← Bool.not_eq_true, has_constraint, held, List.filter_eq_nil_iff]
  constructor
  · rintro h ⟨k, hk, ht, hn⟩
    exact h (.constraint k) (mem_entries_constraint.mpr hk)
      (same_constraint.trans (by rw [ht, hn]; rfl))
  · rintro h (i | k) ha hsame
    · rw [Holding.part, same_index_constraint] at hsame
      cases hsame
    · rw [Holding.part, same_constraint, Bool.and_eq_true] at hsame
      exact h ⟨k, mem_entries_constraint.mp ha, hsame⟩

/-- What is held as each part says what there is in all. -/
theorem entries_perm (h : ∀ p, c.held p = c'.held p) : c.entries.Perm c'.entries := by
  refine List.perm_iff_count.mpr fun a => ?_
  have hcount : ∀ c : Catalog, (c.held a.part).count a = c.entries.count a :=
    fun _ => List.count_filter (decide_eq_true rfl)
  rw [← hcount c, ← hcount c', h]

/-! ## One change -/

section Kinds

variable (hx : x.named d = some q)

include hx

theorem remake_same (h : q.same p = true) : x.remake d p = x.remaking d := by
  rw [Change.remake, hx, Option.any_some, if_pos h]

theorem remake_other (h : q.same p = false) : x.remake d p = .keep := by
  rw [Change.remake, hx, Option.any_some, if_neg (Bool.eq_false_iff.mp h)]

end Kinds

theorem remake_none (hx : x.named d = none) : x.remake d p = .keep := by
  rw [Change.remake, hx]
  rfl

/-- The catalog is left as the change makes it: indexes and constraints as it says, and nothing else
is different. -/
structure Remade (d : Dialect) (c c' : Catalog) (x : Change) : Prop where
  tables : c'.tables = c.tables
  recorded : c'.recorded = c.recorded
  held : ∀ p, c'.held p = (x.remake d p).run (c.held p)

theorem same_trans {r : Part} (h : p.same q = true) : r.same p = r.same q := by
  have hfolded : p.folded = q.folded := of_decide_eq_true h
  rw [Part.same, Part.same, hfolded]

/-- What is held already is not made again. -/
theorem remade_none {a : Holding} (hx : x.named d = some q) (hmakes : x.remaking d = .make a)
    (hheld : c.held q ≠ []) : c.Remade d c x where
  tables := rfl
  recorded := rfl
  held p := by
    cases hsame : q.same p with
    | false => rw [remake_other hx hsame, Remake.run]
    | true =>
      rw [remake_same hx hsame, hmakes, ← held_congr hsame]
      obtain ⟨b, rest, hcons⟩ := List.exists_cons_of_ne_nil hheld
      rw [hcons, Remake.run]

/-- What was not held and is made stands alone. -/
theorem remade_made {a : Holding} {u v : List Holding} (hx : x.named d = some a.part)
    (hmakes : x.remaking d = .make a) (hnone : c.held a.part = []) (htables : c'.tables = c.tables)
    (hrecorded : c'.recorded = c.recorded) (hold : c.entries = u ++ v)
    (hnew : c'.entries = u ++ a :: v) : c.Remade d c' x where
  tables := htables
  recorded := hrecorded
  held p := by
    cases hsame : a.part.same p with
    | false =>
      rw [remake_other hx hsame, Remake.run]
      simp [held, hold, hnew, hsame]
    | true =>
      rw [remake_same hx hsame, hmakes, ← held_congr (c := c) hsame, hnone, Remake.run,
        ← held_congr (c := c') hsame]
      rw [held, hold, List.filter_append, List.append_eq_nil_iff] at hnone
      have hself : a.part.same a.part = true := decide_eq_true rfl
      rw [held, hnew, List.filter_append, hnone.1, List.filter_cons, if_pos hself, hnone.2,
        List.nil_append]

/-- What is taken away is not held. -/
theorem remade_cleared (hx : x.named d = some q) (hclears : x.remaking d = .clear)
    (htables : c'.tables = c.tables) (hrecorded : c'.recorded = c.recorded)
    (hentries : c'.entries = c.entries.filter fun a => !a.part.same q) : c.Remade d c' x where
  tables := htables
  recorded := hrecorded
  held p := by
    rw [held, hentries, List.filter_filter]
    cases hsame : q.same p with
    | false =>
      rw [remake_other hx hsame, Remake.run, held]
      refine List.filter_congr fun a _ => ?_
      cases ha : a.part.same p with
      | false => rfl
      | true =>
        have hnot : a.part.same q = false := by
          rw [← Bool.not_eq_true]
          intro hq
          have hback : q.same p = true := by
            rw [Part.same, ← of_decide_eq_true hq]
            exact ha
          cases hsame.symm.trans hback
        rw [hnot]
        rfl
    | true =>
      rw [remake_same hx hsame, hclears, Remake.run]
      refine List.filter_eq_nil_iff.mpr fun a _ => ?_
      rw [same_trans hsame]
      simp

/-- There is room for the index or the constraint: its table and columns are there, and no table has
the name of the index where names are shared. -/
def Room (d : Dialect) (c : Catalog) : Change → Prop
  | .createIndex i => c.hasTable i.table = true ∧
    (∀ n ∈ i.columns, c.has (.column i.table n) = true) ∧
    (d.sharesIndexNames = true → c.hasTable (i.storedName d) = false)
  | .addConstraint k =>
    c.hasTable k.table = true ∧ ∀ n ∈ k.columns, c.has (.column k.table n) = true
  | _ => True

instance (d : Dialect) (c : Catalog) : (x : Change) → Decidable (c.Room d x)
  | .createIndex _ | .addConstraint _ => inferInstanceAs (Decidable (_ ∧ _))
  | .createTable _ | .dropTable _ | .dropIndex _ _ | .addColumns _ _ | .dropColumns _ _
  | .alterColumnType _ _ | .dropConstraint _ _ _ => inferInstanceAs (Decidable True)

theorem unknownColumn?_of_has {columns : List String}
    (hknown : ∀ n ∈ columns, c.has (.column table n) = true) :
    unknownColumn? (c.columnsOf table) columns = none :=
  unknownColumn?_eq_none.mpr fun n hn => has_column.mp (hknown n hn)

theorem carryOut_createIndex_ok {i : Index} (hhas : c.hasTable i.table = true)
    (hknown : ∀ n ∈ i.columns, c.has (.column i.table n) = true)
    (hfree : ∀ j ∈ c.indexes, sameName j.name i.name = false)
    (hname : d.sharesIndexNames = true → c.hasTable i.name = false) :
    c.carryOut d (.createIndex i) = .ok { c with indexes := c.indexes ++ [i] } := by
  obtain ⟨t, ht⟩ := table?_of_hasTable hhas
  have hunknown := unknownColumn?_of_has hknown
  rw [columnsOf_table? ht] at hunknown
  have hindexes : c.indexesNamed d i.table i.name = [] :=
    List.filter_eq_nil_iff.mpr fun j hj => by simp [hfree j hj]
  have hother : ¬ (d.sharesIndexNames && c.hasTable i.name) = true := by
    rw [Bool.and_eq_true]
    rintro ⟨hd, hthere⟩
    rw [hname hd] at hthere
    cases hthere
  simp only [carryOut, ht, if_neg hother, hindexes]
  rw [if_neg (fun hne => hne rfl), hunknown]

/-- An index is created if there is none of the name, and room for it. -/
theorem createIndex_remade {i : Index} (hcheck : i.check d = .ok ())
    (hhas : c.hasTable i.table = true) (hon : ∀ j ∈ c.indexes, sameName j.table i.table = true)
    (hroom : c.held (.index i.table (i.storedName d)) = [] → c.Room d (.createIndex i)) :
    ∃ l c', c.due d (.createIndex i) = .ok l ∧ c.carryOutAll d l = .ok c' ∧
      c.Remade d c' (.createIndex i) := by
  by_cases hheld : c.held (.index i.table (i.storedName d)) = []
  · obtain ⟨-, hknown, hname⟩ := hroom hheld
    have hnone := held_index_eq_nil.mp hheld
    have hnamed : ∀ j ∈ c.indexes, sameName j.name (i.storedName d) = false := by
      intro j hj
      rw [← Bool.not_eq_true]
      intro hsame
      have hthere := has_index.mpr ⟨j, hj, hon j hj, hsame⟩
      rw [hnone] at hthere
      cases hthere
    have hfree : c.indexNameTaken d i = .ok () := by
      have howners : c.indexOwners (i.storedName d) = [] := by
        rw [indexOwners, List.filter_eq_nil_iff.mpr (by simpa using hnamed)]
        rfl
      rw [indexNameTaken, howners]
      split <;> rfl
    have hcarried : c.carryOut d (.createIndex { i with name := i.storedName d }) =
        .ok { c with indexes := c.indexes ++ [{ i with name := i.storedName d }] } :=
      carryOut_createIndex_ok hhas hknown hnamed hname
    refine ⟨_, _, due_createIndex.mpr ⟨hcheck, hhas, .inr ⟨hnone, hfree, rfl⟩⟩,
      carryOutAll_singleton.trans hcarried, ?_⟩
    refine remade_made (a := .index { i with name := i.storedName d }) rfl rfl hheld rfl rfl
      (u := c.indexes.map .index) rfl ?_
    simp [entries]
  · have hthere : c.has (.index i.table (i.storedName d)) = true := by
      simpa using mt held_index_eq_nil.mpr hheld
    refine ⟨[], c, due_createIndex.mpr ⟨hcheck, hhas, .inl ⟨hthere, rfl⟩⟩, rfl, ?_⟩
    exact remade_none rfl rfl hheld

theorem carryOut_addConstraint_ok {k : Constraint} (hunique : k.kind = .unique)
    (hhas : c.hasTable k.table = true)
    (hknown : ∀ n ∈ k.columns, c.has (.column k.table n) = true)
    (hfree : c.has (.constraint k.table k.name) = false) :
    c.carryOut d (.addConstraint k) = .ok { c with constraints := c.constraints ++ [k] } := by
  obtain ⟨t, ht⟩ := table?_of_hasTable hhas
  have hunknown := unknownColumn?_of_has hknown
  rw [columnsOf_table? ht] at hunknown
  have hother : ¬ (c.constraints.any fun old => sameName old.table k.table &&
      (sameName old.name k.name ||
        (decide (old.kind = .primaryKey) && decide (k.kind = .primaryKey)))) = true := by
    rw [List.any_eq_true]
    rintro ⟨old, hold, hsame⟩
    have hprimary : decide (k.kind = .primaryKey) = false := by rw [hunique]; rfl
    rw [hprimary, Bool.and_false, Bool.or_false, Bool.and_eq_true] at hsame
    rw [has_constraint.mpr ⟨old, hold, hsame⟩] at hfree
    cases hfree
  simp only [carryOut, ht, if_neg hother, stored_unique hunique]
  rw [hunknown]

/-- A unique constraint is added if there is none of the name, and room for it. -/
theorem addConstraint_remade {k : Constraint} (hunique : k.kind = .unique)
    (hcheck : k.check d = .ok ()) (hsupported : d.altersConstraints = true)
    (hhas : c.hasTable k.table = true)
    (hroom : c.held (.constraint k.table (k.storedName d)) = [] → c.Room d (.addConstraint k)) :
    ∃ l c', c.due d (.addConstraint k) = .ok l ∧ c.carryOutAll d l = .ok c' ∧
      c.Remade d c' (.addConstraint k) := by
  have hnamed : (Change.addConstraint k).named d = some (.constraint k.table (k.storedName d)) :=
    if_pos hunique
  have hlooked : c.hasConstraint k.table (k.storedName d) k.kind =
      c.has (.constraint k.table (k.storedName d)) := by rw [hunique]; rfl
  by_cases hheld : c.held (.constraint k.table (k.storedName d)) = []
  · have hnone := held_constraint_eq_nil.mp hheld
    have hcarried : c.carryOut d (.addConstraint { k with name := k.storedName d }) =
        .ok { c with constraints := c.constraints ++ [{ k with name := k.storedName d }] } :=
      carryOut_addConstraint_ok hunique hhas (hroom hheld).2 hnone
    refine ⟨_, _, due_addConstraint.mpr ⟨hcheck, hsupported, hhas,
      .inr ⟨hlooked.trans hnone, rfl⟩⟩, carryOutAll_singleton.trans hcarried, ?_⟩
    refine remade_made (a := .constraint { k with name := k.storedName d }) hnamed rfl hheld rfl rfl
      (u := c.entries) (v := []) (List.append_nil _).symm ?_
    simp [entries]
  · have hthere : c.has (.constraint k.table (k.storedName d)) = true := by
      simpa using mt held_constraint_eq_nil.mpr hheld
    refine ⟨[], c, due_addConstraint.mpr ⟨hcheck, hsupported, hhas,
      .inl ⟨hlooked.trans hthere, rfl⟩⟩, rfl, ?_⟩
    exact remade_none hnamed rfl hheld

theorem DropsDue.left (h : c.DropsDue d x l c')
    (hnone : ¬ c.HoldsAsked d x → c.without d x = c) : c' = c.without d x := by
  by_cases hasked : c.HoldsAsked d x
  · exact h.rest hasked
  · obtain rfl := h.idle.mpr hasked
    cases h.inTurn
    exact (hnone hasked).symm

/-- An index is dropped if there is one of the name. -/
theorem dropIndex_remade {t n : String} (hcheck : (Change.dropIndex t n).check d = .ok ())
    (hapart : c.IndexNamesApart d) :
    ∃ l c', c.due d (.dropIndex t n) = .ok l ∧ c.carryOutAll d l = .ok c' ∧
      c.Remade d c' (.dropIndex t n) := by
  obtain ⟨l, c', hdrops⟩ := dropsDue_dropIndex hapart hcheck
  refine ⟨l, c', hdrops.due, hdrops.inTurn.carryOutAll, ?_⟩
  have hleft : c' = c.without d (.dropIndex t n) := hdrops.left fun hnone => by
    have hall : c.indexes.filter (fun i =>
        !(sameName i.table t && sameName i.name (d.fit n))) = c.indexes := by
      refine List.filter_eq_self.mpr fun i hi => ?_
      rw [Bool.not_eq_true', ← Bool.not_eq_true, Bool.and_eq_true]
      exact fun hsame => hnone ⟨i, hi, hsame⟩
    rw [without, hall]
  subst hleft
  refine remade_cleared rfl rfl rfl rfl ?_
  simp [entries, without, List.filter_map, Function.comp_def, Holding.part, same_index,
    same_constraint_index]

/-- A unique constraint is dropped if there is one of the name, unless a primary key has it. -/
theorem dropConstraint_remade {t n : String}
    (hcheck : (Change.dropConstraint t n .unique).check d = .ok ())
    (hsupported : d.altersConstraints = true)
    (hplain : ∀ k ∈ c.constraints, k.kind = .primaryKey →
      (Holding.constraint k).part.same (.constraint t (d.fit n)) = false) :
    ∃ l c', c.due d (.dropConstraint t n .unique) = .ok l ∧ c.carryOutAll d l = .ok c' ∧
      c.Remade d c' (.dropConstraint t n .unique) := by
  have hkind : ∀ k ∈ c.constraints, sameName k.table t = true →
      sameName k.name (d.fit n) = true → k.kind = .unique := by
    intro k hk htable hname
    cases hkind : k.kind with
    | unique => rfl
    | primaryKey =>
      have hother := hplain k hk hkind
      rw [Holding.part, same_constraint, htable, hname] at hother
      cases hother
  have hclear : c.Unmistakable d (.dropConstraint t n .unique) := fun _ k hk htable =>
    ⟨hkind k hk htable, fun _ hprimary => nomatch hprimary⟩
  obtain ⟨l, c', hdrops⟩ := dropsDue_dropConstraint hclear hsupported hcheck
  refine ⟨l, c', hdrops.due, hdrops.inTurn.carryOutAll, ?_⟩
  have hasked : ∀ k ∈ c.constraints, k.IsAskedFor d t (d.fit n) .unique ↔
      (sameName k.table t && sameName k.name (d.fit n)) = true := by
    intro k hk
    rw [Bool.and_eq_true]
    constructor
    · rintro ⟨htable, -, ⟨-, hprimary⟩ | hname⟩
      · cases hprimary
      · exact ⟨htable, hname⟩
    · rintro ⟨htable, hname⟩
      exact ⟨htable, hkind k hk htable hname, .inr hname⟩
  have hfilter : c.without d (.dropConstraint t n .unique) = { c with
      constraints := c.constraints.filter fun k =>
        !(sameName k.table t && sameName k.name (d.fit n)) } := by
    rw [without, mk.injEq]
    refine ⟨rfl, rfl, List.filter_congr fun k hk => ?_, rfl⟩
    exact congrArg (! ·) (Bool.eq_iff_iff.mpr (decide_eq_true_iff.trans (hasked k hk)))
  have hleft := hdrops.left fun hnone => by
    have hall : c.constraints.filter (fun k =>
        !(sameName k.table t && sameName k.name (d.fit n))) = c.constraints := by
      refine List.filter_eq_self.mpr fun k hk => ?_
      rw [Bool.not_eq_true', ← Bool.not_eq_true]
      exact fun hsame => hnone ⟨k, hk, (hasked k hk).mpr hsame⟩
    rw [hfilter, hall]
  rw [hfilter] at hleft
  subst hleft
  refine remade_cleared rfl rfl rfl rfl ?_
  simp [entries, List.filter_map, Function.comp_def, Holding.part, same_constraint,
    same_index_constraint]

end Catalog
end SchemaMigration
