import SchemaMigration.Proofs.Settled

/-!
# What additions take for their own

A request to add an index or a constraint looks for one that is there already.  It goes by the name
that the new one would be stored under, or for a primary key by the kind alone; what it finds it
takes for its own (`Catalog.recognised`), whatever columns that is over.  So a request that was
carried out leaves one such object, of the shape that it describes, and a request that was skipped
leaves those that were there (`Change.ensure_recognises`).

An object of another shape under the same name is therefore no conflict (`Change.shape_unseen`).  A
conflict is a table that is missing, or an index of the name on another table where tables share
the names of indexes.
-/
namespace SchemaMigration

/-- What an index or a constraint is, apart from its table and its name. -/
inductive Shape
  | index (columns : List String) (unique : Bool)
  | constraint (kind : ConstraintKind) (columns : List String)
  deriving DecidableEq

namespace Index

def shape (i : Index) : Shape :=
  .index i.columns i.unique

/-- Whether the index `j` goes by the table and the name that `i` would be stored under. -/
def takesFor (d : Dialect) (i j : Index) : Bool :=
  Catalog.sameName j.table i.table && Catalog.sameName j.name (i.storedName d)

theorem takesFor_stored (d : Dialect) (i : Index) :
    i.takesFor d { i with name := i.storedName d } = true := by
  simp [takesFor, Catalog.sameName_refl]

end Index

namespace Constraint

def shape (k : Constraint) : Shape :=
  .constraint k.kind k.columns

/-- Whether the constraint `j` is of the table and the kind of `k`, and goes by the name that `k`
would be stored under.  Primary keys go without names. -/
def takesFor (d : Dialect) (k j : Constraint) : Bool :=
  Catalog.sameName j.table k.table && decide (j.kind = k.kind) &&
    (decide (k.kind = .primaryKey) || Catalog.sameName j.name (k.storedName d))

theorem takesFor_stored (d : Dialect) (k : Constraint) :
    k.takesFor d (Catalog.stored d { k with name := k.storedName d }) = true := by
  cases hk : k.kind with
  | primaryKey => simp [takesFor, Catalog.sameName_refl, hk]
  | unique =>
    rw [Catalog.stored_unique rfl]
    simp [takesFor, Catalog.sameName_refl, hk]

theorem shape_stored (d : Dialect) (k : Constraint) (name : String) :
    (Catalog.stored d { k with name := name }).shape = k.shape := by
  unfold Catalog.stored
  split <;> rfl

end Constraint

/-- The shape that a request to add an index or a constraint describes. -/
def Change.shape? : Change → Option Shape
  | .createIndex i => some i.shape
  | .addConstraint k => some k.shape
  | _ => none

namespace Catalog

/-- The shapes of what a request to add an index or a constraint takes for its own. -/
def recognised (d : Dialect) (c : Catalog) : Change → List Shape
  | .createIndex i => (c.indexes.filter (i.takesFor d)).map (·.shape)
  | .addConstraint k => (c.constraints.filter (k.takesFor d)).map (·.shape)
  | _ => []

/-- Tables share the names of indexes, and one of them has an index of the name. -/
def Taken (d : Dialect) (c : Catalog) : Change → Prop
  | .createIndex i => d.sharesIndexNames = true ∧
    ∃ j ∈ c.indexes, sameName j.name (i.storedName d) = true
  | _ => False

/-- The constraints of the table that have the name of a new unique constraint are of that kind. -/
def OfOneKind (d : Dialect) (c : Catalog) : Change → Prop
  | .addConstraint k => k.kind = .unique → ∀ j ∈ c.constraints,
    sameName j.table k.table = true → sameName j.name (k.storedName d) = true → j.kind = .unique
  | _ => True

theorem Taken.ofOneKind {d : Dialect} {c : Catalog} {x : Change} (h : c.Taken d x) :
    c.OfOneKind d x := by
  cases x with
  | addConstraint k => exact h.elim
  | _ => trivial

/-- Whether a request to add an index or a constraint finds one that is there. -/
def finds (d : Dialect) (c : Catalog) : Change → Bool
  | .createIndex i => c.has (.index i.table (i.storedName d))
  | .addConstraint k => c.hasConstraint k.table (k.storedName d) k.kind
  | _ => false

variable {d : Dialect} {c c' : Catalog} {x : Change} {shape : Shape}

/-! ## What is found is recognised -/

theorem recognised_ne_nil {α : Type} {l : List α} {p : α → Bool} {f : α → Shape} :
    (l.filter p).map f ≠ [] ↔ ∃ a ∈ l, p a = true := by
  rw [ne_eq, List.map_eq_nil_iff, List.filter_eq_nil_iff]
  push Not
  rfl

/-- A request finds what it recognises. -/
theorem finds_of_recognised (h : c.recognised d x ≠ []) : c.finds d x = true := by
  cases x with
  | createIndex i =>
    obtain ⟨j, hj, hsame⟩ := recognised_ne_nil.mp h
    exact has_index.mpr ⟨j, hj, Bool.and_eq_true_iff.mp hsame⟩
  | addConstraint k =>
    obtain ⟨j, hj, hsame⟩ := recognised_ne_nil.mp h
    simp only [Constraint.takesFor, Bool.and_eq_true, Bool.or_eq_true, decide_eq_true_eq] at hsame
    obtain ⟨⟨htable, hkind⟩, hname⟩ := hsame
    show c.hasConstraint k.table (k.storedName d) k.kind = true
    cases hk : k.kind with
    | primaryKey =>
      refine List.any_eq_true.mpr ⟨j, hj, ?_⟩
      rw [htable, hkind, hk]
      rfl
    | unique =>
      refine has_constraint.mpr ⟨j, hj, htable, hname.resolve_left ?_⟩
      rw [hk]
      exact ConstraintKind.noConfusion
  | _ => exact (h rfl).elim

/-- A request recognises what it finds, unless it takes a constraint of another kind for its own. -/
theorem recognised_of_finds (hkind : c.OfOneKind d x) (h : c.finds d x = true) :
    c.recognised d x ≠ [] := by
  cases x with
  | createIndex i =>
    obtain ⟨j, hj, hsame⟩ := has_index.mp h
    exact recognised_ne_nil.mpr ⟨j, hj, Bool.and_eq_true_iff.mpr hsame⟩
  | addConstraint k =>
    change c.hasConstraint k.table (k.storedName d) k.kind = true at h
    cases hk : k.kind with
    | primaryKey =>
      rw [hk] at h
      obtain ⟨j, hj, hkey⟩ := List.any_eq_true.mp h
      refine recognised_ne_nil.mpr ⟨j, hj, ?_⟩
      simpa [Constraint.takesFor, hk] using hkey
    | unique =>
      rw [hk] at h
      obtain ⟨j, hj, htable, hname⟩ := has_constraint.mp h
      have hunique := hkind hk j hj htable hname
      refine recognised_ne_nil.mpr ⟨j, hj, ?_⟩
      simp [Constraint.takesFor, htable, hname, hunique, hk]
  | _ => cases h

/-- One more object is the only one of its kind if there was none. -/
theorem filter_snoc {α : Type} {l : List α} {p : α → Bool} {a : α} (hnone : l.filter p = [])
    (ha : p a = true) : (l ++ [a]).filter p = [a] := by
  rw [List.filter_append, hnone, List.filter_cons_of_pos ha, List.filter_nil, List.nil_append]

/-- **What was added is all that the request recognises**, and it has the shape. -/
theorem recognised_of_added (hshape : x.shape? = some shape) (hnew : c.recognised d x = [])
    (hcarried : c.carryOutAll d (x.statements d) = .ok c') : c'.recognised d x = [shape] := by
  cases x with
  | createIndex i =>
    obtain ⟨-, rfl⟩ := carryOut_createIndex (carryOutAll_one hcarried)
    cases hshape
    have hnone := filter_snoc (List.map_eq_nil_iff.mp hnew) (i.takesFor_stored d)
    exact congrArg (List.map (·.shape)) hnone
  | addConstraint k =>
    obtain ⟨-, rfl⟩ := carryOut_addConstraint (carryOutAll_one hcarried)
    cases hshape
    have hnone := filter_snoc (List.map_eq_nil_iff.mp hnew) (k.takesFor_stored d)
    refine (congrArg (List.map (·.shape)) hnone).trans ?_
    rw [List.map_singleton, Constraint.shape_stored]
  | _ => cases hshape

/-! ## What looking comes to -/

/-- What a request to add an index or a constraint comes to on a catalog. -/
inductive Prospect (d : Dialect) (c : Catalog) (x : Change) :
    Except MigrationError (List Statement) → Prop
  | unsupported (hno : x.supported d = false) : Prospect d c x (.error (.unsupported x.operation d))
  | tableMissing (hsupported : x.supported d = true) (hno : c.hasTable x.table = false) :
    Prospect d c x (.error (.conflict (.tableMissing x.table)))
  | found (hsupported : x.supported d = true) (hhas : c.hasTable x.table = true)
      (hfound : c.finds d x = true) : Prospect d c x (.ok [])
  | taken (hsupported : x.supported d = true) (hhas : c.hasTable x.table = true)
      (hnew : c.finds d x = false) (htaken : c.Taken d x) {cause : Conflict} :
    Prospect d c x (.error (.conflict cause))
  | added (hsupported : x.supported d = true) (hhas : c.hasTable x.table = true)
      (hnew : c.finds d x = false) (hfree : ¬ c.Taken d x) : Prospect d c x (.ok (x.statements d))

/-- The name of a new index is refused if it is taken, and only then. -/
theorem indexNameTaken_cases (d : Dialect) (c : Catalog) (i : Index) :
    (c.indexNameTaken d i = .ok () ∧ ¬ c.Taken d (.createIndex i)) ∨
      (∃ cause, c.indexNameTaken d i = .error (.conflict cause)) ∧ c.Taken d (.createIndex i) := by
  by_cases hshares : d.sharesIndexNames = true
  swap
  · exact .inl ⟨if_neg hshares, fun htaken => hshares htaken.1⟩
  rw [indexNameTaken, if_pos hshares]
  cases howners : c.indexOwners (i.storedName d) with
  | nil =>
    refine .inl ⟨rfl, ?_⟩
    rintro ⟨-, j, hj, hname⟩
    have hmem : j.table.map Char.toLower ∈ c.indexOwners (i.storedName d) :=
      List.mem_eraseDups.mpr (List.mem_map_of_mem (List.mem_filter.mpr ⟨hj, hname⟩))
    rw [howners] at hmem
    cases hmem
  | cons owner rest =>
    refine .inr ⟨⟨_, rfl⟩, hshares, ?_⟩
    have hmem : owner ∈ c.indexOwners (i.storedName d) := howners ▸ List.mem_cons_self
    obtain ⟨j, hj, -⟩ := List.mem_map.mp (List.mem_eraseDups.mp hmem)
    exact ⟨j, List.mem_filter.mp hj⟩

theorem prospect (hshape : x.shape? = some shape) (hcheck : x.check d = .ok ()) :
    Prospect d c x (c.due d x) := by
  have hbuild : x.supported d = true → x.build d = .ok (x.statements d) :=
    fun hsupported => Change.build_eq_ok.mpr ⟨hcheck, hsupported, rfl⟩
  cases x with
  | createIndex i =>
    have hsound : i.check d = .ok () := hcheck
    rw [due, hsound]
    show Prospect d c _ (c.tableNeeded i.table >>= _)
    cases hhas : c.hasTable i.table with
    | false =>
      rw [tableNeeded, hhas]
      exact .tableMissing rfl hhas
    | true =>
      rw [tableNeeded_eq_ok.mpr hhas]
      cases hfound : c.has (.index i.table (i.storedName d)) with
      | true =>
        exact .found rfl hhas hfound
      | false =>
        show Prospect d c _ (c.indexNameTaken d i >>= fun _ => (Change.createIndex i).build d)
        rcases c.indexNameTaken_cases d i with ⟨hok, hfree⟩ | ⟨⟨cause, hconflict⟩, htaken⟩
        · rw [hok, hbuild rfl]
          exact .added rfl hhas hfound hfree
        · rw [hconflict]
          exact .taken (x := .createIndex i) rfl hhas hfound htaken
  | addConstraint k =>
    have hsound : k.check d = .ok () := hcheck
    rw [due, hsound]
    show Prospect d c _ (supportNeeded d (.addConstraint k) >>= _)
    cases hsupported : (Change.addConstraint k).supported d with
    | false =>
      rw [supportNeeded, hsupported]
      exact .unsupported hsupported
    | true =>
      rw [supportNeeded_eq_ok.mpr hsupported]
      show Prospect d c _ (c.tableNeeded k.table >>= _)
      cases hhas : c.hasTable k.table with
      | false =>
        rw [tableNeeded, hhas]
        exact .tableMissing hsupported hhas
      | true =>
        rw [tableNeeded_eq_ok.mpr hhas]
        cases hfound : c.hasConstraint k.table (k.storedName d) k.kind with
        | true => exact .found hsupported hhas hfound
        | false =>
          show Prospect d c _ ((Change.addConstraint k).build d)
          rw [hbuild hsupported]
          exact .added hsupported hhas hfound id
  | _ => cases hshape

/-- What came of a request to add an index or a constraint of a shape to the catalog `c`, once it
ended with `r`: it sent the statements of `l` and left `c'`. -/
structure Recognises (d : Dialect) (x : Change) (shape : Shape) (c : Catalog) (l : List Statement)
    (r : Except MigrationError Bool) (c' : Catalog) : Prop where
  /-- If it was carried out, there was nothing of the name before, and now there is one such object
  and it has the shape. -/
  made : r = .ok true → c.recognised d x = [] ∧ c'.recognised d x = [shape]
  /-- If there was something of the name, the request is done with, whatever shape that has. -/
  known : x.supported d = true → c.hasTable x.table = true → c.recognised d x ≠ [] → r = .ok false
  /-- If it was done with, nothing was sent and nothing changed. -/
  idle : r = .ok false → l = [] ∧ c' = c
  /-- Either way there is something of the name in the end. -/
  held : c.OfOneKind d x → ∀ b, r = .ok b → c'.recognised d x ≠ []
  /-- It is in conflict with a table that is missing, or with an index of another table. -/
  conflict : (∃ cause, r = .error (.conflict cause)) ↔ x.supported d = true ∧
    (c.hasTable x.table = false ∨ c.recognised d x = [] ∧ c.Taken d x)
  /-- A conflict is found before anything is sent. -/
  refused : ∀ cause, r = .error (.conflict cause) → l = [] ∧ c' = c

section Recognises

variable {l : List Statement} {r : Except MigrationError Bool}

theorem recognised_of_not_finds (h : c.finds d x = false) : c.recognised d x = [] := by
  by_contra hne
  cases h.symm.trans (finds_of_recognised hne)

/-- A request that is refused for what the catalog holds. -/
theorem Recognises.refusal {e : MigrationError}
    (hknown : x.supported d = true → c.hasTable x.table = true → c.recognised d x = [])
    (hconflict : (∃ cause, e = .conflict cause) ↔ x.supported d = true ∧
      (c.hasTable x.table = false ∨ c.recognised d x = [] ∧ c.Taken d x)) :
    Recognises d x shape c [] (.error e) c where
  made h := nomatch h
  known hsupported hhas hne := (hne (hknown hsupported hhas)).elim
  idle h := nomatch h
  held _ _ h := nomatch h
  conflict := by simpa using hconflict
  refused _ _ := ⟨rfl, rfl⟩

/-- A request that is done with, since what it asks for is found. -/
theorem Recognises.skip (hhas : c.hasTable x.table = true) (hfound : c.finds d x = true)
    (hknown : c.recognised d x = [] → ¬ c.Taken d x) :
    Recognises d x shape c [] (.ok false) c where
  made h := nomatch h
  known _ _ _ := rfl
  idle _ := ⟨rfl, rfl⟩
  held hkind _ _ := recognised_of_finds hkind hfound
  conflict := by
    refine iff_of_false (fun h => nomatch h) ?_
    rintro ⟨-, hno | ⟨hnone, htaken⟩⟩
    · cases hhas.symm.trans hno
    · exact hknown hnone htaken
  refused _ h := nomatch h

/-- A request for which a statement was sent, whether it was carried out or the database refused
it. -/
theorem Recognises.attempt (hshape : x.shape? = some shape) (hhas : c.hasTable x.table = true)
    (hnew : c.finds d x = false) (hfree : ¬ c.Taken d x)
    (hok : ∀ b, r = .ok b → b = true ∧ c.carryOutAll d (x.statements d) = .ok c')
    (hquiet : ∀ cause, r ≠ .error (.conflict cause)) : Recognises d x shape c l r c' := by
  have hnone := recognised_of_not_finds hnew
  have hadded : ∀ b, r = .ok b → c'.recognised d x = [shape] :=
    fun b h => recognised_of_added hshape hnone (hok b h).2
  constructor
  · exact fun h => ⟨hnone, hadded true h⟩
  · exact fun _ _ hne => (hne hnone).elim
  · intro h
    cases (hok false h).1
  · intro _ b h
    rw [hadded b h]
    exact List.cons_ne_nil _ _
  · refine iff_of_false (fun ⟨cause, h⟩ => hquiet cause h) ?_
    rintro ⟨-, hno | ⟨-, htaken⟩⟩
    · cases hhas.symm.trans hno
    · exact hfree htaken
  · exact fun cause h => (hquiet cause h).elim

end Recognises

end Catalog

namespace Change
open Catalog

variable {d : Dialect} {x : Change} {shape : Shape}

/-- **What is there is recognised by its name, and what is made has the shape.**  Every request to
add an index or a constraint that passes its checks behaves so on a database with a catalog. -/
theorem ensure_recognises (hshape : x.shape? = some shape) (hcheck : x.check d = .ok ())
    (span : Option Span) (w : World Catalog) :
    Recognises d x shape w.server
      (statementsIn ((Catalog.server d).exchanges w
        (World.leftBy ((x.ensure d).run (Catalog.server d) span w))))
      (World.outcome ((x.ensure d).run (Catalog.server d) span w))
      (World.leftBy ((x.ensure d).run (Catalog.server d) span w)).server := by
  have hprospect := prospect (c := w.server) hshape hcheck
  generalize hdue : w.server.due d x = due at hprospect
  cases hprospect with
  | unsupported hno =>
    obtain ⟨hr, hc, hl⟩ := run_of_error hdue span
    rw [hr, hc, hl]
    apply Recognises.refusal
    · intro hsupported
      cases hno.symm.trans hsupported
    · simp [hno]
  | tableMissing hsupported hno =>
    obtain ⟨hr, hc, hl⟩ := run_of_error hdue span
    rw [hr, hc, hl]
    apply Recognises.refusal
    · intro _ hhas
      cases hno.symm.trans hhas
    · simp [hsupported, hno]
  | found hsupported hhas hfound =>
    obtain ⟨hr, hc, hl⟩ := run_of_due hdue rfl span
    rw [hr, hc, hl]
    apply Recognises.skip hhas hfound
    intro hnone htaken
    exact recognised_of_finds htaken.ofOneKind hfound hnone
  | taken hsupported hhas hnew htaken =>
    obtain ⟨hr, hc, hl⟩ := run_of_error hdue span
    rw [hr, hc, hl]
    have hnone := recognised_of_not_finds hnew
    apply Recognises.refusal
    · exact fun _ _ => hnone
    · simp [hsupported, hnone, htaken]
  | added hsupported hhas hnew hfree =>
    apply Recognises.attempt hshape hhas hnew hfree
    · intro b hb
      obtain ⟨l, hl, hchanged, -, hcarried⟩ := run_due hb
      cases hdue.symm.trans hl
      have hne : x.statements d ≠ [] := build_ne_nil (build_eq_ok.mpr ⟨hcheck, hsupported, rfl⟩)
      rw [List.isEmpty_eq_false_iff.mpr hne] at hchanged
      exact ⟨hchanged, hcarried⟩
    · intro cause hcause
      cases hdue.symm.trans (due_of_conflict hcause)

/-- Names of indexes that differ in their last character, which PostgreSQL cuts off. -/
def longName (last : Char) : String :=
  String.ofList (List.replicate 63 'n' ++ [last])

/-- A table with its primary key and two indexes on the key. -/
def indexedUsers : World Catalog where
  server := {
    tables := [⟨"users", [{ name := "id", type := .bigInteger },
      { name := "email", type := .varchar 100 }]⟩]
    indexes := [{ table := "users", name := "users_email", columns := ["id"] },
      { table := "users", name := Dialect.postgres.fit (longName 'a'), columns := ["id"] }]
    constraints := [⟨"users", "pk_users", .primaryKey, ["id"]⟩] }

/-- The request for a unique index of that table on the other column. -/
def emailIndex (name : String) : Change :=
  .createIndex { table := "users", name := name, columns := ["email"], unique := true }

/-- The request for a primary key of that table on the other column. -/
def emailKey : Change :=
  .addConstraint ⟨"users", "pk_email", .primaryKey, ["email"]⟩

theorem emailIndex_made :
    (emailIndex "email_unique").shape? = some (.index ["email"] true) ∧
      (emailIndex "email_unique").check .postgres = .ok () ∧
      World.outcome (((emailIndex "email_unique").ensure .postgres).run (Catalog.server .postgres)
        none indexedUsers) = .ok true ∧
      (World.leftBy (((emailIndex "email_unique").ensure .postgres).run (Catalog.server .postgres)
        none indexedUsers)).server.recognised .postgres (emailIndex "email_unique") =
          [.index ["email"] true] := by
  have hcheck : (emailIndex "email_unique").check .postgres = .ok () := by decide +kernel
  have hdone : World.outcome (((emailIndex "email_unique").ensure .postgres).run
      (Catalog.server .postgres) none indexedUsers) = .ok true := by decide +kernel
  exact ⟨rfl, hcheck, hdone, ((ensure_recognises rfl hcheck none indexedUsers).made hdone).2⟩

/-- A long name is found under what is left of one that begins alike. -/
theorem longName_takesFor (i : Index) (hi : i.name = longName 'b') (j : Index)
    (hj : j.name = Dialect.postgres.fit (longName 'a')) (htable : sameName j.table i.table = true) :
    i.takesFor .postgres j = true := by
  have hcut : i.storedName .postgres = j.name := by
    rw [Index.storedName, hi, hj]
    decide +kernel
  rw [Index.takesFor, htable, hcut, sameName_refl]
  rfl

/-- **An object of another shape is taken for the one that is asked for.**  On PostgreSQL a request
for a unique index is done with because of an index that is neither unique nor on that column, under
the same name or under a long one that only begins alike; and a request for a primary key is done
with because of the primary key on another column. -/
theorem shape_unseen :
    ((emailIndex "users_email").check .postgres = .ok () ∧
        indexedUsers.server.recognised .postgres (emailIndex "users_email") =
          [.index ["id"] false] ∧
        World.outcome (((emailIndex "users_email").ensure .postgres).run
          (Catalog.server .postgres) none indexedUsers) = .ok false) ∧
      ((emailIndex (longName 'b')).check .postgres = .ok () ∧
        indexedUsers.server.recognised .postgres (emailIndex (longName 'b')) =
          [.index ["id"] false] ∧
        World.outcome (((emailIndex (longName 'b')).ensure .postgres).run
          (Catalog.server .postgres) none indexedUsers) = .ok false) ∧
      (emailKey.check .postgres = .ok () ∧
        indexedUsers.server.recognised .postgres emailKey = [.constraint .primaryKey ["id"]] ∧
        World.outcome ((emailKey.ensure .postgres).run (Catalog.server .postgres) none
          indexedUsers) = .ok false) := by
  refine ⟨by decide +kernel, ?_, by decide +kernel⟩
  have hcheck : (emailIndex (longName 'b')).check .postgres = .ok () := by decide +kernel
  have hknown : indexedUsers.server.recognised .postgres (emailIndex (longName 'b')) =
      [.index ["id"] false] := by
    simp only [recognised, emailIndex, indexedUsers]
    rw [List.filter_cons_of_neg (by decide +kernel),
      List.filter_cons_of_pos (longName_takesFor _ rfl _ rfl (by decide +kernel))]
    rfl
  have hdue : indexedUsers.server.due .postgres (emailIndex (longName 'b')) = .ok [] := by
    refine due_createIndex.mpr ⟨hcheck, by decide +kernel, .inl ⟨?_, rfl⟩⟩
    apply finds_of_recognised (x := emailIndex (longName 'b'))
    rw [hknown]
    exact List.cons_ne_nil _ _
  exact ⟨hcheck, hknown, (run_of_due hdue rfl none).1⟩

end Change
end SchemaMigration
