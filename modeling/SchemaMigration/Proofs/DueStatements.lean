import SchemaMigration.Proofs.CatalogHistory
import SchemaMigration.Proofs.Checks

/-!
# What a guarded change does to a catalog

A guarded change asks the catalog first and sends statements afterwards, if any.  What it decides on
is a function of the catalog: the statements that are due (`Catalog.due`), or an error.  On a
database that answers from a catalog, a guarded change asks questions and then carries on with what
is due (`Change.ensure_looks`), and nothing below looks into a guarded change again.

The database may be a troubled one: requests may fail for reasons that the catalog does not know,
and a statement that fails in this way may have taken effect (`Server.Fronts`).
-/
namespace SchemaMigration
open Program

/-- A question, which changes nothing in a database. -/
def Exchange.IsQuestion : Exchange → Prop
  | .count _ _ | .list _ _ => True
  | _ => False

/-- The server answers as a database with the content `view` does.  In case of trouble a request may
fail instead; whether it has taken effect is not known then. -/
structure Server.Fronts {σ : Type} (srv : Server σ) (d : Dialect) (view : σ → Catalog)
    (trouble : Prop) : Prop where
  answers : ∀ s x, srv.reply s x.entry = some x →
    ((Catalog.server d).reply (view s) x.entry = some x ∧
      view (srv.next s x) = (Catalog.server d).next (view s) x) ∨
    (trouble ∧ x.Failed ∧ (view (srv.next s x) = view s ∨
      view (srv.next s x) = (Catalog.server d).next (view s) x))

namespace Catalog

variable {d : Dialect} {c : Catalog}

/-- The model of a database answers as itself. -/
theorem fronts (d : Dialect) : (server d).Fronts d id False :=
  ⟨fun _ _ h => Or.inl ⟨h, rfl⟩⟩

/-! ## Answers of a catalog -/

/-- Whether the catalog holds the object. -/
def has (c : Catalog) (o : SchemaObject) : Bool :=
  decide (0 < c.countObject o)

/-- Whether the table has a primary key. -/
def hasKey (c : Catalog) (table : String) : Bool :=
  c.constraints.any fun k => sameName k.table table && decide (k.kind = .primaryKey)

/-- Whether the table has a constraint of the kind: any primary key, or the one of that name. -/
def hasConstraint (c : Catalog) (table name : String) : ConstraintKind → Bool
  | .primaryKey => c.hasKey table
  | .unique => c.has (.constraint table name)

/-- The columns of a table. -/
def columnsOf (c : Catalog) (table : String) : List Column :=
  ((c.table? table).map (·.columns)).getD []

/-- The names of the columns of a table, in lower case. -/
def columnNames (c : Catalog) (table : String) : List String :=
  (c.columnsOf table).map fun k => k.name.map Char.toLower

/-- The tables that have an index of the name, in lower case. -/
def indexOwners (c : Catalog) (name : String) : List String :=
  ((c.indexes.filter fun i => sameName i.name name).map
    fun i => i.table.map Char.toLower).eraseDups

theorem has_table (c : Catalog) (table : String) : c.has (.table table) = c.hasTable table := by
  rw [Bool.eq_iff_iff, hasTable_iff]
  exact decide_eq_true_iff

theorem hasKey_iff {table : String} : c.hasKey table = true ↔
    0 < number (fun k => sameName k.table table && decide (k.kind = .primaryKey))
      c.constraints := by
  simp only [hasKey, number, List.any_eq_true, Int.natCast_pos, List.countP_pos_iff]

theorem has_index {table name : String} : c.has (.index table name) = true ↔
    ∃ i ∈ c.indexes, sameName i.table table = true ∧ sameName i.name name = true := by
  simp [has, countObject, number, List.countP_pos_iff]

theorem has_constraint {table name : String} : c.has (.constraint table name) = true ↔
    ∃ k ∈ c.constraints, sameName k.table table = true ∧ sameName k.name name = true := by
  simp [has, countObject, number, List.countP_pos_iff]

theorem has_column {table name : String} : c.has (.column table name) = true ↔
    ∃ k ∈ c.columnsOf table, sameName k.name name = true := by
  cases h : c.table? table with
  | none => simp [has, countObject, columnsOf, h]
  | some t => simp [has, countObject, columnsOf, h, number, List.countP_pos_iff]

/-! ## The statements that are due -/

/-- The names of a list that no column of the table has. -/
def lacking (c : Catalog) (table : String) (names : List String) : List String :=
  names.filter fun k => !Guarded.hasName (c.columnNames table) k

/-- The columns of a list that the table does not have yet. -/
def missing (c : Catalog) (table : String) (columns : List Column) : List Column :=
  columns.filter fun k => !Guarded.hasName (c.columnNames table) k.name

/-- The columns of a list that the table has. -/
def present (c : Catalog) (table : String) (columns : List String) : List String :=
  columns.filter (Guarded.hasName (c.columnNames table))

/-- Why the name of a new index is taken, if it is. -/
def indexNameTaken (d : Dialect) (c : Catalog) (i : Index) : Except MigrationError Unit :=
  if d.sharesIndexNames then
    match c.indexOwners (i.storedName d) with
    | [] => .ok ()
    | owner :: _ => .error (.conflict (.indexNameTaken i.table (i.storedName d) owner))
  else .ok ()

/-- A change needs a dialect that supports it. -/
def supportNeeded (d : Dialect) (x : Change) : Except MigrationError Unit :=
  if x.supported d then .ok () else .error (.unsupported x.operation d)

/-- A change needs its table. -/
def tableNeeded (c : Catalog) (table : String) : Except MigrationError Unit :=
  if c.hasTable table then .ok () else .error (.conflict (.tableMissing table))

/-- The statements that a guarded change sends to a database with this content, or why it sends
none. -/
def due (d : Dialect) (c : Catalog) : Change → Except MigrationError (List Statement)
  | .createTable t => do
    (t.check d).mapError .malformed
    if c.hasTable t.name then
      match c.lacking t.name (t.columns.map (·.name)) with
      | [] => return []
      | missing => throw (.conflict (.columnsMissing t.name missing))
    else (Change.createTable t).build d
  | .dropTable table => if c.hasTable table then (Change.dropTable table).build d else .ok []
  | .createIndex i => do
    (i.check d).mapError .malformed
    c.tableNeeded i.table
    if c.has (.index i.table (i.storedName d)) then return []
    else do
      c.indexNameTaken d i
      (Change.createIndex i).build d
  | .dropIndex table name =>
    if c.has (.index table (d.fit name)) then (Change.dropIndex table (d.fit name)).build d
    else .ok []
  | .addColumns table columns => do
    let _ ← (Change.addColumns table columns).build d
    c.tableNeeded table
    match c.missing table columns with
    | [] => return []
    | missing => (Change.addColumns table missing).build d
  | .dropColumns table columns =>
    match c.present table columns with
    | [] => .ok []
    | present => (Change.dropColumns table present).build d
  | .alterColumnType table k => do
    let _ ← (Change.alterColumnType table k).build d
    if c.has (.column table k.name) then (Change.alterColumnType table k).build d
    else throw (.conflict (.columnMissing table k.name))
  | .addConstraint k => do
    (k.check d).mapError .malformed
    supportNeeded d (Change.addConstraint k)
    c.tableNeeded k.table
    if c.hasConstraint k.table (k.storedName d) k.kind then return []
    else (Change.addConstraint k).build d
  | .dropConstraint table name kind => do
    supportNeeded d (Change.dropConstraint table name kind)
    if c.hasConstraint table (d.fit name) kind then
      (Change.dropConstraint table (d.fit name) kind).build d
    else return []

/-- The effect of statements, one after the other. -/
def carryOutAll (d : Dialect) : Catalog → List Statement → Except Fault Catalog
  | c, [] => .ok c
  | c, st :: rest => do carryOutAll d (← c.carryOut d st) rest

end Catalog

/-! ## Looking before carrying on -/

/-- Sends the statements, and says whether there were any. -/
def Program.carry : Except MigrationError (List Statement) → Program Bool
  | .error e => fail e
  | .ok l => do
    sendAll l
    return !l.isEmpty

theorem Program.carry_bind {α : Type} (r : Except MigrationError α)
    (f : α → Except MigrationError (List Statement)) :
    Program.carry (r >>= f) = Program.ofExcept r >>= fun a => Program.carry (f a) := by
  cases r <;> rfl

theorem Guarded.carryOut_eq (d : Dialect) (c : Change) :
    Guarded.carryOut d c = Program.carry (c.build d) := by
  change (Program.ofExcept (c.build d) >>= sendAll) >>= (fun _ => pure true) = _
  cases h : c.build d with
  | error e => rfl
  | ok l =>
    have hne : (!l.isEmpty) = true := by
      rw [Bool.not_eq_true', List.isEmpty_eq_false_iff]
      exact Change.build_ne_nil h
    show _ = sendAll l >>= fun _ => pure (!l.isEmpty)
    rw [hne]
    rfl

namespace Catalog

variable {σ α : Type} (srv : Server σ) (view : σ → Catalog) (trouble : Prop)

/-- On a database with the content `c`, the program `p` asks questions and then carries on as `q`;
or it fails because of trouble. -/
def Looks (c : Catalog) (p q : Program α) : Prop :=
  ∀ s xs r, view s = c → p.Path xs r → srv.Gives s xs →
    (trouble ∧ (∃ e, r = .error e) ∧ view (srv.after s xs) = c ∧ ∀ x ∈ xs, x.IsQuestion) ∨
    ∃ qs ys, xs = qs ++ ys ∧ (∀ x ∈ qs, x.IsQuestion) ∧ view (srv.after s qs) = c ∧
      q.Path ys r ∧ srv.Gives (srv.after s qs) ys

variable {srv view trouble} {d : Dialect} {c : Catalog} {p q q' : Program α}

theorem Looks.refl (c : Catalog) (p : Program α) : Looks srv view trouble c p p :=
  fun _ xs _ hs hp hg => Or.inr ⟨[], xs, rfl, fun _ h => (List.not_mem_nil h).elim, hs, hp, hg⟩

theorem Looks.trans (h : Looks srv view trouble c p q) (h' : Looks srv view trouble c q q') :
    Looks srv view trouble c p q' := by
  intro s xs r hs hp hg
  rcases h s xs r hs hp hg with htrouble | ⟨qs, ys, rfl, hqs, hafter, hq, hg'⟩
  · exact Or.inl htrouble
  rcases h' _ ys r hafter hq hg' with ⟨ht, he, hend, hys⟩ | ⟨qs', zs, rfl, hqs', hend, hq', hg''⟩
  · refine Or.inl ⟨ht, he, ?_, fun x hx => (List.mem_append.mp hx).elim (hqs x) (hys x)⟩
    rw [Server.after_append]
    exact hend
  · refine Or.inr ⟨qs ++ qs', zs, (List.append_assoc ..).symm, ?_, ?_, hq', ?_⟩
    · exact fun x hx => (List.mem_append.mp hx).elim (hqs x) (hqs' x)
    · rw [Server.after_append]
      exact hend
    · rw [Server.after_append]
      exact hg''

/-- A question for a number is answered from the catalog. -/
theorem looks_ask (hf : srv.Fronts d view trouble) {k : CountQuery} {n : Int}
    (hn : c.count k = .ok n) (f : Int → Program α) :
    Looks srv view trouble c (ask k >>= f) (f n) := by
  intro s xs r hs hp hg
  change Path (.count k fun a => (Program.done (a.mapError .driver)).bind f) xs r at hp
  cases hp with
  | @count _ ys _ _ a hrest =>
    rcases hf.answers s (.count k a) hg.1 with ⟨hreply, hview⟩ | ⟨ht, hfail, hview⟩
    · have ha : ((c.count k).mapError refusal : Except DriverError Int) = a := by
        rw [← hs]
        exact (Exchange.count.inj (Option.some.inj hreply)).2
      rw [hn] at ha
      subst ha
      refine Or.inr ⟨[_], ys, rfl, ?_, hview.trans hs, hrest, hg.2⟩
      exact fun x hx => List.mem_singleton.mp hx ▸ trivial
    · cases a with
      | ok => exact hfail.elim
      | error e =>
        obtain ⟨rfl, rfl⟩ := Path.of_fail hrest
        refine Or.inl ⟨ht, ⟨_, rfl⟩, ?_, fun x hx => List.mem_singleton.mp hx ▸ trivial⟩
        exact (hview.elim id id).trans hs

/-- A question for texts is answered from the catalog. -/
theorem looks_askList (hf : srv.Fronts d view trouble) {k : ListQuery} {l : List String}
    (hl : c.list k = .ok l) (f : List String → Program α) :
    Looks srv view trouble c (askList k >>= f) (f l) := by
  intro s xs r hs hp hg
  change Path (.list k fun a => (Program.done (a.mapError .driver)).bind f) xs r at hp
  cases hp with
  | @list _ ys _ _ a hrest =>
    rcases hf.answers s (.list k a) hg.1 with ⟨hreply, hview⟩ | ⟨ht, hfail, hview⟩
    · have ha : ((c.list k).mapError refusal : Except DriverError (List String)) = a := by
        rw [← hs]
        exact (Exchange.list.inj (Option.some.inj hreply)).2
      rw [hl] at ha
      subst ha
      refine Or.inr ⟨[_], ys, rfl, ?_, hview.trans hs, hrest, hg.2⟩
      exact fun x hx => List.mem_singleton.mp hx ▸ trivial
    · cases a with
      | ok => exact hfail.elim
      | error e =>
        obtain ⟨rfl, rfl⟩ := Path.of_fail hrest
        refine Or.inl ⟨ht, ⟨_, rfl⟩, ?_, fun x hx => List.mem_singleton.mp hx ▸ trivial⟩
        exact (hview.elim id id).trans hs

theorem looks_holds (hf : srv.Fronts d view trouble) (o : SchemaObject)
    (f : Bool → Program α) : Looks srv view trouble c (holds o >>= f) (f (c.has o)) := by
  rw [show holds o >>= f = ask (.object o) >>= fun n => f (decide (0 < n)) from bind_assoc ..]
  exact looks_ask hf rfl _

theorem looks_holdsConstraint (hf : srv.Fronts d view trouble) (table name : String)
    (kind : ConstraintKind) (f : Bool → Program α) : Looks srv view trouble c
      (Guarded.holdsConstraint table name kind >>= f) (f (c.hasConstraint table name kind)) := by
  cases kind with
  | unique => exact looks_holds hf _ f
  | primaryKey =>
    have hkey : c.hasConstraint table name .primaryKey = decide (0 < number
        (fun k => sameName k.table table && decide (k.kind = .primaryKey)) c.constraints) := by
      rw [Bool.eq_iff_iff, decide_eq_true_iff]
      exact hasKey_iff
    rw [hkey, show Guarded.holdsConstraint table name .primaryKey >>= f =
      ask (.primaryKey table) >>= fun n => f (decide (0 < n)) from bind_assoc ..]
    exact looks_ask hf rfl _

/-- What is told is no exchange. -/
theorem looks_note (e : Event) (f : Unit → Program α) :
    Looks srv view trouble c (note e >>= f) (f ()) := by
  intro s xs r hs hp hg
  cases hp with
  | tell _ hrest =>
    exact Or.inr ⟨[], xs, rfl, fun _ h => (List.not_mem_nil h).elim, hs, hrest, hg⟩

theorem looks_skip (e : Event) :
    Looks srv view trouble c (Guarded.skip e) (Program.carry (.ok [])) :=
  looks_note e _

/-- A condition that is known already comes first on both sides. -/
theorem looks_ofExcept {β : Type} (r : Except MigrationError β) {f g : β → Program α}
    (h : ∀ b, r = .ok b → Looks srv view trouble c (f b) (g b)) :
    Looks srv view trouble c (ofExcept r >>= f) (ofExcept r >>= g) := by
  cases r with
  | error e => exact .refl c (fail e)
  | ok b => exact h b rfl

theorem looks_requireTable (hf : srv.Fronts d view trouble) (table : String)
    (f : Unit → Program α) : Looks srv view trouble c (Guarded.requireTable table >>= f)
      (ofExcept (c.tableNeeded table) >>= f) := by
  unfold Guarded.requireTable
  rw [bind_assoc]
  refine (looks_holds hf (.table table) _).trans ?_
  rw [has_table, tableNeeded]
  split <;> exact .refl c _

theorem requireSupport_eq (d : Dialect) (x : Change) :
    Guarded.requireSupport d x = ofExcept (supportNeeded d x) := by
  unfold Guarded.requireSupport supportNeeded
  split <;> rfl

theorem looks_requireFreeIndexName (hf : srv.Fronts d view trouble) (i : Index)
    (f : Unit → Program α) : Looks srv view trouble c (Guarded.requireFreeIndexName d i >>= f)
      (ofExcept (c.indexNameTaken d i) >>= f) := by
  unfold Guarded.requireFreeIndexName indexNameTaken
  split
  · rw [bind_assoc]
    refine (looks_askList hf (l := c.indexOwners (i.storedName d)) rfl _).trans ?_
    cases c.indexOwners (i.storedName d) <;> exact .refl c _
  · exact .refl c _

theorem looks_carryOut (change : Change) :
    Looks srv view trouble c (Guarded.carryOut d change) (Program.carry (change.build d)) :=
  Guarded.carryOut_eq d change ▸ .refl c _

end Catalog

namespace Change
open Catalog

variable {σ : Type} {srv : Server σ} {view : σ → Catalog} {trouble : Prop} {d : Dialect}

/-- **A guarded change looks, and carries on with what is due.** -/
theorem ensure_looks (hf : srv.Fronts d view trouble) (c : Catalog) (x : Change) :
    Looks srv view trouble c (x.ensure d) (Program.carry (c.due d x)) := by
  cases x with
  | createTable t =>
    simp only [ensure, Guarded.createTable, due, carry_bind]
    refine looks_ofExcept _ fun _ _ => (looks_holds hf (.table t.name) _).trans ?_
    rw [has_table]
    cases c.hasTable t.name with
    | false => exact looks_carryOut _
    | true =>
      refine (looks_askList hf (l := c.columnNames t.name) rfl _).trans ?_
      simp only [if_true]
      change Looks srv view trouble c (ite (c.lacking t.name (t.columns.map (·.name)) = []) _
        (fail (.conflict (.columnsMissing t.name (c.lacking t.name (t.columns.map (·.name))))))) _
      cases c.lacking t.name (t.columns.map (·.name)) with
      | nil => exact looks_skip _
      | cons k rest => exact .refl c _
  | dropTable table =>
    refine (looks_holds hf (.table table) _).trans ?_
    rw [has_table, due]
    cases c.hasTable table with
    | false => exact looks_skip _
    | true => exact looks_carryOut _
  | createIndex i =>
    simp only [ensure, Guarded.createIndex, due, carry_bind]
    refine looks_ofExcept _ fun _ _ => (looks_requireTable hf i.table _).trans ?_
    refine looks_ofExcept _ fun _ _ => (looks_holds hf (.index i.table _) _).trans ?_
    cases c.has (.index i.table (i.storedName d)) with
    | false =>
      simp only [Bool.false_eq_true, if_false, carry_bind]
      exact (looks_requireFreeIndexName hf i _).trans
        (looks_ofExcept _ fun _ _ => looks_carryOut _)
    | true => exact looks_skip _
  | dropIndex table name =>
    refine (looks_holds hf (.index table (d.fit name)) _).trans ?_
    rw [due]
    cases c.has (.index table (d.fit name)) with
    | false => exact looks_skip _
    | true => exact looks_carryOut _
  | addColumns table columns =>
    simp only [ensure, Guarded.addColumns, Guarded.requireBuild, due, carry_bind,
      Program.bind_assoc, Program.pure_bind]
    refine looks_ofExcept _ fun _ _ => (looks_requireTable hf table _).trans ?_
    refine looks_ofExcept _ fun _ _ => (looks_askList hf (l := c.columnNames table) rfl _).trans ?_
    change Looks srv view trouble c (match c.missing table columns with
      | [] => Guarded.skip (.columnsExist table)
      | missing => Guarded.carryOut d (.addColumns table missing)) _
    cases c.missing table columns with
    | nil => exact looks_skip _
    | cons k rest => exact looks_carryOut _
  | dropColumns table columns =>
    refine (looks_askList hf (l := c.columnNames table) rfl _).trans ?_
    rw [due]
    change Looks srv view trouble c (match c.present table columns with
      | [] => Guarded.skip (.columnsAbsent table)
      | present => Guarded.carryOut d (.dropColumns table present)) _
    cases c.present table columns with
    | nil => exact looks_skip _
    | cons k rest => exact looks_carryOut _
  | alterColumnType table k =>
    simp only [ensure, Guarded.alterColumnType, Guarded.requireBuild, due, carry_bind,
      Program.bind_assoc, Program.pure_bind]
    refine looks_ofExcept _ fun _ _ => (looks_holds hf (.column table k.name) _).trans ?_
    cases c.has (.column table k.name) with
    | false => exact .refl c _
    | true => exact looks_carryOut _
  | addConstraint k =>
    simp only [ensure, Guarded.addConstraint, due, carry_bind]
    refine looks_ofExcept _ fun _ _ => ?_
    rw [requireSupport_eq]
    refine looks_ofExcept _ fun _ _ => (looks_requireTable hf k.table _).trans ?_
    refine looks_ofExcept _ fun _ _ => (looks_holdsConstraint hf k.table _ k.kind _).trans ?_
    cases c.hasConstraint k.table (k.storedName d) k.kind with
    | false => exact looks_carryOut _
    | true => exact looks_skip _
  | dropConstraint table name kind =>
    simp only [ensure, Guarded.dropConstraint, due, carry_bind]
    rw [requireSupport_eq]
    refine looks_ofExcept _ fun _ _ => (looks_holdsConstraint hf table _ kind _).trans ?_
    cases c.hasConstraint table (d.fit name) kind with
    | false => exact looks_skip _
    | true => exact looks_carryOut _

end Change
end SchemaMigration
