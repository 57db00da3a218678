import SchemaMigration.Proofs.Opening
import SchemaMigration.Proofs.Passing

/-!
# Guarded changes look before they act

Nothing is assumed here about the answers that a guarded change gets: they may contradict each other
and the database.  A guarded change reads the catalog, and what it has read decides how it goes on
(`Change.Consults`): it is refused, it finds nothing to do, or it carries out the change, cut to
what is left of it (`Change.CutTo`).  Only the last of these sends statements, and it never comes
before a reading.

Each of the nine guarded changes is of this form (`Change.ensure_consults`), and all that the
discipline of guarded changes asks (`Change.Disciplined`) follows from the form
(`Change.ensure_disciplined`).
-/
namespace SchemaMigration
open Program

/-- The question is after the schema. -/
def CountQuery.IsOfCatalog : CountQuery → Prop
  | .object _ | .primaryKey _ => True
  | .verbatim _ => False

/-- The question is after the schema. -/
def ListQuery.IsOfCatalog : ListQuery → Prop
  | .columns _ | .indexTables _ => True
  | .completedVersions _ | .verbatim _ => False

/-- The exchange reads the catalog, or tries to. -/
def Exchange.ReadsCatalog : Exchange → Prop
  | .count q _ => q.IsOfCatalog
  | .list q _ => q.IsOfCatalog
  | _ => False

/-- The exchange sends a statement. -/
def Exchange.Executes : Exchange → Prop
  | .execute _ _ => True
  | _ => False

theorem Exchange.ReadsCatalog.isQuestion {x : Exchange} (h : x.ReadsCatalog) : x.IsQuestion := by
  cases x with
  | count q a => trivial
  | list q a => trivial
  | _ => exact h.elim

namespace Change

/-- What the change may be cut to before it is carried out: names of objects that are dropped are
those that the objects are stored under, and of a list of columns some may be left out. -/
def CutTo (d : Dialect) : Change → Change → Prop
  | dropIndex table name, part => part = dropIndex table (d.fit name)
  | addColumns table columns, part =>
    ∃ fewer : List Column, fewer.Sublist columns ∧ part = addColumns table fewer
  | dropColumns table columns, part =>
    ∃ fewer : List String, fewer.Sublist columns ∧ part = dropColumns table fewer
  | dropConstraint table name kind, part => part = dropConstraint table (d.fit name) kind
  | c, part => part = c

theorem CutTo.table_eq {d : Dialect} {c part : Change} (h : c.CutTo d part) :
    part.table = c.table := by
  cases c with
  | addColumns t columns =>
    obtain ⟨fewer, -, rfl⟩ := h
    rfl
  | dropColumns t columns =>
    obtain ⟨fewer, -, rfl⟩ := h
    rfl
  | _ =>
    cases h
    rfl

/-- The program reads the catalog and goes on in one of three ways.  The flag says whether it has
read anything yet: a program that has not can only be refused. -/
inductive Consults (d : Dialect) (c : Change) : Bool → Program Bool → Prop
  | refused {read} (e : MigrationError) (he : e.OfChange) : Consults d c read (fail e)
  | idle (e : Event) : Consults d c true (Guarded.skip e)
  | act (part : Change) (h : c.CutTo d part) : Consults d c true (Guarded.carryOut d part)
  | count {read next} (q : CountQuery) (hq : q.IsOfCatalog)
    (h : ∀ a, Consults d c true (next a)) : Consults d c read (.count q next)
  | list {read next} (q : ListQuery) (hq : q.IsOfCatalog)
    (h : ∀ a, Consults d c true (next a)) : Consults d c read (.list q next)

section Consults

variable {d : Dialect} {c : Change} {read : Bool}

theorem Consults.ask (q : CountQuery) (hq : q.IsOfCatalog) {f : Int → Program Bool}
    (h : ∀ n, Consults d c true (f n)) : Consults d c read (Program.ask q >>= f) := by
  refine .count q hq fun a => ?_
  cases a with
  | ok n => exact h n
  | error e => exact .refused (.driver e) trivial

theorem Consults.askList (q : ListQuery) (hq : q.IsOfCatalog) {f : List String → Program Bool}
    (h : ∀ l, Consults d c true (f l)) : Consults d c read (Program.askList q >>= f) := by
  refine .list q hq fun a => ?_
  cases a with
  | ok l => exact h l
  | error e => exact .refused (.driver e) trivial

theorem Consults.holds (o : SchemaObject) {f : Bool → Program Bool}
    (h : ∀ found, Consults d c true (f found)) : Consults d c read (Program.holds o >>= f) := by
  rw [show Program.holds o >>= f = Program.ask (.object o) >>= fun n => f (decide (0 < n)) from
    bind_assoc ..]
  exact .ask (.object o) trivial fun n => h _

theorem Consults.ofExcept {α : Type} (r : Except MigrationError α) {f : α → Program Bool}
    (hr : ∀ e, r = .error e → e.OfChange) (h : ∀ a, Consults d c read (f a)) :
    Consults d c read (Program.ofExcept r >>= f) := by
  cases r with
  | ok a => exact h a
  | error e => exact .refused e (hr e rfl)

theorem Consults.requireSound (r : Except Flaw Unit) {f : Unit → Program Bool}
    (h : Consults d c read (f ())) : Consults d c read (Guarded.requireSound r >>= f) := by
  refine .ofExcept _ (fun e he => ?_) fun _ => h
  cases r with
  | ok => cases he
  | error flaw =>
    cases he
    trivial

theorem Consults.requireBuild (x : Change) {f : Unit → Program Bool}
    (h : Consults d c read (f ())) : Consults d c read (Guarded.requireBuild d x >>= f) := by
  show Consults d c read ((Program.ofExcept (x.build d) >>= fun _ => pure ()) >>= f)
  rw [bind_assoc]
  exact .ofExcept _ (fun _ => Guarded.ofChange_of_build) fun _ => h

theorem Consults.requireSupport (x : Change) {f : Unit → Program Bool}
    (h : Consults d c read (f ())) : Consults d c read (Guarded.requireSupport d x >>= f) := by
  unfold Guarded.requireSupport
  split
  · exact h
  · exact .refused _ trivial

theorem Consults.requireTable (table : String) {f : Unit → Program Bool}
    (h : Consults d c true (f ())) : Consults d c read (Guarded.requireTable table >>= f) := by
  unfold Guarded.requireTable
  rw [bind_assoc]
  refine .holds _ fun found => ?_
  cases found with
  | true => exact h
  | false => exact .refused _ trivial

theorem Consults.requireFreeIndexName (i : Index) {f : Unit → Program Bool}
    (h : Consults d c true (f ())) :
    Consults d c true (Guarded.requireFreeIndexName d i >>= f) := by
  unfold Guarded.requireFreeIndexName
  split
  · rw [bind_assoc]
    refine .askList (.indexTables (i.storedName d)) trivial fun owners => ?_
    cases owners with
    | nil => exact h
    | cons owner _ => exact .refused _ trivial
  · exact h

theorem Consults.holdsConstraint (table name : String) (kind : ConstraintKind)
    {f : Bool → Program Bool} (h : ∀ found, Consults d c true (f found)) :
    Consults d c read (Guarded.holdsConstraint table name kind >>= f) := by
  cases kind with
  | unique => exact .holds _ h
  | primaryKey =>
    rw [show Guarded.holdsConstraint table name .primaryKey >>= f =
      Program.ask (.primaryKey table) >>= fun n => f (decide (0 < n)) from bind_assoc ..]
    exact .ask (.primaryKey table) trivial fun n => h _

end Consults

/-- **Every guarded change consults the catalog**, one case for each kind of change. -/
theorem ensure_consults (d : Dialect) (c : Change) : c.Consults d false (c.ensure d) := by
  cases c with
  | createTable t =>
    refine .requireSound _ (.holds _ fun found => ?_)
    cases found with
    | false => exact .act _ rfl
    | true =>
      refine .askList (.columns t.name) trivial fun existing => ?_
      show Consults d _ true (ite _ _ _)
      split
      · exact .idle _
      · exact .refused _ trivial
  | dropTable table =>
    refine .holds _ fun found => ?_
    cases found with
    | true => exact .act _ rfl
    | false => exact .idle _
  | createIndex i =>
    refine .requireSound _ (.requireTable _ (.holds _ fun found => ?_))
    cases found with
    | true => exact .idle _
    | false => exact .requireFreeIndexName i (.act _ rfl)
  | dropIndex table name =>
    refine .holds _ fun found => ?_
    cases found with
    | true => exact .act _ rfl
    | false => exact .idle _
  | addColumns table columns =>
    refine .requireBuild _ (.requireTable _ (.askList (.columns table) trivial fun existing => ?_))
    split
    · exact .idle _
    · exact .act _ ⟨_, List.filter_sublist, rfl⟩
  | dropColumns table columns =>
    refine .askList (.columns table) trivial fun existing => ?_
    split
    · exact .idle _
    · exact .act _ ⟨_, List.filter_sublist, rfl⟩
  | alterColumnType table k =>
    refine .requireBuild _ (.holds _ fun found => ?_)
    cases found with
    | true => exact .act _ rfl
    | false => exact .refused _ trivial
  | addConstraint k =>
    refine .requireSound _ (.requireSupport _ (.requireTable _ (.holdsConstraint _ _ _ ?_)))
    intro found
    cases found with
    | true => exact .idle _
    | false => exact .act _ rfl
  | dropConstraint table name kind =>
    refine .requireSupport _ (.holdsConstraint _ _ _ fun found => ?_)
    cases found with
    | true => exact .act _ rfl
    | false => exact .idle _

end Change

/-! ## Sending statements -/

/-- The statements of `l` have been sent, one after the other, and all succeeded; or those up to one
that failed, which was the last. -/
inductive Exchange.Sending : List Statement → List Exchange → Except MigrationError Unit → Prop
  | finished (l : List Statement) : Sending l (l.map fun s => .execute s (.ok ())) (.ok ())
  | halted (before : List Statement) (s : Statement) (after : List Statement)
    (cause : DriverError) : Sending (before ++ s :: after)
      (before.map (fun s => .execute s (.ok ())) ++ [.execute s (.error cause)])
      (.error (.driver cause))

theorem Program.Path.of_sendAll {l : List Statement} {xs : List Exchange}
    {r : Except MigrationError Unit} (h : (sendAll l).Path xs r) : Exchange.Sending l xs r := by
  induction l generalizing xs with
  | nil =>
    obtain ⟨rfl, rfl⟩ := Path.of_pure h
    exact .finished []
  | cons s rest ih =>
    change (send s >>= fun _ => sendAll rest).Path xs r at h
    rcases Path.of_bind h with ⟨e, rfl, hsend⟩ | ⟨ys, zs, _, rfl, hsend, hrest⟩
    · obtain ⟨a, rfl, ha⟩ := Path.of_send hsend
      cases a with
      | ok => cases ha
      | error cause =>
        cases ha
        exact .halted [] s rest cause
    · obtain ⟨a, rfl, ha⟩ := Path.of_send hsend
      cases a with
      | error cause => cases ha
      | ok =>
        cases ih hrest with
        | finished => exact .finished (s :: rest)
        | halted before s' after cause => exact .halted (s :: before) s' after cause

/-- Statements are all that is exchanged when they are sent. -/
theorem Exchange.Sending.executes {l : List Statement} {xs : List Exchange}
    {r : Except MigrationError Unit} (h : Exchange.Sending l xs r) : ∀ x ∈ xs, x.Executes := by
  have hmap : ∀ l : List Statement, ∀ x ∈ l.map fun s => Exchange.execute s (.ok ()),
      x.Executes := by
    intro l x hx
    obtain ⟨s, -, rfl⟩ := List.mem_map.mp hx
    trivial
  cases h with
  | finished => exact hmap _
  | halted before s after cause =>
    intro x hx
    rcases List.mem_append.mp hx with hx | hx
    · exact hmap before x hx
    · cases List.mem_singleton.mp hx
      trivial

/-- Carrying out a change is refused if it cannot be built, and otherwise sends its statements. -/
theorem Guarded.carryOut_path {d : Dialect} {part : Change} {xs : List Exchange}
    {r : Except MigrationError Bool} (h : (Guarded.carryOut d part).Path xs r) :
    (∃ e, part.build d = .error e ∧ xs = [] ∧ r = .error e) ∨
      ∃ l sent, part.build d = .ok l ∧ Exchange.Sending l xs sent ∧
        r = sent.map fun _ => true := by
  change ((Program.ofExcept (part.build d) >>= sendAll) >>= fun _ => pure true).Path xs r at h
  cases hb : part.build d with
  | error e =>
    rw [hb] at h
    obtain ⟨rfl, rfl⟩ := Path.of_fail h
    exact .inl ⟨e, rfl, rfl, rfl⟩
  | ok l =>
    rw [hb] at h
    change (sendAll l >>= fun _ => pure true).Path xs r at h
    rcases Path.of_bind h with ⟨e, rfl, hall⟩ | ⟨ys, zs, _, rfl, hall, hend⟩
    · exact .inr ⟨l, _, rfl, hall.of_sendAll, rfl⟩
    · obtain ⟨rfl, rfl⟩ := Path.of_pure hend
      rw [List.append_nil]
      exact .inr ⟨l, _, rfl, hall.of_sendAll, rfl⟩

namespace Change

/-- What a guarded change has sent, and how it has ended, once the catalog is read. -/
inductive Ends (d : Dialect) (c : Change) : List Exchange → Except MigrationError Bool → Prop
  | refused (e : MigrationError) (he : e.OfChange) : Ends d c [] (.error e)
  | idle : Ends d c [] (.ok false)
  | sent {part l xs r} (hcut : c.CutTo d part) (hbuild : part.build d = .ok l)
    (hsent : Exchange.Sending l xs r) : Ends d c xs (r.map fun _ => true)

theorem ends_of_carryOut {d : Dialect} {c part : Change} (hcut : c.CutTo d part)
    {xs : List Exchange} {r : Except MigrationError Bool}
    (h : (Guarded.carryOut d part).Path xs r) : c.Ends d xs r := by
  rcases Guarded.carryOut_path h with ⟨e, hb, rfl, rfl⟩ | ⟨l, sent, hb, hsent, rfl⟩
  · exact .refused e (Guarded.ofChange_of_build hb)
  · exact .sent hcut hb hsent

/-- **First the readings, then the end.**  A program that has not read anything yet reads at least
once before it sends a statement. -/
theorem Consults.of_path {d : Dialect} {c : Change} {read : Bool} {p : Program Bool}
    (h : c.Consults d read p) {xs : List Exchange} {r : Except MigrationError Bool}
    (hp : p.Path xs r) : ∃ qs ys, xs = qs ++ ys ∧ (∀ x ∈ qs, x.ReadsCatalog) ∧
      (read = false → ys ≠ [] → qs ≠ []) ∧ c.Ends d ys r := by
  -- the flag is already set below the first question, so the induction says nothing of `qs` there
  induction h generalizing xs with
  | refused e he =>
    obtain ⟨rfl, rfl⟩ := hp.of_fail
    exact ⟨[], [], rfl, by simp, by simp, .refused e he⟩
  | idle e =>
    obtain ⟨rfl, rfl⟩ := Guarded.skip_path hp
    exact ⟨[], [], rfl, by simp, by simp, .idle⟩
  | act part hcut => exact ⟨[], xs, rfl, by simp, by simp, ends_of_carryOut hcut hp⟩
  | count q hq _ ih =>
    cases hp with
    | count _ a hrest =>
      obtain ⟨qs, ys, rfl, hqs, -, hends⟩ := ih a hrest
      exact ⟨.count q a :: qs, ys, rfl, List.forall_mem_cons.mpr ⟨hq, hqs⟩,
        fun _ _ => List.cons_ne_nil _ _, hends⟩
  | list q hq _ ih =>
    cases hp with
    | list _ a hrest =>
      obtain ⟨qs, ys, rfl, hqs, -, hends⟩ := ih a hrest
      exact ⟨.list q a :: qs, ys, rfl, List.forall_mem_cons.mpr ⟨hq, hqs⟩,
        fun _ _ => List.cons_ne_nil _ _, hends⟩

/-! ## The discipline -/

/-- What can be relied on when a guarded change has made the exchanges `xs` and ended with `r`. -/
structure Disciplined (d : Dialect) (c : Change) (xs : List Exchange)
    (r : Except MigrationError Bool) : Prop where
  /-- It reports a change exactly if it succeeded and sent a statement. -/
  changed : r = .ok true ↔ (∃ b, r = .ok b) ∧ statementsIn xs ≠ []
  /-- It reports no change exactly if it succeeded and sent none. -/
  unchanged : r = .ok false ↔ (∃ b, r = .ok b) ∧ statementsIn xs = []
  /-- What it sent was built at once, as one change of the same table, and is a first part of that;
  all of it, if the guarded change succeeded. -/
  built : statementsIn xs = [] ∨ ∃ part l, c.CutTo d part ∧ part.table = c.table ∧
    part.build d = .ok l ∧ statementsIn xs <+: l ∧ ((∃ b, r = .ok b) → statementsIn xs = l)
  /-- It read the catalog first, at least once if it sent anything, and then sent statements. -/
  looked : ∃ qs ys, xs = qs ++ ys ∧ (∀ x ∈ qs, x.ReadsCatalog) ∧ (∀ y ∈ ys, y.Executes) ∧
    (ys ≠ [] → qs ≠ [])
  /-- It fails because of the database, a conflict, a flaw or the lack of support. -/
  fails : ∀ e, r = .error e → e.OfChange
  /-- If it failed for another reason than the database, it sent nothing. -/
  untouched : ∀ e, r = .error e → (∀ cause, e ≠ .driver cause) → statementsIn xs = []
  /-- If it failed after it had sent something, the last statement failed, with this error. -/
  halted : ∀ e, r = .error e → statementsIn xs ≠ [] →
    ∃ before s cause, xs = before ++ [.execute s (.error cause)] ∧ e = .driver cause

variable {d : Dialect} {c : Change} {qs ys : List Exchange} {r : Except MigrationError Bool}

theorem statementsIn_map_execute (l : List Statement) :
    statementsIn (l.map fun s => .execute s (.ok ())) = l := by
  induction l with
  | nil => rfl
  | cons s l ih => exact congrArg (s :: ·) ih

/-- Where nothing is sent, the discipline says little. -/
theorem disciplined_of_reading (hqs : ∀ x ∈ qs, x.ReadsCatalog)
    (hr : r = .ok false ∨ ∃ e, r = .error e ∧ e.OfChange) : c.Disciplined d qs r := by
  have hsent : statementsIn qs = [] := statementsIn_questions fun x hx => (hqs x hx).isQuestion
  refine ⟨?_, ?_, .inl hsent, ⟨qs, [], by simp, hqs, by simp, by simp⟩, ?_, fun _ _ _ => hsent,
    fun _ _ hne => (hne hsent).elim⟩
  · rcases hr with rfl | ⟨e, rfl, -⟩ <;> simp [hsent]
  · rcases hr with rfl | ⟨e, rfl, -⟩ <;> simp [hsent]
  · intro e he
    rcases hr with rfl | ⟨e', rfl, he'⟩
    · cases he
    · cases he
      exact he'

/-- Where statements are sent after a reading, the discipline is kept however far they go. -/
theorem disciplined_of_sending {part : Change} {l : List Statement}
    {sent : Except MigrationError Unit} (hqs : ∀ x ∈ qs, x.ReadsCatalog) (hlooked : qs ≠ [])
    (hcut : c.CutTo d part) (hbuild : part.build d = .ok l)
    (hsending : Exchange.Sending l ys sent) :
    c.Disciplined d (qs ++ ys) (sent.map fun _ => true) := by
  have hread : statementsIn qs = [] := statementsIn_questions fun x hx => (hqs x hx).isQuestion
  have hexecutes := hsending.executes
  cases hsending with
  | finished =>
    have hsent : statementsIn (qs ++ l.map fun s => .execute s (.ok ())) = l := by
      rw [statementsIn_append, hread, statementsIn_map_execute, List.nil_append]
    have hne : l ≠ [] := build_ne_nil hbuild
    refine ⟨?_, ?_, .inr ⟨part, l, hcut, hcut.table_eq, hbuild, ?_, fun _ => hsent⟩,
      ⟨qs, _, rfl, hqs, hexecutes, fun _ => hlooked⟩, nofun, nofun, nofun⟩
    · simp [hsent, hne, Except.map]
    · simp [hsent, hne, Except.map]
    · exact ⟨[], by rw [List.append_nil, hsent]⟩
  | halted before s after cause =>
    have hsent : statementsIn (qs ++ (before.map (fun s => .execute s (.ok ())) ++
        [.execute s (.error cause)])) = before ++ [s] := by
      rw [statementsIn_append, statementsIn_append, hread, statementsIn_map_execute]
      rfl
    refine ⟨by simp [Except.map], by simp [Except.map],
      .inr ⟨part, _, hcut, hcut.table_eq, hbuild, ?_, fun ⟨_, h⟩ => nomatch h⟩,
      ⟨qs, _, rfl, hqs, hexecutes, fun _ => hlooked⟩, ?_, ?_, ?_⟩
    · rw [hsent]
      exact ⟨after, by simp⟩
    · intro e he
      cases he
      trivial
    · intro e he hother
      cases he
      exact (hother cause rfl).elim
    · intro e he _
      cases he
      exact ⟨qs ++ before.map fun s => .execute s (.ok ()), s, cause, by simp, rfl⟩

/-- **Guarded changes are disciplined**, whatever they are asked to do and whatever they are
answered. -/
theorem ensure_disciplined {σ : Type} (d : Dialect) (c : Change) (srv : Server σ)
    (span : Option Span) (w : World σ) :
    c.Disciplined d (srv.exchanges w (World.leftBy ((c.ensure d).run srv span w)))
      (World.outcome ((c.ensure d).run srv span w)) := by
  obtain ⟨xs, r, w', hrun, hpath, -⟩ := (c.ensure d).run_performs srv span w
  rw [hrun.eq, World.outcome_ended, World.leftBy_ended, hrun.leads.exchanges]
  obtain ⟨qs, ys, rfl, hqs, hlooked, hends⟩ := (c.ensure_consults d).of_path hpath
  cases hends with
  | refused e he =>
    rw [List.append_nil]
    exact disciplined_of_reading hqs (.inr ⟨e, rfl, he⟩)
  | idle =>
    rw [List.append_nil]
    exact disciplined_of_reading hqs (.inl rfl)
  | sent hcut hbuild hsending =>
    refine disciplined_of_sending hqs (hlooked rfl ?_) hcut hbuild hsending
    cases hsending with
    | finished l => simpa using build_ne_nil hbuild
    | halted before s after cause => simp

end Change
end SchemaMigration
