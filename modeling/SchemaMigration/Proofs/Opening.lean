import SchemaMigration.Proofs.Checks
import SchemaMigration.Proofs.Course

/-!
# The opening of a run

On its first connection a run creates the history table unless it exists, and reads it.  Here this
is laid out exchange by exchange: creating a table where there is none (`Guarded.Creating`), reading
the history (`History.Reading`), and one after the other (`Upgrade.Opened`).  These are the paths of
the opening and no others (`Upgrade.opening_opened`).

All that it can send is the statement that creates the table; its errors come from the connection,
from the description of the table, or from rows that cannot be read, never from a plan or a step.
-/
namespace SchemaMigration
open Program

/-- The statements that create the history table of the given name. -/
def History.creation (d : Dialect) (name : String) : List Statement :=
  (Change.createTable (History.table name)).statements d

/-- The columns of the table that are not among those of an existing one. -/
def Table.lacking (t : Table) (existing : List String) : List String :=
  (t.columns.map (·.name)).filter fun c => !Guarded.hasName existing c

namespace Guarded

/-- What creating a table where there is none asks and gets for an answer, and its result.  A table
without flaws is looked for; if it is there it has to have all columns, and otherwise one statement
creates it. -/
inductive Creating (d : Dialect) (t : Table) :
    List Exchange → Except MigrationError Bool → Prop
  | flawed {flaw} (h : t.check d = .error flaw) : Creating d t [] (.error (.malformed flaw))
  | unanswered (h : t.check d = .ok ()) (e) :
    Creating d t [.count (.object (.table t.name)) (.error e)] (.error (.driver e))
  | unlisted {n} (h : t.check d = .ok ()) (hn : 0 < n) (e) :
    Creating d t [.count (.object (.table t.name)) (.ok n), .list (.columns t.name) (.error e)]
      (.error (.driver e))
  | present {n columns} (h : t.check d = .ok ()) (hn : 0 < n) (hall : t.lacking columns = []) :
    Creating d t [.count (.object (.table t.name)) (.ok n), .list (.columns t.name) (.ok columns)]
      (.ok false)
  | incomplete {n columns} (h : t.check d = .ok ()) (hn : 0 < n) (hsome : t.lacking columns ≠ []) :
    Creating d t [.count (.object (.table t.name)) (.ok n), .list (.columns t.name) (.ok columns)]
      (.error (.conflict (.columnsMissing t.name (t.lacking columns))))
  | created {n s} (h : t.check d = .ok ()) (hn : n ≤ 0)
    (hs : (Change.createTable t).statements d = [s]) (a) :
    Creating d t [.count (.object (.table t.name)) (.ok n), .execute s a]
      ((a.mapError .driver).map fun _ => true)

variable {d : Dialect} {t : Table} {xs : List Exchange} {r : Except MigrationError Bool}

/-- A change of one statement sends it and succeeds if that does. -/
theorem carryOut_one {c : Change} {s : Statement} (hb : c.build d = .ok [s]) :
    (carryOut d c).Path xs r ↔
      ∃ a, xs = [.execute s a] ∧ r = (a.mapError .driver).map fun _ => true := by
  rw [carryOut, perform, hb]
  change ((send s >>= fun _ => pure ()) >>= fun _ => pure true : Program Bool).Path xs r ↔ _
  rw [Program.bind_assoc]
  constructor
  · intro h
    rcases Path.of_bind h with ⟨e, rfl, hsend⟩ | ⟨ys, zs, _, rfl, hsend, hend⟩
    · obtain ⟨a, rfl, ha⟩ := Path.of_send hsend
      exact ⟨a, rfl, by rw [← ha]; rfl⟩
    · obtain ⟨a, rfl, ha⟩ := Path.of_send hsend
      obtain ⟨rfl, rfl⟩ := Path.of_pure hend
      exact ⟨a, rfl, by rw [← ha]; rfl⟩
  · rintro ⟨a, rfl, rfl⟩
    cases a <;> exact .execute s _ (.done _)

theorem skip_path {e : Event} (h : (skip e).Path xs r) : xs = [] ∧ r = .ok false := by
  rcases Path.of_bind h with ⟨e, rfl, hnote⟩ | ⟨ys, zs, _, rfl, hnote, hrest⟩
  · cases (Path.of_note hnote).2
  · obtain ⟨rfl, -⟩ := Path.of_note hnote
    exact Path.of_pure hrest

theorem createTable_build (h : t.check d = .ok ()) :
    ∃ s, (Change.createTable t).statements d = [s] ∧ (Change.createTable t).build d = .ok [s] :=
  ⟨_, rfl, Change.build_eq_ok.mpr ⟨h, rfl, rfl⟩⟩

theorem createTable_creating (h : (createTable d t).Path xs r) : Creating d t xs r := by
  -- the descriptor is checked before anything is asked for
  cases hc : t.check d with
  | error flaw =>
    rw [createTable, requireSound, hc] at h
    obtain ⟨rfl, rfl⟩ := Path.of_fail h
    exact .flawed hc
  | ok =>
  rw [createTable, requireSound, hc] at h
  change (holds (.table t.name) >>= _ : Program Bool).Path xs r at h
  rcases Path.of_bind h with ⟨e, rfl, hask⟩ | ⟨ys, us, found, rfl, hask, hgo⟩
  · obtain ⟨a, rfl, ha⟩ := Path.of_holds hask
    cases a with
    | ok n => cases ha
    | error e' => cases ha; exact .unanswered hc e'
  obtain ⟨a, rfl, ha⟩ := Path.of_holds hask
  cases a with
  | error e' => cases ha
  | ok n =>
    have hfound : found = decide (0 < n) := Except.ok.inj ha
    by_cases hn : 0 < n
    · rw [hfound, decide_eq_true hn] at hgo
      rcases Path.of_bind hgo with ⟨e, rfl, hlist⟩ | ⟨vs, ws, existing, rfl, hlist, hend⟩
      · obtain ⟨b, rfl, hb⟩ := Path.of_askList hlist
        cases b with
        | ok columns => cases hb
        | error e' => cases hb; exact .unlisted hc hn e'
      · obtain ⟨b, rfl, hb⟩ := Path.of_askList hlist
        cases b with
        | error e' => cases hb
        | ok columns =>
          cases hb
          change (ite (t.lacking existing = []) _ _ : Program Bool).Path ws r at hend
          split at hend
          · next hall =>
            obtain ⟨rfl, rfl⟩ := skip_path hend
            exact .present hc hn hall
          · next hsome =>
            obtain ⟨rfl, rfl⟩ := Path.of_fail hend
            exact .incomplete hc hn hsome
    · -- there is no such table, and one statement creates it
      rw [hfound, decide_eq_false hn] at hgo
      obtain ⟨s, hs, hbuild⟩ := createTable_build hc
      obtain ⟨a, rfl, rfl⟩ := (carryOut_one hbuild).mp hgo
      exact .created hc (Int.not_lt.mp hn) hs a

/-- **Creating a table where there is none** has these exchanges and no others. -/
theorem createTable_path : (createTable d t).Path xs r ↔ Creating d t xs r := by
  refine ⟨createTable_creating, fun h => ?_⟩
  -- behind a check that is passed, the table is looked for
  have hlook : t.check d = .ok () → ∀ {n ys}, (ite (decide (0 < n) = true)
      (askList (.columns t.name) >>= fun existing => if t.lacking existing = []
        then skip (.tableExists t.name)
        else fail (.conflict (.columnsMissing t.name (t.lacking existing))))
      (carryOut d (.createTable t))).Path ys r →
      (createTable d t).Path (.count (.object (.table t.name)) (.ok n) :: ys) r := by
    intro hc n ys hrest
    rw [createTable, requireSound, hc]
    exact .count _ _ hrest
  cases h with
  | flawed hc =>
    rw [createTable, requireSound, hc]
    exact .done _
  | unanswered hc e =>
    rw [createTable, requireSound, hc]
    exact .count _ _ (.done _)
  | unlisted hc hn e =>
    refine hlook hc ?_
    rw [decide_eq_true hn, if_pos rfl]
    exact .list _ _ (.done _)
  | @present n columns hc hn hall =>
    refine hlook hc ?_
    rw [decide_eq_true hn, if_pos rfl]
    refine (path_askList _ (.ok columns)).bind ?_
    rw [if_pos hall]
    exact .tell _ (.done _)
  | @incomplete n columns hc hn hsome =>
    refine hlook hc ?_
    rw [decide_eq_true hn, if_pos rfl]
    refine (path_askList _ (.ok columns)).bind ?_
    rw [if_neg hsome]
    exact .done _
  | created hc hn hs a =>
    refine hlook hc ?_
    obtain ⟨s', hs', hbuild⟩ := createTable_build hc
    cases hs.symm.trans hs'
    rw [decide_eq_false (Int.not_lt.mpr hn), if_neg Bool.false_ne_true]
    exact (carryOut_one hbuild).mpr ⟨a, rfl, rfl⟩

end Guarded

/-- An error that the opening of a run can end with. -/
def MigrationError.OfOpening : MigrationError → Prop
  | .invalidHistory _ => True
  | e => e.OfChange

theorem MigrationError.OfChange.ofOpening {e : MigrationError} (h : e.OfChange) :
    e.OfOpening := by
  cases e <;> first | exact h | exact h.elim

namespace History

/-- Rows are refused for one that is no version. -/
theorem readRows_eq_error {name : String} {rows : List String} {e : MigrationError}
    (h : readRows name rows = .error e) :
    ∃ row ∈ rows, ∃ flaw, Version.read row = .error flaw ∧
      e = .invalidHistory (.unreadable name row flaw) := by
  induction rows with
  | nil => cases h
  | cons row rest ih =>
    rw [readRows] at h
    cases hrow : Version.read row with
    | error flaw =>
      rw [hrow] at h
      cases h
      exact ⟨row, List.mem_cons_self, flaw, hrow, rfl⟩
    | ok v =>
      rw [hrow] at h
      cases hrest : readRows name rest with
      | ok vs => rw [hrest] at h; cases h
      | error e' =>
        rw [hrest] at h
        cases h
        obtain ⟨bad, hmem, hbad⟩ := ih hrest
        exact ⟨bad, List.mem_cons_of_mem _ hmem, hbad⟩

end History

namespace History

/-- The creation of the history table, and questions of any kind. -/
def MayAsk (d : Dialect) (name : String) : Entry → Prop :=
  (Change.createTable (table name)).MayAsk d

theorem mem_creation {d : Dialect} {name : String} {s : Statement}
    (h : MayAsk d name (.execute s)) : s ∈ creation d name := by
  obtain ⟨part, hpart, hs⟩ := h
  cases part <;> cases hpart
  exact hs

theorem prepare_orderly (d : Dialect) (name : String) :
    (prepare d name).Orderly (MayAsk d name) MigrationError.OfChange := by
  refine (Change.ensure_orderly d (.createTable (table name))).bind fun created => ?_
  cases created with
  | true => exact orderly_note _
  | false => exact orderly_pure _

/-- Making sure of the history table is a guarded change. -/
theorem prepare_path {d : Dialect} {name : String} {xs : List Exchange}
    {r : Except MigrationError Unit} (h : (prepare d name).Path xs r) :
    (∃ e, r = .error e ∧ ((Change.createTable (table name)).ensure d).Path xs (.error e)) ∨
      ∃ b, r = .ok () ∧ ((Change.createTable (table name)).ensure d).Path xs (.ok b) := by
  rcases Path.of_bind h with ⟨e, rfl, hcreate⟩ | ⟨ys, zs, made, rfl, hcreate, hrest⟩
  · exact Or.inl ⟨e, rfl, hcreate⟩
  · have hend : zs = [] ∧ r = .ok () := by
      cases made with
      | true => exact Path.of_note hrest
      | false => exact Path.of_pure hrest
    obtain ⟨rfl, rfl⟩ := hend
    rw [List.append_nil]
    exact Or.inr ⟨made, rfl, hcreate⟩

/-- **Making sure of the history table** is creating it where there is none. -/
theorem prepare_creating {d : Dialect} {name : String} {xs : List Exchange}
    {r : Except MigrationError Unit} : (prepare d name).Path xs r ↔
      ∃ q, Guarded.Creating d (table name) xs q ∧ r = q.map fun _ => () := by
  constructor
  · intro h
    rcases prepare_path h with ⟨e, rfl, hcreate⟩ | ⟨made, rfl, hcreate⟩
    · exact ⟨.error e, Guarded.createTable_creating hcreate, rfl⟩
    · exact ⟨.ok made, Guarded.createTable_creating hcreate, rfl⟩
  · rintro ⟨q, hcreating, rfl⟩
    have hcreate := Guarded.createTable_path.mpr hcreating
    cases q with
    | error e => exact hcreate.bind_error
    | ok made =>
      rw [← List.append_nil xs]
      refine hcreate.bind ?_
      cases made with
      | true => exact .tell _ (.done _)
      | false => exact .done _

/-- Reading the history asks questions only. -/
theorem completed_orderly {S : Entry → Prop} (hcount : ∀ q, S (.count q)) (hlist : ∀ q, S (.list q))
    (name : String) : (completed name).Orderly S MigrationError.OfOpening := by
  have hdriver : ∀ e, MigrationError.OfOpening (.driver e) := fun _ => trivial
  refine (orderly_holds hdriver (hcount _)).bind fun found => ?_
  cases found with
  | false => exact orderly_pure _
  | true =>
    refine (orderly_askList hdriver (hlist _)).bind fun rows =>
      (orderly_ofExcept ?_).bind fun _ => orderly_pure _
    intro e he
    obtain ⟨row, -, flaw, -, rfl⟩ := readRows_eq_error he
    trivial

/-- What is left to do with the rows asks for nothing. -/
theorem of_readRows {name : String} {rows : List String} {xs : List Exchange}
    {r : Except MigrationError VersionSet}
    (h : (Program.ofExcept (readRows name rows) >>= fun vs => pure (VersionSet.ofList vs)).Path
      xs r) : xs = [] ∧ r = (readRows name rows).map VersionSet.ofList := by
  cases hv : readRows name rows with
  | error e =>
    rw [hv] at h
    exact Path.of_fail h
  | ok l =>
    rw [hv] at h
    exact Path.of_pure h

theorem path_readRows {name : String} {rows : List String} :
    (Program.ofExcept (readRows name rows) >>= fun vs => pure (VersionSet.ofList vs)).Path []
      ((readRows name rows).map VersionSet.ofList) := by
  cases readRows name rows <;> exact .done _

/-- What reading the history asks and gets for an answer, and its result.  Without a table no
version is completed. -/
inductive Reading (name : String) : List Exchange → Except MigrationError VersionSet → Prop
  | unanswered (e) : Reading name [.count (.object (.table name)) (.error e)] (.error (.driver e))
  | absent {n} (hn : n ≤ 0) : Reading name [.count (.object (.table name)) (.ok n)] (.ok .empty)
  | unread {n} (hn : 0 < n) (e) : Reading name
      [.count (.object (.table name)) (.ok n), .list (.completedVersions name) (.error e)]
      (.error (.driver e))
  | read {n} (hn : 0 < n) (rows) : Reading name
      [.count (.object (.table name)) (.ok n), .list (.completedVersions name) (.ok rows)]
      ((readRows name rows).map VersionSet.ofList)

/-- **Reading the history** has these exchanges and no others. -/
theorem completed_reading {name : String} {xs : List Exchange}
    {r : Except MigrationError VersionSet} : (completed name).Path xs r ↔ Reading name xs r := by
  constructor
  · intro h
    rcases Path.of_bind h with ⟨e, rfl, hask⟩ | ⟨ys, zs, found, rfl, hask, hrest⟩
    · obtain ⟨a, rfl, ha⟩ := Path.of_holds hask
      cases a with
      | ok n => cases ha
      | error e' => cases ha; exact .unanswered e'
    · obtain ⟨a, rfl, ha⟩ := Path.of_holds hask
      cases a with
      | error e' => cases ha
      | ok n =>
        have hfound : found = decide (0 < n) := Except.ok.inj ha
        by_cases hn : 0 < n
        · rw [hfound, decide_eq_true hn] at hrest
          rcases Path.of_bind hrest with ⟨e, rfl, hlist⟩ | ⟨us, vs, rows, rfl, hlist, hrows⟩
          · obtain ⟨b, rfl, hb⟩ := Path.of_askList hlist
            cases b with
            | ok rows => cases hb
            | error e' => cases hb; exact .unread hn e'
          · obtain ⟨b, rfl, hb⟩ := Path.of_askList hlist
            cases b with
            | error e' => cases hb
            | ok rows' =>
              cases hb
              obtain ⟨rfl, rfl⟩ := of_readRows hrows
              exact .read hn rows
        · rw [hfound, decide_eq_false hn] at hrest
          obtain ⟨rfl, rfl⟩ := Path.of_pure hrest
          exact .absent (Int.not_lt.mp hn)
  · intro h
    cases h with
    | unanswered e => exact .count _ _ (.done _)
    | @absent n hn =>
      refine .count _ (.ok n) ?_
      change (ite (decide (0 < n) = true) _ _ : Program VersionSet).Path [] _
      rw [decide_eq_false (Int.not_lt.mpr hn)]
      exact .done _
    | @unread n hn e =>
      refine .count _ (.ok n) ?_
      change (ite (decide (0 < n) = true) _ _ : Program VersionSet).Path [_] _
      rw [decide_eq_true hn]
      exact .list _ _ (.done _)
    | @read n hn rows =>
      refine .count _ (.ok n) ?_
      change (ite (decide (0 < n) = true) _ _ : Program VersionSet).Path [_] _
      rw [decide_eq_true hn]
      exact (path_askList _ (.ok rows)).bind path_readRows

/-- Reading the history sends nothing. -/
theorem Reading.sends_nothing {name : String} {read : List Exchange}
    {r : Except MigrationError VersionSet} (h : Reading name read r) (st : Statement)
    (a : Except DriverError Unit) : .execute st a ∉ read := by
  cases h <;> simp

end History

namespace Upgrade

variable (u : Upgrade) (d : Dialect)

/-- **The opening creates the history table at most**, and fails for reasons of its own only. -/
theorem opening_orderly :
    (u.opening d).Orderly (History.MayAsk d u.settings.historyTable) MigrationError.OfOpening :=
  ((History.prepare_orderly d _).mono (fun _ => id) fun _ => MigrationError.OfChange.ofOpening).bind
    fun _ => History.completed_orderly (fun _ => trivial) (fun _ => trivial) _

/-- What the opening of a run asks and gets for an answer, and its result: the history table is made
sure of, and unless that fails, it is read. -/
inductive Opened : List Exchange → Except MigrationError VersionSet → Prop
  | unprepared {ens e}
    (h : Guarded.Creating d (History.table u.settings.historyTable) ens (.error e)) :
    Opened ens (.error e)
  | read {ens read made r}
    (h : Guarded.Creating d (History.table u.settings.historyTable) ens (.ok made))
    (hread : History.Reading u.settings.historyTable read r) : Opened (ens ++ read) r

/-- **The opening of a run** has these exchanges and no others. -/
theorem opening_opened {boot : List Exchange} {r : Except MigrationError VersionSet} :
    (u.opening d).Path boot r ↔ u.Opened d boot r := by
  constructor
  · intro h
    rcases Path.of_bind h with ⟨e, rfl, hprep⟩ | ⟨ens, read, _, rfl, hprep, hread⟩
    · obtain ⟨q, hcreating, hq⟩ := History.prepare_creating.mp hprep
      cases q with
      | ok made => cases hq
      | error e' => cases hq; exact .unprepared hcreating
    · obtain ⟨q, hcreating, hq⟩ := History.prepare_creating.mp hprep
      cases q with
      | error e' => cases hq
      | ok made => exact .read hcreating (History.completed_reading.mp hread)
  · intro h
    cases h with
    | unprepared h => exact (History.prepare_creating.mpr ⟨_, h, rfl⟩).bind_error
    | read h hread =>
      exact (History.prepare_creating.mpr ⟨_, h, rfl⟩).bind (History.completed_reading.mpr hread)

variable {u d}

theorem Opened.path {boot : List Exchange} {r : Except MigrationError VersionSet}
    (h : u.Opened d boot r) : (u.opening d).Path boot r :=
  (opening_opened u d).mpr h

/-- An opening that fails in making sure of the history table does so like a change. -/
theorem Opened.cases {boot : List Exchange} {r : Except MigrationError VersionSet}
    (h : u.Opened d boot r) : (∃ e, r = .error e ∧ e.OfChange) ∨ ∃ ens read made,
      boot = ens ++ read ∧
      Guarded.Creating d (History.table u.settings.historyTable) ens (.ok made) ∧
      History.Reading u.settings.historyTable read r := by
  cases h with
  | @unprepared ens e h =>
    have hprep := History.prepare_creating.mpr ⟨_, h, rfl⟩
    exact Or.inl ⟨e, rfl, ((History.prepare_orderly d _).within.of_path hprep).2 e rfl⟩
  | read h hread => exact Or.inr ⟨_, _, _, rfl, h, hread⟩

/-- A look at the history sends nothing. -/
theorem StatusCourse.sends_nothing {closed : Bool} {xs : List Exchange}
    {r : Except MigrationError StatusReport} (h : u.StatusCourse closed xs r) (st : Statement)
    (a : Except DriverError Unit) : .execute st a ∉ xs := by
  cases h with
  | unsupported | closed | unreached => simp
  | unread _ _ hpath | read _ _ hpath =>
    have hquiet := (History.completed_reading.mp hpath).sends_nothing st a
    exact fun hx => hquiet ((List.mem_cons.mp hx).resolve_left (by simp))

end Upgrade
end SchemaMigration
