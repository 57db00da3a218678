import SchemaMigration.Proofs.RunLog
import SchemaMigration.Proofs.VersionText

/-!
# The rows of the history table

What a database is trusted with: that it stores a record when it says so, and that it answers
questions about the history table from its rows (`Server.KeepsHistory`).  One that keeps it exactly
also stores nothing that it refuses, and finds the table once it was created
(`Server.KeepsExactly`).  Nothing is assumed about anything else that it holds or answers.

Along exchanges that leave the rows alone except for records (`Server.Undisturbed`), the rows tell
which versions the opening of a run finds completed (`Upgrade.opening_completed`), and they grow by
the versions of the steps that are run, one after the other (`Upgrade.StepsCourse.rows_eq`).
-/
namespace SchemaMigration
open Program

/-- The error says that the history is not one that the registry can have led to. -/
def MigrationError.BlamesHistory : MigrationError → Prop
  | .historyGap _ _ | .databaseAhead _ _ | .invalidHistory _ => True
  | _ => False

theorem MigrationError.OfChange.not_blamesHistory {e : MigrationError} (h : e.OfChange) :
    ¬ e.BlamesHistory := by
  cases e <;> first | exact id | exact h.elim

/-- The exchange sends a record of a completed version to the history table of the given name. -/
def Exchange.IsRecord (table : String) : Exchange → Prop
  | .execute (.recordVersion t _) _ => t = table
  | _ => False

/-- The program sends no records to the history table of the given name. -/
def Program.SparesHistory {α : Type} (table : String) (p : Program α) : Prop :=
  p.Sends fun s => ∀ v, s ≠ .recordVersion table v

/-- No step sends records to the history table itself. -/
def Registry.SparesHistory (table : String) (r : Registry) : Prop :=
  r.Sends fun s => ∀ v, s ≠ .recordVersion table v

namespace Server

variable {σ : Type} (srv : Server σ) (table : String) (rows : σ → List String)
  (present : σ → Prop)

/-- The server keeps the rows of a history table: the texts of the versions that are recorded in it,
in the order of recording.  Without a table there are none.

A record that is refused may have been stored nevertheless. -/
structure KeepsHistory : Prop where
  recorded : ∀ v s, (srv.execute (.recordVersion table v) s).1 = .ok () →
    rows (srv.execute (.recordVersion table v) s).2 = rows s ++ [v.text]
  refused : ∀ v s e, (srv.execute (.recordVersion table v) s).1 = .error e →
    rows (srv.execute (.recordVersion table v) s).2 = rows s ∨
      rows (srv.execute (.recordVersion table v) s).2 = rows s ++ [v.text]
  absent : ∀ s n, (srv.count (.object (.table table)) s).1 = .ok n → n ≤ 0 → rows s = []
  stored : ∀ s l, (srv.list (.completedVersions table) s).1 = .ok l → l.Perm (rows s)

/-- The server keeps the history exactly: a record that is refused is not stored, and the history
table is found when it is present, as it is once it was created. -/
structure KeepsExactly : Prop extends KeepsHistory srv table rows where
  unstored : ∀ v s e, (srv.execute (.recordVersion table v) s).1 = .error e →
    rows (srv.execute (.recordVersion table v) s).2 = rows s
  found : ∀ s n, (srv.count (.object (.table table)) s).1 = .ok n → (0 < n ↔ present s)
  created : ∀ d st s, st ∈ History.creation d table → (srv.execute st s).1 = .ok () →
    present (srv.execute st s).2

/-- Along these exchanges, beginning in state `s`, the rows change by records only. -/
def Undisturbed : σ → List Exchange → Prop
  | _, [] => True
  | s, x :: rest =>
    (¬ x.IsRecord table → rows (srv.next s x) = rows s) ∧ Undisturbed (srv.next s x) rest

/-- Along these exchanges, beginning in state `s`, the history table does not vanish. -/
def Lasts : σ → List Exchange → Prop
  | _, [] => True
  | s, x :: rest => (present s → present (srv.next s x)) ∧ Lasts (srv.next s x) rest

variable {srv table rows present} {s : σ} {xs ys : List Exchange}

theorem undisturbed_append : srv.Undisturbed table rows s (xs ++ ys) ↔
    srv.Undisturbed table rows s xs ∧ srv.Undisturbed table rows (srv.after s xs) ys := by
  induction xs generalizing s with
  | nil => simp [Undisturbed]
  | cons x xs ih => simp [Undisturbed, ih, and_assoc]

/-- Without a record the rows stay as they are. -/
theorem Undisturbed.rows_eq (h : srv.Undisturbed table rows s xs)
    (hx : ∀ x ∈ xs, ¬ x.IsRecord table) : rows (srv.after s xs) = rows s := by
  induction xs generalizing s with
  | nil => rfl
  | cons x xs ih =>
    obtain ⟨hfirst, hrest⟩ := h
    obtain ⟨hx, hxs⟩ := List.forall_mem_cons.mp hx
    exact (ih hrest hxs).trans (hfirst hx)

theorem lasts_append : srv.Lasts present s (xs ++ ys) ↔
    srv.Lasts present s xs ∧ srv.Lasts present (srv.after s xs) ys := by
  induction xs generalizing s with
  | nil => simp [Lasts]
  | cons x xs ih => simp [Lasts, ih, and_assoc]

theorem Lasts.after (h : srv.Lasts present s xs) (hs : present s) : present (srv.after s xs) := by
  induction xs generalizing s with
  | nil => exact hs
  | cons x xs ih => exact ih h.2 (h.1 hs)

end Server

namespace History

variable {σ : Type} {srv : Server σ} {table : String} {rows : σ → List String} {s : σ}

/-- One of the rows is read as the version. -/
def Names (rows : List String) (v : Version) : Prop :=
  ∃ row ∈ rows, Version.read row = .ok v

/-- Every row is read as a version. -/
def Readable (rows : List String) : Prop :=
  ∀ row ∈ rows, ∃ v, Version.read row = .ok v

theorem names_append {rows new : List String} {v : Version} :
    Names (rows ++ new) v ↔ Names rows v ∨ Names new v := by
  simp only [Names, List.mem_append, or_and_right, exists_or]

theorem names_texts {vs : List Version} {v : Version} : Names (vs.map (·.text)) v ↔ v ∈ vs := by
  constructor
  · rintro ⟨row, hrow, hread⟩
    obtain ⟨w, hw, rfl⟩ := List.mem_map.mp hrow
    rw [Version.read_text] at hread
    exact Except.ok.inj hread ▸ hw
  · intro hv
    exact ⟨v.text, List.mem_map_of_mem hv, v.read_text⟩

theorem readable_texts (vs : List Version) : Readable (vs.map (·.text)) := by
  intro row hrow
  obtain ⟨v, -, rfl⟩ := List.mem_map.mp hrow
  exact ⟨v, v.read_text⟩

/-- Readable rows are read as the versions that they name, in whatever order they come. -/
theorem readRows_perm {l stored : List String} (hrows : Readable stored) (hl : l.Perm stored) :
    ∃ vs, readRows table l = .ok vs ∧ ∀ v, v ∈ vs ↔ Names stored v := by
  have hread : ∀ l : List String, Readable l →
      ∃ vs, readRows table l = .ok vs ∧ ∀ v, v ∈ vs ↔ Names l v := by
    intro l hl
    induction l with
    | nil => exact ⟨[], rfl, by simp [Names]⟩
    | cons row l ih =>
      obtain ⟨⟨v, hv⟩, hrest⟩ := List.forall_mem_cons.mp hl
      obtain ⟨vs, hvs, hmem⟩ := ih hrest
      refine ⟨v :: vs, by rw [readRows, hv, hvs]; rfl, fun u => ?_⟩
      rw [List.mem_cons, hmem u, ← List.singleton_append (l := l), names_append]
      refine or_congr_left ⟨?_, ?_⟩
      · rintro rfl
        exact ⟨row, List.mem_singleton_self row, hv⟩
      · rintro ⟨row', hrow', hu⟩
        rw [List.mem_singleton.mp hrow', hv] at hu
        exact (Except.ok.inj hu).symm
  obtain ⟨vs, hvs, hmem⟩ := hread l fun row hrow => hrows row (hl.mem_iff.mp hrow)
  refine ⟨vs, hvs, fun v => (hmem v).trans ?_⟩
  exact exists_congr fun row => and_congr_left fun _ => hl.mem_iff

/-- Reading the history finds the versions that the rows name. -/
theorem Reading.completed {read : List Exchange} {r : Except MigrationError VersionSet}
    (h : Reading table read r) (hdb : srv.KeepsHistory table rows) (hrows : Readable (rows s))
    (hg : srv.Gives s read) (hq : srv.Undisturbed table rows s read) :
    (∃ e, r = .error (.driver e)) ∨
      ∃ completed, r = .ok completed ∧ ∀ v, v ∈ completed ↔ Names (rows s) v := by
  cases h with
  | unanswered e | unread hn e => exact Or.inl ⟨e, rfl⟩
  | @absent n hn =>
    have hcount : (srv.count (.object (.table table)) s).1 = .ok n :=
      (Exchange.count.inj (Option.some.inj hg.1)).2
    have hnone := hdb.absent s n hcount hn
    refine Or.inr ⟨.empty, rfl, fun v => ?_⟩
    rw [hnone]
    exact iff_of_false List.not_mem_nil fun ⟨_, hrow, _⟩ => List.not_mem_nil hrow
  | @read n hn l =>
    have hkeep : rows (srv.count (.object (.table table)) s).2 = rows s := hq.1 id
    have hlist : (srv.list (.completedVersions table)
        (srv.count (.object (.table table)) s).2).1 = .ok l :=
      (Exchange.list.inj (Option.some.inj hg.2.1)).2
    have hperm := hkeep ▸ hdb.stored _ l hlist
    obtain ⟨vs, hvs, hmem⟩ := readRows_perm hrows hperm
    refine Or.inr ⟨VersionSet.ofList vs, by rw [hvs]; rfl, fun v => ?_⟩
    rw [VersionSet.mem_ofList, hmem]

end History

theorem Program.SparesHistory.of_path {α : Type} {table : String} {p : Program α}
    {xs : List Exchange} {r : Except MigrationError α} (hp : p.SparesHistory table)
    (h : p.Path xs r) : ∀ x ∈ xs, ¬ x.IsRecord table := by
  intro x hx hrec
  cases x with
  | execute st a =>
    cases st with
    | recordVersion t v => exact Sends.of_path hp h hx v (hrec ▸ rfl)
    | _ => exact hrec
  | _ => exact hrec

namespace Upgrade

variable {σ : Type} {u : Upgrade} {srv : Server σ} {rows : σ → List String} {d : Dialect} {s : σ}

theorem not_blamesHistory_of_dialect {e : MigrationError} (h : u.dialect = .error e) :
    ¬ e.BlamesHistory := by
  cases dialect_error h
  exact id

/-- The opening of a run records nothing. -/
theorem opening_spares (u : Upgrade) (d : Dialect) (table : String) :
    (u.opening d).SparesHistory table := by
  refine (u.opening_orderly d).within.mono ?_ fun _ _ => trivial
  rintro e he st rfl v rfl
  cases List.mem_singleton.mp (History.mem_creation he)

/-- **What a run finds completed** are the versions of the rows.  No version is found unreadable. -/
theorem opening_completed {boot : List Exchange} {r : Except MigrationError VersionSet}
    (h : (u.opening d).Path boot r) (hdb : srv.KeepsHistory u.settings.historyTable rows)
    (hrows : History.Readable (rows s)) (hg : srv.Gives s (.acquire (.ok ()) :: boot))
    (hq : srv.Undisturbed u.settings.historyTable rows s (.acquire (.ok ()) :: boot)) :
    (∃ e, r = .error e ∧ e.OfChange) ∨
      ∃ completed, r = .ok completed ∧ ∀ v, v ∈ completed ↔ History.Names (rows s) v := by
  have hnone := (u.opening_spares d u.settings.historyTable).of_path h
  rcases ((u.opening_opened d).mp h).cases with herr | ⟨ens, read, made, rfl, -, hread⟩
  · exact Or.inl herr
  · obtain ⟨hgens, hgread⟩ := (Server.gives_append ..).mp hg.2
    obtain ⟨hqens, hqread⟩ := Server.undisturbed_append.mp hq.2
    have hens := hqens.rows_eq fun x hx => hnone x (List.mem_append_left _ hx)
    rw [← hq.1 id, ← hens] at hrows ⊢
    rcases hread.completed hdb hrows hgread hqread with ⟨e, rfl⟩ | hok
    · exact Or.inl ⟨_, rfl, trivial⟩
    · exact Or.inr hok

/-- A step sends its record last, if at all, and succeeds if the record does. -/
theorem StepLog.record_last {t : Step} {xs : List Exchange} {r : Except MigrationError Unit}
    (h : u.StepLog d t xs r) (hbody : (t.body d).SparesHistory u.settings.historyTable) :
    ((∃ e, r = .error e) ∧ ∀ x ∈ xs, ¬ x.IsRecord u.settings.historyTable) ∨
      ∃ quiet a, xs = quiet ++ [.execute (u.recordOf t.version) a] ∧
        (∀ x ∈ quiet, ¬ x.IsRecord u.settings.historyTable) ∧ r = a.mapError .driver := by
  -- a connection, the body, and a second connection
  have hquiet : ∀ {body : List Exchange} {q : Except MigrationError Unit}
      {a : List (Except DriverError Unit)}, (t.body d).Path body q →
      ∀ x ∈ .acquire (.ok ()) :: (body ++ a.map .acquire),
        ¬ x.IsRecord u.settings.historyTable := by
    intro body q a hpath x hx
    have hspare := hbody.of_path hpath
    rcases List.mem_cons.mp hx with rfl | hx
    · exact id
    · rcases List.mem_append.mp hx with hx | hx
      · exact hspare x hx
      · obtain ⟨b, -, rfl⟩ := List.mem_map.mp hx
        exact id
  cases r with
  | ok =>
    obtain ⟨body, hpath, rfl⟩ := h
    exact Or.inr ⟨.acquire (.ok ()) :: (body ++ [.acquire (.ok ())]), .ok (), by simp,
      hquiet (a := [.ok ()]) hpath, rfl⟩
  | error e =>
    cases h with
    | unreached e => exact Or.inl ⟨⟨_, rfl⟩, by simp [Exchange.IsRecord]⟩
    | failed hpath =>
      have hnone := hquiet (a := []) hpath
      rw [List.map_nil, List.append_nil] at hnone
      exact Or.inl ⟨⟨_, rfl⟩, hnone⟩
    | unrecordable e hpath => exact Or.inl ⟨⟨_, rfl⟩, hquiet (a := [.error e]) hpath⟩
    | @unrecorded body e hpath =>
      exact Or.inr ⟨.acquire (.ok ()) :: (body ++ [.acquire (.ok ())]), .error e, by simp,
        hquiet (a := [.ok ()]) hpath, rfl⟩

/-- **The rows after a part of one step**: those of the beginning, or with the version of the step
when nothing of it is left. -/
theorem StepLog.rows_eq {t : Step} {xs pre post : List Exchange} {r : Except MigrationError Unit}
    (h : u.StepLog d t xs r) (hdb : srv.KeepsHistory u.settings.historyTable rows)
    (hbody : (t.body d).SparesHistory u.settings.historyTable)
    (hg : srv.Gives s xs) (hq : srv.Undisturbed u.settings.historyTable rows s xs)
    (hx : xs = pre ++ post) :
    (rows (srv.after s pre) = rows s ∧ (post = [] → ∃ e, r = .error e) ∧
      ∀ x tail, post = x :: tail → x.IsRecord u.settings.historyTable →
        ∃ a, x = .execute (u.recordOf t.version) a) ∨
    (post = [] ∧ rows (srv.after s pre) = rows s ++ [t.version.text]) := by
  rcases h.record_last hbody with ⟨herr, hnone⟩ | ⟨quiet, a, hsplit, hquiet, rfl⟩
  · subst hx
    have hpre := (Server.undisturbed_append.mp hq).1
    refine Or.inl ⟨hpre.rows_eq fun x hx => hnone x (List.mem_append_left _ hx), fun _ => herr, ?_⟩
    rintro x tail rfl hrec
    exact (hnone x (by simp) hrec).elim
  · cases post with
    | nil =>
      -- nothing is left, so the record was sent, and may have been stored though it was refused
      rw [List.append_nil] at hx
      subst hx
      subst hsplit
      obtain ⟨hq, -⟩ := Server.undisturbed_append.mp hq
      obtain ⟨-, hlast, -⟩ := (Server.gives_append ..).mp hg
      have hbefore := hq.rows_eq hquiet
      have ha := (Exchange.execute.inj (Option.some.inj hlast)).2
      rw [Server.after_append, ← hbefore]
      cases a with
      | ok => exact Or.inr ⟨rfl, hdb.recorded _ _ ha⟩
      | error e =>
        rcases hdb.refused _ _ e ha with hsame | hstored
        · exact Or.inl ⟨hsame, fun _ => ⟨_, rfl⟩, by simp⟩
        · exact Or.inr ⟨rfl, hstored⟩
    | cons y tail =>
      -- the cut is somewhere before the record, or right in front of it
      have hpre := (Server.undisturbed_append.mp (hx ▸ hq)).1
      refine Or.inl ?_
      rcases cut_append (hsplit.symm.trans hx) with ⟨us, rfl, rfl⟩ | ⟨us, rfl, hus⟩
      · refine ⟨hpre.rows_eq fun x hx => hquiet x (List.mem_append_left _ hx), by simp, ?_⟩
        rintro x tail ⟨⟩ hrec
        exact (hquiet y (by simp) hrec).elim
      · cases us with
        | cons z us => simp at hus
        | nil =>
          obtain ⟨rfl, rfl⟩ := List.cons.inj hus
          rw [List.append_nil] at hpre ⊢
          refine ⟨hpre.rows_eq hquiet, by simp, ?_⟩
          rintro x tail ⟨⟩ -
          exact ⟨a, rfl⟩

/-- **The rows grow step by step.**  Cut the exchanges of steps anywhere: the rows are those of the
beginning and the versions of the first steps, and if a record is sent next, it is that of the step
after them. -/
theorem StepsCourse.rows_eq {shown : Option Progress} {p q : Progress} {steps : List Step}
    {xs : List Exchange} {r : Except MigrationError (List Version)}
    (h : u.StepsCourse d shown p steps xs r q)
    (hdb : srv.KeepsHistory u.settings.historyTable rows)
    (hbodies : ∀ t ∈ steps, (t.body d).SparesHistory u.settings.historyTable)
    (hg : srv.Gives s xs) (hq : srv.Undisturbed u.settings.historyTable rows s xs)
    {pre post : List Exchange} (hx : xs = pre ++ post) :
    ∃ before rest, steps = before ++ rest ∧
      rows (srv.after s pre) = rows s ++ before.map (·.version.text) ∧
      ∀ x tail, post = x :: tail → x.IsRecord u.settings.historyTable →
        ∃ t rest' a, rest = t :: rest' ∧ x = .execute (u.recordOf t.version) a := by
  induction h generalizing s pre with
  | done p =>
    obtain ⟨rfl, rfl⟩ := List.append_eq_nil_iff.mp hx.symm
    exact ⟨[], [], rfl, by simp, by simp⟩
  | @stop p t rest xs e hstop _ =>
    have hbody := hbodies t List.mem_cons_self
    rcases StepLog.rows_eq (r := .error e) hstop hdb hbody hg hq hx with
      ⟨hsame, -, hnext⟩ | ⟨rfl, hgrown⟩
    · refine ⟨[], t :: rest, rfl, by simpa using hsame, fun x tail hpost hrec => ?_⟩
      obtain ⟨a, ha⟩ := hnext x tail hpost hrec
      exact ⟨t, rest, a, rfl, ha⟩
    · exact ⟨[t], rest, rfl, hgrown, by simp⟩
  | @step p t rest xs ys r q hrec _ _ ih =>
    obtain ⟨hbody, hbodies⟩ := List.forall_mem_cons.mp hbodies
    obtain ⟨hgx, hgy⟩ := (Server.gives_append ..).mp hg
    obtain ⟨hqx, hqy⟩ := Server.undisturbed_append.mp hq
    rcases List.append_eq_append_iff.mp hx with ⟨us, rfl, hus⟩ | ⟨us, hus, rfl⟩
    · -- the cut is behind this step, which is recorded
      rcases StepLog.rows_eq (r := .ok ()) hrec hdb hbody hgx hqx (List.append_nil xs).symm with
        ⟨-, herr, -⟩ | ⟨-, hgrown⟩
      · obtain ⟨e, he⟩ := herr rfl
        cases he
      · obtain ⟨before, rest', rfl, hrows, hnext⟩ := ih hbodies hgy hqy hus
        refine ⟨t :: before, rest', rfl, ?_, hnext⟩
        rw [Server.after_append, hrows, hgrown, List.map_cons, List.append_assoc,
          List.singleton_append]
    · rcases StepLog.rows_eq (r := .ok ()) hrec hdb hbody hgx hqx hus with
        ⟨hsame, herr, hnext⟩ | ⟨rfl, hgrown⟩
      · refine ⟨[], t :: rest, rfl, by simpa using hsame, fun x tail hpost hx => ?_⟩
        cases us with
        | nil =>
          obtain ⟨e, he⟩ := herr rfl
          cases he
        | cons y us =>
          obtain ⟨rfl, -⟩ := List.cons.inj hpost
          obtain ⟨a, ha⟩ := hnext y us rfl hx
          exact ⟨t, rest, a, rfl, ha⟩
      · -- the cut is right behind this step
        obtain ⟨before, rest', rfl, hrows, hnext⟩ := ih hbodies hgy hqy (List.nil_append ys).symm
        rw [List.append_nil] at hus
        subst hus
        refine ⟨t :: before, rest', rfl, hrows.trans ?_, hnext⟩
        rw [hgrown, List.map_cons, List.append_assoc, List.singleton_append]

end Upgrade
end SchemaMigration
