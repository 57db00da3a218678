import SchemaMigration.Proofs.GuardDiscipline
import SchemaMigration.Proofs.SafeDrops
import SchemaMigration.Proofs.WellFormed

/-!
# Drops are checked after they have looked

A request to drop something looks for it first, and builds what the catalog shows to be there
(`Change.shown`).  Whatever it is answered, it takes one of five courses (`Change.DropCourse`).

So a mistake in the request is seen only if the catalog shows enough of it.  Of a table, an index or
a constraint that is all of the request, and the error is that of building it; of columns it is
those that are there, and mistakes in the others go unnoticed.  Where nothing is shown, the mistaken
request ends as if there was nothing to do (`Change.ensure_sees_shown`,
`Change.dropColumns_unnoticed`).
-/
namespace SchemaMigration
open Program

/-- One statement is sent at least, if there is any. -/
theorem Exchange.Sending.statementsIn_ne_nil {l : List Statement} {xs : List Exchange}
    {r : Except MigrationError Unit} (h : Exchange.Sending l xs r) (hne : l ≠ []) :
    statementsIn xs ≠ [] := by
  cases h with
  | finished => rwa [Change.statementsIn_map_execute]
  | halted before s after cause =>
    rw [statementsIn_append]
    exact List.append_ne_nil_of_right_ne_nil _ (List.cons_ne_nil s [])

namespace Change

/-- The change as it is carried out: the name of an index or a constraint to drop is the one that it
is stored under. -/
def cut (d : Dialect) : Change → Change
  | dropIndex table name => dropIndex table (d.fit name)
  | dropConstraint table name kind => dropConstraint table (d.fit name) kind
  | c => c

/-- What is there of all that the change is to drop, as an answer of the catalog shows it. -/
def shown (d : Dialect) (c : Change) : Exchange → Option Change
  | .count _ (.ok n) => if 0 < n then some (c.cut d) else none
  | .list _ (.ok existing) =>
    match c with
    | dropColumns table names =>
      match names.filter (Guarded.hasName existing) with
      | [] => none
      | present => some (dropColumns table present)
    | _ => none
  | _ => none

/-- The exchange is the question after what the change is to drop. -/
def LooksWith (d : Dialect) : Change → Exchange → Prop
  | dropTable table, .count q _ => q = .object (.table table)
  | dropIndex table name, .count q _ => q = .object (.index table (d.fit name))
  | dropColumns table _, .list q _ => q = .columns table
  | dropConstraint table _ .primaryKey, .count q _ => q = .primaryKey table
  | dropConstraint table name .unique, .count q _ => q = .object (.constraint table (d.fit name))
  | _, _ => False

/-- The dialect supports the change, and the exchange is the question after what it is to drop. -/
structure Looks (d : Dialect) (c : Change) (x : Exchange) : Prop where
  supported : c.supported d = true
  question : c.LooksWith d x

/-- How a request to drop something goes. -/
inductive DropCourse (d : Dialect) (c : Change) :
    List Exchange → Except MigrationError Bool → Prop
  /-- The dialect does not support it. -/
  | unsupported (h : c.supported d = false) :
    DropCourse d c [] (.error (.unsupported c.operation d))
  /-- The catalog does not answer. -/
  | unanswered {x cause} (hlooks : c.Looks d x) (hfailed : x.Failed) :
    DropCourse d c [x] (.error (.driver cause))
  /-- There is nothing to drop. -/
  | nothing {x} (hlooks : c.Looks d x) (hanswered : ¬ x.Failed) (hshown : c.shown d x = none) :
    DropCourse d c [x] (.ok false)
  /-- What there is to drop cannot be built. -/
  | refused {x part e} (hlooks : c.Looks d x) (hshown : c.shown d x = some part)
    (hbuild : part.build d = .error e) : DropCourse d c [x] (.error e)
  /-- What there is to drop is carried out. -/
  | sent {x ys part l sent} (hlooks : c.Looks d x) (hshown : c.shown d x = some part)
    (hbuild : part.build d = .ok l) (hsent : Exchange.Sending l ys sent) :
    DropCourse d c (x :: ys) (sent.map fun _ => true)

variable {d : Dialect} {c part : Change} {xs ys : List Exchange} {r : Except MigrationError Bool}

/-- Carrying out what the answer has shown. -/
theorem dropCourse_of_carryOut {x : Exchange} (hlooks : c.Looks d x)
    (hshown : c.shown d x = some part) (h : (Guarded.carryOut d part).Path ys r) :
    c.DropCourse d (x :: ys) r := by
  rcases Guarded.carryOut_path h with ⟨e, hbuild, rfl, rfl⟩ | ⟨l, sent, hbuild, hsent, rfl⟩
  · exact .refused hlooks hshown hbuild
  · exact .sent hlooks hshown hbuild hsent

/-- Looking for an object by a number, and carrying out the change if that is positive. -/
theorem dropCourse_of_count {q : CountQuery} (hlooks : ∀ a, c.Looks d (.count q a)) {e : Event}
    (h : ((ask q >>= fun n => pure (decide (0 < n))) >>= fun found =>
      if found then Guarded.carryOut d (c.cut d) else Guarded.skip e).Path xs r) :
    c.DropCourse d xs r := by
  cases h with
  | count _ a h =>
    cases a with
    | error cause =>
      obtain ⟨rfl, rfl⟩ := Path.of_fail h
      exact .unanswered (hlooks _) trivial
    | ok n =>
      change (if decide (0 < n) = true then Guarded.carryOut d (c.cut d)
        else Guarded.skip e).Path _ r at h
      by_cases hn : 0 < n
      · rw [if_pos (decide_eq_true hn)] at h
        exact dropCourse_of_carryOut (hlooks _) (if_pos hn) h
      · rw [if_neg (by simpa using hn)] at h
        obtain ⟨rfl, rfl⟩ := Guarded.skip_path h
        exact .nothing (hlooks _) id (if_neg hn)

/-- **Every request to drop something takes one of these courses.** -/
theorem ensure_dropCourse (hdrop : c.IsDrop) (h : (c.ensure d).Path xs r) :
    c.DropCourse d xs r := by
  cases c with
  | dropTable table => exact dropCourse_of_count (fun _ => ⟨rfl, rfl⟩) h
  | dropIndex table name => exact dropCourse_of_count (fun _ => ⟨rfl, rfl⟩) h
  | dropColumns table names =>
    cases h with
    | list _ a h =>
      cases a with
      | error cause =>
        obtain ⟨rfl, rfl⟩ := Path.of_fail h
        exact .unanswered ⟨rfl, rfl⟩ trivial
      | ok existing =>
        change Path (match names.filter (Guarded.hasName existing) with
          | [] => Guarded.skip (.columnsAbsent table)
          | present => Guarded.carryOut d (dropColumns table present)) _ r at h
        split at h
        · next hnone =>
          obtain ⟨rfl, rfl⟩ := Guarded.skip_path h
          exact .nothing ⟨rfl, rfl⟩ id (by simp only [shown, hnone])
        · next hsome => exact dropCourse_of_carryOut ⟨rfl, rfl⟩ (by simp only [shown]) h
  | dropConstraint table name kind =>
    cases hs : (dropConstraint table name kind).supported d with
    | false =>
      have hfail : (dropConstraint table name kind).ensure d =
          fail (.unsupported (dropConstraint table name kind).operation d) := by
        simp only [ensure, Guarded.dropConstraint, Guarded.requireSupport, hs]
        rfl
      rw [hfail] at h
      obtain ⟨rfl, rfl⟩ := Path.of_fail h
      exact .unsupported hs
    | true =>
      have hlooks : (dropConstraint table name kind).ensure d =
          (Guarded.holdsConstraint table (d.fit name) kind >>= fun found =>
            if found then Guarded.carryOut d (dropConstraint table (d.fit name) kind)
            else Guarded.skip (.constraintAbsent table (d.fit name))) := by
        simp only [ensure, Guarded.dropConstraint, Guarded.requireSupport, hs]
        rfl
      rw [hlooks] at h
      cases kind with
      | primaryKey => exact dropCourse_of_count (fun _ => ⟨hs, rfl⟩) h
      | unique => exact dropCourse_of_count (fun _ => ⟨hs, rfl⟩) h
  | _ => exact hdrop.elim

/-! ## Which mistakes are seen -/

/-- What is carried out of a request is built, or refused, as the request is. -/
theorem build_cut (d : Dialect) (c : Change) : (c.cut d).build d = c.build d := by
  cases c with
  | dropIndex table name | dropConstraint table name kind =>
    simp only [cut, build, check, requireStored_fit, supported, statements, Dialect.fit_fit]
    rfl
  | _ => rfl

theorem shown_eq_cut {x : Exchange} (hwhole : ∀ table names, c ≠ dropColumns table names)
    (h : c.shown d x = some part) : part = c.cut d := by
  cases x with
  | count q a =>
    cases a with
    | error cause => cases h
    | ok n =>
      simp only [shown, Option.ite_none_right_eq_some, Option.some.injEq] at h
      exact h.2.symm
  | list q a =>
    cases a with
    | error cause => cases h
    | ok existing =>
      cases c with
      | dropColumns table names => exact (hwhole table names rfl).elim
      | _ => cases h
  | _ => cases h

theorem build_error_iff (hs : c.supported d = true) :
    (∃ e, c.build d = .error e) ↔ ¬ c.WellFormed d := by
  rw [← check_eq_ok_iff]
  rcases c.build_cases d with ⟨flaw, hcheck, hb⟩ | ⟨hcheck, hs', hb⟩ | ⟨hcheck, hs', hb⟩
  · simp [hcheck, hb]
  · rw [hs] at hs'
    cases hs'
  · simp [hcheck, hb]

theorem LooksWith.readsCatalog {x : Exchange} (h : c.LooksWith d x) : x.ReadsCatalog := by
  unfold LooksWith at h
  split at h
  case h_6 => exact h.elim
  all_goals
    subst h
    trivial

/-- The mistake is that the dialect does not support the request, or it is in what the answers show
to be there. -/
def Noticed (d : Dialect) (c : Change) (xs : List Exchange) : Prop :=
  c.supported d = false ∨
    ∃ x ∈ xs, ∃ part e, c.shown d x = some part ∧ part.build d = .error e

/-- What becomes of a request to drop something that cannot be built because of `e`, if the catalog
answers. -/
structure SeesShown (d : Dialect) (c : Change) (e : MigrationError) (xs : List Exchange)
    (r : Except MigrationError Bool) : Prop where
  /-- It fails before anything is sent exactly if the mistake is noticed. -/
  refused_iff : ((∃ e', r = .error e') ∧ statementsIn xs = []) ↔ c.Noticed d xs
  /-- Of a table, an index or a constraint all of the request is looked at, if it is there: the
  error then is that of building it, and otherwise nothing happens. -/
  whole : (∀ table names, c ≠ dropColumns table names) → c.supported d = true →
    statementsIn xs = [] ∧ (r = .error e ∨ r = .ok false ∧ ∀ x ∈ xs, c.shown d x = none)
  /-- Of columns it is those that are there: a mistake is noticed if there are any, and the name of
  the table is no good, or one of theirs, or one of them is listed twice. -/
  columns : ∀ table names, c = dropColumns table names → ∃ existing,
    xs.head? = some (.list (.columns table) (.ok existing)) ∧
    (c.Noticed d xs ↔ (∃ n ∈ names, Guarded.hasName existing n = true) ∧
      (¬ Name.Good d table ∨
        (∃ n ∈ names, Guarded.hasName existing n = true ∧ ¬ Name.Good d n) ∨
        ¬ (names.filter (Guarded.hasName existing)).Nodup))
  /-- If the mistake is not noticed, nothing happens, or the columns that are there are dropped as
  if the others had not been asked for. -/
  unnoticed : ¬ c.Noticed d xs → (r = .ok false ∧ statementsIn xs = []) ∨
    ∃ table names present l sent ys x, c = dropColumns table names ∧
      present.Sublist names ∧ (dropColumns table present).build d = .ok l ∧
      xs = x :: ys ∧ Exchange.Sending l ys sent ∧ r = sent.map fun _ => true

variable {e : MigrationError} {x : Exchange} {table : String} {names : List String}

/-- What statements are answered shows nothing. -/
theorem shown_of_executes (h : x.Executes) : c.shown d x = none := by
  cases x with
  | execute s a => rfl
  | _ => exact h.elim

theorem noticed_cons (hs : c.supported d = true) (hys : ∀ y ∈ ys, y.Executes) :
    c.Noticed d (x :: ys) ↔ ∃ part e, c.shown d x = some part ∧ part.build d = .error e := by
  simp only [Noticed, hs, Bool.true_eq_false, false_or, List.mem_cons, exists_eq_or_imp]
  constructor
  · rintro (hx | ⟨y, hy, part, e, hshown, -⟩)
    · exact hx
    · rw [shown_of_executes (hys y hy)] at hshown
      cases hshown
  · exact .inl

theorem shown_columns {q : ListQuery} {existing : List String} :
    (dropColumns table names).shown d (.list q (.ok existing)) = some part ↔
      names.filter (Guarded.hasName existing) ≠ [] ∧
        part = dropColumns table (names.filter (Guarded.hasName existing)) := by
  simp only [shown]
  split
  · next hnone => simp [hnone]
  · next hsome =>
    rw [Option.some.injEq]
    exact ⟨fun h => ⟨hsome, h.symm⟩, fun h => h.2.symm⟩

/-- Which mistakes are seen in a list of columns. -/
theorem noticed_columns {existing : List String} (hys : ∀ y ∈ ys, y.Executes) :
    (dropColumns table names).Noticed d (.list (.columns table) (.ok existing) :: ys) ↔
      (∃ n ∈ names, Guarded.hasName existing n = true) ∧
      (¬ Name.Good d table ∨
        (∃ n ∈ names, Guarded.hasName existing n = true ∧ ¬ Name.Good d n) ∨
        ¬ (names.filter (Guarded.hasName existing)).Nodup) := by
  have hpresent : names.filter (Guarded.hasName existing) ≠ [] ↔
      ∃ n ∈ names, Guarded.hasName existing n = true := by
    simp [List.filter_eq_nil_iff]
  rw [noticed_cons rfl hys, ← hpresent]
  simp only [shown_columns, and_assoc, exists_and_left, exists_eq_left]
  refine and_congr_right fun hne => ?_
  rw [build_error_iff rfl]
  constructor
  · intro hflawed
    by_contra! hgood
    obtain ⟨htable, hnames, hdistinct⟩ := hgood
    refine hflawed ⟨htable, hne, fun n hn => ?_, hdistinct⟩
    obtain ⟨hn, hhas⟩ := List.mem_filter.mp hn
    exact hnames n hn hhas
  · rintro (htable | ⟨n, hn, hhas, hbad⟩ | hdouble) ⟨hgood, hcolumns⟩
    · exact htable hgood
    · exact hbad (hcolumns.good n (List.mem_filter.mpr ⟨hn, hhas⟩))
    · exact hdouble hcolumns.distinct

/-- A request to drop columns looks for the columns of its table. -/
theorem Looks.columns (h : (dropColumns table names).Looks d x) (hanswered : ¬ x.Failed) :
    ∃ existing, x = .list (.columns table) (.ok existing) := by
  cases x with
  | list q a =>
    obtain ⟨-, rfl⟩ := h
    cases a with
    | error cause => exact (hanswered trivial).elim
    | ok existing => exact ⟨existing, rfl⟩
  | _ => exact h.question.elim

theorem Looks.noticed_columns (hlooks : c.Looks d x) (hanswered : ¬ x.Failed)
    (hys : ∀ y ∈ ys, y.Executes) : ∀ table names, c = dropColumns table names →
      ∃ existing, (x :: ys).head? = some (.list (.columns table) (.ok existing)) ∧
      (c.Noticed d (x :: ys) ↔ (∃ n ∈ names, Guarded.hasName existing n = true) ∧
        (¬ Name.Good d table ∨
          (∃ n ∈ names, Guarded.hasName existing n = true ∧ ¬ Name.Good d n) ∨
          ¬ (names.filter (Guarded.hasName existing)).Nodup)) := by
  rintro table names rfl
  obtain ⟨existing, rfl⟩ := hlooks.columns hanswered
  exact ⟨existing, rfl, Change.noticed_columns hys⟩

/-- Looking sends no statement. -/
theorem Looks.statementsIn_cons (hlooks : c.Looks d x) (ys : List Exchange) :
    statementsIn (x :: ys) = statementsIn ys := by
  rw [← List.singleton_append, statementsIn_append, statementsIn_questions, List.nil_append]
  exact List.forall_mem_singleton.mpr hlooks.question.readsCatalog.isQuestion

/-- **A mistake in a request to drop something is seen in what is shown.** -/
theorem DropCourse.seesShown (h : c.DropCourse d xs r) (hbuild : c.build d = .error e)
    (hread : ∀ x ∈ xs, x.ReadsCatalog → ¬ x.Failed) : c.SeesShown d e xs r := by
  have hnone : ∀ y ∈ ([] : List Exchange), y.Executes := List.forall_mem_nil _
  cases h with
  | unsupported hs =>
    have hnoticed : c.Noticed d [] := .inl hs
    refine ⟨iff_of_true ⟨⟨_, rfl⟩, rfl⟩ hnoticed, ?_, ?_,
      fun hnot => (hnot hnoticed).elim⟩
    · intro _ hs'
      rw [hs] at hs'
      cases hs'
    · rintro table names rfl
      cases hs
  | unanswered hlooks hfailed =>
    exact (hread _ (List.mem_singleton_self _) hlooks.question.readsCatalog hfailed).elim
  | @nothing x hlooks hanswered hshown =>
    have hsent : statementsIn [x] = [] := hlooks.statementsIn_cons []
    have hnot : ¬ c.Noticed d [x] := by
      rw [noticed_cons hlooks.supported hnone, hshown]
      rintro ⟨_, _, h, -⟩
      cases h
    refine ⟨iff_of_false (fun h => nomatch h.1) hnot, fun _ _ => ⟨hsent, .inr ⟨rfl, ?_⟩⟩,
      hlooks.noticed_columns hanswered hnone, fun _ => .inl ⟨rfl, hsent⟩⟩
    exact List.forall_mem_singleton.mpr hshown
  | @refused x part e' hlooks hshown hrefused =>
    have hanswered := hread _ (List.mem_singleton_self _) hlooks.question.readsCatalog
    have hsent : statementsIn [x] = [] := hlooks.statementsIn_cons []
    have hnoticed : c.Noticed d [x] :=
      (noticed_cons hlooks.supported hnone).mpr ⟨part, e', hshown, hrefused⟩
    refine ⟨iff_of_true ⟨⟨e', rfl⟩, hsent⟩ hnoticed, fun hwhole _ => ⟨hsent, .inl ?_⟩,
      hlooks.noticed_columns hanswered hnone, fun hnot => (hnot hnoticed).elim⟩
    rw [shown_eq_cut hwhole hshown, build_cut, hbuild] at hrefused
    cases hrefused
    rfl
  | @sent x ys part l sent hlooks hshown hbuilt hsent =>
    have hanswered := hread _ List.mem_cons_self hlooks.question.readsCatalog
    have hne : statementsIn (x :: ys) ≠ [] := by
      rw [hlooks.statementsIn_cons]
      exact hsent.statementsIn_ne_nil (build_ne_nil hbuilt)
    have hnot : ¬ c.Noticed d (x :: ys) := by
      rw [noticed_cons hlooks.supported hsent.executes, hshown]
      rintro ⟨part', e', hpart, he'⟩
      cases hpart
      rw [hbuilt] at he'
      cases he'
    have hcolumns : ¬ ∀ table names, c ≠ dropColumns table names := fun hwhole => by
      rw [shown_eq_cut hwhole hshown, build_cut, hbuild] at hbuilt
      cases hbuilt
    refine ⟨iff_of_false (fun h => hne h.2) hnot, fun hwhole => (hcolumns hwhole).elim,
      hlooks.noticed_columns hanswered hsent.executes, fun _ => .inr ?_⟩
    simp only [ne_eq, not_forall, not_not] at hcolumns
    obtain ⟨table, names, rfl⟩ := hcolumns
    obtain ⟨existing, rfl⟩ := hlooks.columns hanswered
    obtain ⟨-, rfl⟩ := shown_columns.mp hshown
    exact ⟨table, names, _, l, sent, ys, _, rfl, List.filter_sublist, hbuilt, rfl, hsent, rfl⟩

/-- **What becomes of a request to drop something that cannot be built.**  If the catalog answers,
whatever the answers are, the request is refused before anything is sent exactly if the dialect does
not support it or the mistake is in what the answers show to be there. -/
theorem ensure_sees_shown {σ : Type} (hdrop : c.IsDrop) (hbuild : c.build d = .error e)
    (srv : Server σ) (span : Option Span) (w : World σ)
    (hread : ∀ x ∈ srv.exchanges w (World.leftBy ((c.ensure d).run srv span w)),
      x.ReadsCatalog → ¬ x.Failed) :
    c.SeesShown d e (srv.exchanges w (World.leftBy ((c.ensure d).run srv span w)))
      (World.outcome ((c.ensure d).run srv span w)) := by
  obtain ⟨xs, r, w', hrun, hpath, -⟩ := (c.ensure d).run_performs srv span w
  rw [hrun.eq, World.leftBy_ended, hrun.leads.exchanges] at hread ⊢
  rw [World.outcome_ended]
  exact (ensure_dropCourse hdrop hpath).seesShown hbuild hread

end Change

namespace Catalog

/-- A catalog answers every question after the schema. -/
theorem answers_of_gives {d : Dialect} {c : Catalog} {xs : List Exchange}
    (h : (server d).Gives c xs) : ∀ x ∈ xs, x.ReadsCatalog → ¬ x.Failed := by
  induction xs generalizing c with
  | nil => exact List.forall_mem_nil _
  | cons x xs ih =>
    obtain ⟨hx, hrest⟩ := h
    refine List.forall_mem_cons.mpr ⟨fun hreads hfailed => ?_, ih hrest⟩
    cases x with
    | count q a =>
      cases q <;> cases hx <;> first | exact hreads | exact hfailed
    | list q a =>
      cases q <;> cases hx <;> first | exact hreads | exact hfailed
    | _ => exact hreads

theorem run_answers {α : Type} (d : Dialect) (p : Program α) (span : Option Span)
    (w : World Catalog) : ∀ x ∈ (server d).exchanges w (World.leftBy (p.run (server d) span w)),
      x.ReadsCatalog → ¬ x.Failed := by
  obtain ⟨xs, r, w', hrun, -⟩ := p.run_performs (server d) span w
  rw [hrun.eq, World.leftBy_ended, hrun.leads.exchanges]
  exact answers_of_gives hrun.leads.gives

end Catalog

namespace Change

/-- A request to drop a column of the users, which is listed twice. -/
def emailTwice : Change :=
  .dropColumns "users" ["email", "email"]

/-- The error of building it. -/
def emailDoubled : MigrationError :=
  .malformed (.duplicateColumn (.table "users") "email")

/-- Users without that column. -/
def bareUsers : Catalog where
  tables := [⟨"users", [{ name := "id", type := .bigInteger }]⟩]

/-- Where the column is there, the mistake is seen. -/
theorem emailTwice_seen :
    emailTwice.IsDrop ∧ emailTwice.build .sqlite = .error emailDoubled ∧
      (∀ x ∈ (Catalog.server .sqlite).exchanges { server := keyedUsers } (World.leftBy
        ((emailTwice.ensure .sqlite).run (Catalog.server .sqlite) none { server := keyedUsers })),
        x.ReadsCatalog → ¬ x.Failed) ∧
      World.outcome ((emailTwice.ensure .sqlite).run (Catalog.server .sqlite) none
        { server := keyedUsers }) = .error emailDoubled ∧
      emailTwice.SeesShown .sqlite emailDoubled
        ((Catalog.server .sqlite).exchanges { server := keyedUsers } (World.leftBy
          ((emailTwice.ensure .sqlite).run (Catalog.server .sqlite) none { server := keyedUsers })))
        (World.outcome ((emailTwice.ensure .sqlite).run (Catalog.server .sqlite) none
          { server := keyedUsers })) := by
  have hdrop : emailTwice.IsDrop := trivial
  have hbuild : emailTwice.build .sqlite = .error emailDoubled := by decide +kernel
  have hread :=
    Catalog.run_answers .sqlite (emailTwice.ensure .sqlite) none { server := keyedUsers }
  exact ⟨hdrop, hbuild, hread, by decide +kernel,
    ensure_sees_shown hdrop hbuild (Catalog.server .sqlite) none { server := keyedUsers } hread⟩

/-- **Where it is not there, the mistake goes unnoticed**: the request ends as if all was well. -/
theorem dropColumns_unnoticed :
    emailTwice.IsDrop ∧ emailTwice.build .sqlite = .error emailDoubled ∧
      World.outcome ((emailTwice.ensure .sqlite).run (Catalog.server .sqlite) none
        { server := bareUsers }) = .ok false := by
  refine ⟨trivial, by decide +kernel, by decide +kernel⟩

end Change
end SchemaMigration
