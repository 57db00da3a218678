import SchemaMigration.Script
import SchemaMigration.Proofs.SafeDrops
import SchemaMigration.Proofs.WellFormed

/-!
# Changes that are refused before anything is asked

Creating, adding and altering build the whole change before they look at the database.  If it can be
built, so can what is left of it, since of columns that can be added together any can be added
(`Change.WellFormed.fewer`, `Change.Remains.build`).  So a change that cannot be built leaves the
database alone, and one that can fails for reasons of the database only
(`Change.ensure_fails_fast`).
-/
namespace SchemaMigration
open Program

/-- The error comes from the database or from what it holds. -/
def MigrationError.IsFromDatabase : MigrationError → Prop
  | .driver _ | .conflict _ => True
  | _ => False

theorem MigrationError.fromDatabase_isFromDatabase : FromDatabase IsFromDatabase :=
  ⟨fun _ => trivial, fun _ => trivial⟩

theorem Column.GoodTogether.fewer {d : Dialect} {columns part : List Column}
    (h : GoodTogether d columns) (hsub : part.Sublist columns) (hne : part ≠ []) :
    GoodTogether d part where
  nonempty := hne
  good k hk := h.good k (hsub.subset hk)
  distinct := h.distinct.sublist (hsub.map _)

namespace Change

variable {d : Dialect} {c : Change} {l : List Statement}

/-- Of columns that can be added together, any can be added. -/
theorem WellFormed.fewer {table : String} {columns part : List Column}
    (h : (addColumns table columns).WellFormed d) (hsub : part.Sublist columns) (hne : part ≠ []) :
    (addColumns table part).WellFormed d := by
  obtain ⟨htable, hcolumns, hvalues⟩ := h
  exact ⟨htable, hcolumns.fewer hsub hne, fun k hk => hvalues k (hsub.subset hk)⟩

/-- **What is left of a change that can be built can be built.** -/
theorem Remains.build {part : Change} (hpart : c.Remains part) (h : c.build d = .ok l) :
    part.build d = .ok (part.statements d) := by
  cases hpart with
  | all =>
    obtain ⟨hcheck, hsupported, -⟩ := build_eq_ok.mp h
    exact build_eq_ok.mpr ⟨hcheck, hsupported, rfl⟩
  | columns hsub hne =>
    have hwell := check_eq_ok_iff.mp (build_eq_ok.mp h).1
    exact build_eq_ok.mpr ⟨check_eq_ok_iff.mpr (hwell.fewer hsub hne), rfl, rfl⟩

/-- So building can no longer fail once the whole change could be built. -/
theorem mayFail_of_build (h : c.build d = .ok l) :
    c.MayFail d MigrationError.IsFromDatabase where
  fromDatabase := MigrationError.fromDatabase_isFromDatabase
  building part hpart e he := by
    rw [hpart.build h] at he
    cases he

/-- **A change that is no drop fails fast, and only then.**  If it cannot be built, the error is
that of building it, and the world is left as it was: nothing was sent and nothing asked.  If it can
be built, it fails because of the database or a conflict, whatever it is answered, and neither for a
flaw nor for the lack of support. -/
theorem ensure_fails_fast {σ : Type} (d : Dialect) (c : Change) (hdrop : ¬ c.IsDrop)
    (srv : Server σ) (span : Option Span) (w : World σ) :
    (∀ e, c.build d = .error e → (c.ensure d).run srv span w = .error e w) ∧
    ∀ l, c.build d = .ok l → ∀ e, World.outcome ((c.ensure d).run srv span w) = .error e →
      (∃ cause, e = .driver cause) ∨ ∃ cause, e = .conflict cause := by
  obtain ⟨rest, hensure, hrest⟩ := ensure_builds_first d hdrop
  refine ⟨fun e he => ?_, fun l hl e he => ?_⟩
  · rw [hensure, he]
    rfl
  · have hfollows : c.ensure d = rest := by
      rw [hensure, hl]
      rfl
    have horderly := hrest _ (mayFail_of_build hl)
    obtain ⟨xs, r, w', hrun, hpath, -⟩ := rest.run_performs srv span w
    rw [hfollows, hrun.eq, World.outcome_ended] at he
    have hfrom : e.IsFromDatabase := (horderly.within.of_path hpath).2 e he
    cases e with
    | driver cause => exact .inl ⟨cause, rfl⟩
    | conflict cause => exact .inr ⟨cause, rfl⟩
    | _ => exact hfrom.elim

/-- A constraint that SQLite cannot add to a table. -/
def uniqueEmail : Change :=
  .addConstraint ⟨"users", "uq_email", .unique, ["email"]⟩

/-- Columns that MySQL can add to a table. -/
def userColumns : Change :=
  .addColumns "users"
    [{ name := "id", type := .bigInteger }, { name := "email", type := .varchar 100 }]

/-- The table is there with one of the columns, and the connection breaks when the other is
added. -/
def broken : World Script where
  server := { replies := [.number 1, .texts ["id"], .failure (.io "broken pipe")] }

theorem uniqueEmail_fails_fast :
    ¬ uniqueEmail.IsDrop ∧ ¬ userColumns.IsDrop ∧
      uniqueEmail.build .sqlite = .error (.unsupported "add constraint" .sqlite) ∧
      (uniqueEmail.ensure .sqlite).run (Catalog.server .sqlite) none { server := keyedUsers } =
        .error (.unsupported "add constraint" .sqlite) { server := keyedUsers } ∧
      userColumns.build .mysql = .ok (userColumns.statements .mysql) ∧
      World.outcome ((userColumns.ensure .mysql).run Script.server none broken) =
        .error (.driver (.io "broken pipe")) ∧
      ∀ e, World.outcome ((userColumns.ensure .mysql).run Script.server none broken) = .error e →
        (∃ cause, e = .driver cause) ∨ ∃ cause, e = .conflict cause := by
  have hunique : ¬ uniqueEmail.IsDrop := fun h => h
  have hcolumns : ¬ userColumns.IsDrop := fun h => h
  have hrefused : uniqueEmail.build .sqlite = .error (.unsupported "add constraint" .sqlite) := by
    decide +kernel
  have hbuilt : userColumns.build .mysql = .ok (userColumns.statements .mysql) := by decide +kernel
  exact ⟨hunique, hcolumns, hrefused,
    (ensure_fails_fast .sqlite uniqueEmail hunique _ none _).1 _ hrefused, hbuilt,
    by decide +kernel, (ensure_fails_fast .mysql userColumns hcolumns _ none broken).2 _ hbuilt⟩

end Change
end SchemaMigration
