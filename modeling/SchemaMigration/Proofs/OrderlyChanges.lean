import SchemaMigration.Shipped
import SchemaMigration.Proofs.Paths

/-!
# Guarded changes are orderly

Whatever a guarded change is answered, it sends statements of the change only, or of a part of it
where columns are there already (`Change.PartOf`), its errors name the connection, a conflict, a
flaw or the lack of support, and it stops at the first answer that is an error
(`Change.ensure_orderly`).

Changes that are no drops are built before anything is asked (`Change.ensure_builds_first`).  What
follows fails because of the database or a conflict, or because what is left of the change cannot be
built; which errors these are is left open there.
-/
namespace SchemaMigration
open Program

/-- An error that a change of the schema can end with. -/
def MigrationError.OfChange : MigrationError → Prop
  | .driver _ | .conflict _ | .malformed _ | .unsupported _ _ => True
  | _ => False

/-- Among the errors are all that come from the database or from what it holds. -/
structure MigrationError.FromDatabase (E : MigrationError → Prop) : Prop where
  driver : ∀ cause, E (.driver cause)
  conflict : ∀ cause, E (.conflict cause)

theorem MigrationError.ofChange_fromDatabase : FromDatabase OfChange :=
  ⟨fun _ => trivial, fun _ => trivial⟩

namespace Change

/-- The change is the other one, or is about some of its columns. -/
def PartOf : Change → Change → Prop
  | addColumns table columns, addColumns table' columns' => table = table' ∧ columns ⊆ columns'
  | dropColumns table columns, dropColumns table' columns' => table = table' ∧ columns ⊆ columns'
  | c, c' => c = c'

theorem partOf_refl (c : Change) : c.PartOf c := by
  cases c <;> simp [PartOf]

/-- The request is to drop something. -/
def IsDrop : Change → Prop
  | dropTable _ | dropIndex _ _ | dropColumns _ _ | dropConstraint _ _ _ => True
  | _ => False

/-- What is left to carry out of a change that is no drop: all of it, or of columns to be added
those that are missing. -/
inductive Remains : Change → Change → Prop
  | all (c : Change) : Remains c c
  | columns {table : String} {columns part : List Column} (hsub : part.Sublist columns)
    (hne : part ≠ []) : Remains (addColumns table columns) (addColumns table part)

theorem Remains.partOf {c part : Change} (h : c.Remains part) : part.PartOf c := by
  cases h with
  | all => exact c.partOf_refl
  | columns hsub => exact ⟨rfl, hsub.subset⟩

/-- What carrying out a change may ask for: anything about the schema, and to send its own
statements or those of a part of it. -/
def MayAsk (d : Dialect) (c : Change) : Entry → Prop
  | .execute s => ∃ part : Change, part.PartOf c ∧ s ∈ part.statements d
  | .count _ | .list _ => True
  | _ => False

theorem mayAsk_statements (d : Dialect) (c : Change) :
    ∀ s ∈ c.statements d, c.MayAsk d (.execute s) :=
  fun _ hs => ⟨c, c.partOf_refl, hs⟩

/-- Among the errors are all that a change can fail with once it is built: those that come from the
database, and those of building what is left to carry out. -/
structure MayFail (d : Dialect) (c : Change) (E : MigrationError → Prop) : Prop where
  fromDatabase : MigrationError.FromDatabase E
  building : ∀ part, c.Remains part → ∀ e, part.build d = .error e → E e

/-- **A change is refused for a flaw, refused as unsupported, or built**, in this order. -/
theorem build_cases (d : Dialect) (c : Change) :
    (∃ f, c.check d = .error f ∧ c.build d = .error (.malformed f)) ∨
      (c.check d = .ok () ∧ c.supported d = false ∧
        c.build d = .error (.unsupported c.operation d)) ∨
      (c.check d = .ok () ∧ c.supported d = true ∧ c.build d = .ok (c.statements d)) := by
  unfold build
  cases hc : c.check d with
  | error f => exact Or.inl ⟨f, rfl, rfl⟩
  | ok =>
    right
    cases hs : c.supported d with
    | false => exact Or.inl ⟨rfl, rfl, rfl⟩
    | true => exact Or.inr ⟨rfl, rfl, rfl⟩

end Change

namespace Guarded

variable {S : Entry → Prop} {E : MigrationError → Prop} {d : Dialect} {c : Change}

theorem ofChange_of_build {e : MigrationError} (h : c.build d = .error e) : e.OfChange := by
  rcases c.build_cases d with ⟨f, -, hb⟩ | ⟨-, -, hb⟩ | ⟨-, -, hb⟩ <;> rw [hb] at h <;> cases h
  · trivial
  · trivial

theorem requireSupport_orderly (d : Dialect) (c : Change) :
    (requireSupport d c).Orderly S MigrationError.OfChange := by
  unfold requireSupport
  split
  · exact orderly_pure ()
  · exact orderly_fail trivial

theorem requireTable_orderly (hE : MigrationError.FromDatabase E) (hS : ∀ q, S (.count q))
    (table : String) : (requireTable table).Orderly S E := by
  refine (orderly_holds hE.driver (hS _)).bind fun found => ?_
  cases found with
  | true => exact orderly_pure _
  | false => exact orderly_fail (hE.conflict _)

theorem requireFreeIndexName_orderly (hE : MigrationError.FromDatabase E) (hS : ∀ q, S (.list q))
    (d : Dialect) (i : Index) : (requireFreeIndexName d i).Orderly S E := by
  unfold requireFreeIndexName
  split
  · refine (orderly_askList hE.driver (hS _)).bind fun owners => ?_
    cases owners with
    | nil => exact orderly_pure ()
    | cons owner _ => exact orderly_fail (hE.conflict _)
  · exact orderly_pure _

theorem holdsConstraint_orderly (hE : MigrationError.FromDatabase E) (hS : ∀ q, S (.count q))
    (table name : String) (kind : ConstraintKind) :
    (holdsConstraint table name kind).Orderly S E := by
  cases kind with
  | primaryKey => exact (orderly_ask hE.driver (hS _)).bind fun _ => orderly_pure _
  | unique => exact orderly_holds hE.driver (hS _)

/-- What a change carries out may be a part of it. -/
theorem carryOut_orderly (hE : MigrationError.FromDatabase E) {part : Change}
    (hbuild : ∀ e, part.build d = .error e → E e) (h : ∀ s ∈ part.statements d, S (.execute s)) :
    (carryOut d part).Orderly S E := by
  refine .bind ?_ fun _ => orderly_pure _
  show (Program.ofExcept (part.build d) >>= sendAll).Orderly _ _
  rcases part.build_cases d with ⟨f, -, hb⟩ | ⟨-, -, hb⟩ | ⟨-, -, hb⟩
  · rw [hb]
    exact orderly_fail (hbuild _ hb)
  · rw [hb]
    exact orderly_fail (hbuild _ hb)
  · rw [hb]
    exact orderly_sendAll hE.driver h

theorem skip_orderly (e : Event) : (skip e).Orderly S E :=
  (orderly_note e).bind fun _ => orderly_pure _

/-- Looking for an object and going on either way. -/
theorem holds_orderly (hE : MigrationError.FromDatabase E) (hS : ∀ q, S (.count q))
    {o : SchemaObject} {yes no : Program Bool} (hyes : yes.Orderly S E) (hno : no.Orderly S E) :
    (Program.holds o >>= fun found => if found then yes else no).Orderly S E := by
  refine (orderly_holds hE.driver (hS _)).bind fun found => ?_
  cases found with
  | true => exact hyes
  | false => exact hno

/-! ## What is asked before the database -/

section Requirements

variable (next : Unit → Program Bool)

theorem requireBuild_bind :
    (requireBuild d c >>= next) = (ofExcept (c.build d) >>= fun _ => next ()) :=
  bind_assoc (ofExcept (c.build d)) (fun _ => pure ()) next

/-- Looking for flaws and for support, in this order, is building. -/
theorem requireSound_requireSupport_bind :
    (requireSound (c.check d) >>= fun _ => requireSupport d c >>= next) =
      (ofExcept (c.build d) >>= fun _ => next ()) := by
  rcases c.build_cases d with ⟨flaw, hcheck, hb⟩ | ⟨hcheck, hs, hb⟩ | ⟨hcheck, hs, hb⟩
  · rw [hb, hcheck]
    rfl
  · rw [hb, hcheck, requireSupport, hs]
    rfl
  · rw [hb, hcheck, requireSupport, hs]
    rfl

/-- What every dialect supports is built if it has no flaw. -/
theorem requireSound_bind (hs : c.supported d = true) :
    (requireSound (c.check d) >>= next) = (ofExcept (c.build d) >>= fun _ => next ()) := by
  have hsupport : (requireSupport d c >>= next) = next () := by
    rw [requireSupport, if_pos hs]
    rfl
  rw [← requireSound_requireSupport_bind, hsupport]

end Requirements

end Guarded

namespace Change

/-- **A change that is no drop is built first**, and what follows is orderly. -/
theorem ensure_builds_first {c : Change} (d : Dialect) (hdrop : ¬ c.IsDrop) :
    ∃ rest : Program Bool, c.ensure d = (ofExcept (c.build d) >>= fun _ => rest) ∧
      ∀ E, c.MayFail d E → rest.Orderly (c.MayAsk d) E := by
  have hcount : ∀ q, c.MayAsk d (.count q) := fun _ => trivial
  have hlist : ∀ q, c.MayAsk d (.list q) := fun _ => trivial
  have hcarry : ∀ E, c.MayFail d E → ∀ part, c.Remains part →
      (Guarded.carryOut d part).Orderly (c.MayAsk d) E := fun E hfail part hpart =>
    Guarded.carryOut_orderly hfail.fromDatabase (hfail.building part hpart)
      fun s hs => ⟨part, hpart.partOf, hs⟩
  have hself : ∀ E, c.MayFail d E → (Guarded.carryOut d c).Orderly (c.MayAsk d) E :=
    fun E hfail => hcarry E hfail c (.all c)
  cases c with
  | createTable t =>
    refine ⟨_, Guarded.requireSound_bind (c := createTable t) _ rfl, fun E hfail => ?_⟩
    have hE := hfail.fromDatabase
    refine Guarded.holds_orderly hE hcount ?_ (hself E hfail)
    refine (orderly_askList hE.driver (hlist _)).bind fun existing => ?_
    show Orderly _ _ (ite _ _ _)
    split
    · exact Guarded.skip_orderly _
    · exact orderly_fail (hE.conflict _)
  | createIndex i =>
    refine ⟨_, Guarded.requireSound_bind (c := createIndex i) _ rfl, fun E hfail => ?_⟩
    have hE := hfail.fromDatabase
    refine (Guarded.requireTable_orderly hE hcount _).bind fun _ =>
      Guarded.holds_orderly hE hcount (Guarded.skip_orderly _) ?_
    exact (Guarded.requireFreeIndexName_orderly hE hlist d i).bind fun _ => hself E hfail
  | addColumns table columns =>
    refine ⟨_, Guarded.requireBuild_bind _, fun E hfail => ?_⟩
    have hE := hfail.fromDatabase
    refine (Guarded.requireTable_orderly hE hcount _).bind fun _ =>
      (orderly_askList hE.driver (hlist _)).bind fun existing => ?_
    split
    · exact Guarded.skip_orderly _
    · next hmissing => exact hcarry E hfail _ (.columns List.filter_sublist hmissing)
  | alterColumnType table column =>
    refine ⟨_, Guarded.requireBuild_bind _, fun E hfail => ?_⟩
    have hE := hfail.fromDatabase
    exact Guarded.holds_orderly hE hcount (hself E hfail) (orderly_fail (hE.conflict _))
  | addConstraint k =>
    refine ⟨_, Guarded.requireSound_requireSupport_bind (c := addConstraint k) _,
      fun E hfail => ?_⟩
    have hE := hfail.fromDatabase
    refine (Guarded.requireTable_orderly hE hcount _).bind fun _ =>
      (Guarded.holdsConstraint_orderly hE hcount _ _ _).bind fun found => ?_
    cases found with
    | true => exact Guarded.skip_orderly _
    | false => exact hself E hfail
  | _ => exact (hdrop trivial).elim

/-- **Guarded changes are orderly.** -/
theorem ensure_orderly (d : Dialect) (c : Change) :
    (c.ensure d).Orderly (c.MayAsk d) MigrationError.OfChange := by
  have hE := MigrationError.ofChange_fromDatabase
  have hcount : ∀ q, c.MayAsk d (.count q) := fun _ => trivial
  have hlist : ∀ q, c.MayAsk d (.list q) := fun _ => trivial
  have hcarry : ∀ part : Change, (∀ s ∈ part.statements d, c.MayAsk d (.execute s)) →
      (Guarded.carryOut d part).Orderly (c.MayAsk d) MigrationError.OfChange := fun _ =>
    Guarded.carryOut_orderly hE fun _ => Guarded.ofChange_of_build
  have hbuilt (hdrop : ¬ c.IsDrop) :
      (c.ensure d).Orderly (c.MayAsk d) MigrationError.OfChange := by
    obtain ⟨rest, hensure, hrest⟩ := ensure_builds_first d hdrop
    rw [hensure]
    exact (orderly_ofExcept fun _ => Guarded.ofChange_of_build).bind fun _ =>
      hrest _ ⟨hE, fun _ _ _ => Guarded.ofChange_of_build⟩
  cases c with
  | dropTable table =>
    exact Guarded.holds_orderly hE hcount (hcarry _ (mayAsk_statements d _))
      (Guarded.skip_orderly _)
  | dropIndex table name =>
    -- the name is cut to its limit before the statement does so again
    refine Guarded.holds_orderly hE hcount (hcarry _ fun s hs => ?_) (Guarded.skip_orderly _)
    refine ⟨_, partOf_refl _, ?_⟩
    simpa only [statements, Dialect.fit_fit] using hs
  | dropColumns table columns =>
    refine (orderly_askList hE.driver (hlist _)).bind fun existing => ?_
    split
    · exact Guarded.skip_orderly _
    · refine hcarry _ fun s hs => ⟨.dropColumns table _, ⟨rfl, ?_⟩, hs⟩
      exact fun _ hin => (List.mem_filter.mp hin).1
  | dropConstraint table name kind =>
    refine (Guarded.requireSupport_orderly _ _).bind fun _ =>
      (Guarded.holdsConstraint_orderly hE hcount _ _ _).bind fun found => ?_
    cases found with
    | true =>
      refine hcarry _ fun s hs => ⟨_, partOf_refl _, ?_⟩
      simpa only [statements, Dialect.fit_fit] using hs
    | false => exact Guarded.skip_orderly _
  | _ => exact hbuilt fun h => h

end Change

/-- So are the shipped steps, each of which makes sure of one change. -/
theorem Shipped.step_orderly (n : Nat) (description : String) (c : Change)
    (h : n < 0x10000000000000000) (d : Dialect) :
    ((Shipped.step n description c h).body d).Orderly (c.MayAsk d) MigrationError.OfChange :=
  (c.ensure_orderly d).bind fun _ => orderly_pure _

end SchemaMigration
