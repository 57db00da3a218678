import SchemaMigration.Change
import SchemaMigration.Event
import SchemaMigration.Progress

/-!
# Programs

What a unit of work does with a connection: it sends statements, asks questions, tells events, looks
at the progress of the run, and ends with a result or an error.  A program is the tree of all its
requests, with one branch for each answer, so nothing is fixed about who answers: a list of prepared
replies, a model of a database, or a database.
-/
namespace SchemaMigration

/-- A unit of work with a result in `α`. -/
inductive Program (α : Type) where
  | done (result : Except MigrationError α)
  | execute (s : Statement) (next : Except DriverError Unit → Program α)
  | count (q : CountQuery) (next : Except DriverError Int → Program α)
  | list (q : ListQuery) (next : Except DriverError (List String) → Program α)
  | tell (e : Event) (next : Program α)
  | observe (next : Progress → Program α)

namespace Program

variable {α β γ : Type}

/-- Runs the second program after the first, unless that fails. -/
def bind : Program α → (α → Program β) → Program β
  | done (.ok a), f => f a
  | done (.error e), _ => done (.error e)
  | execute s next, f => execute s fun r => (next r).bind f
  | count q next, f => count q fun r => (next r).bind f
  | list q next, f => list q fun r => (next r).bind f
  | tell e next, f => tell e (next.bind f)
  | observe next, f => observe fun p => (next p).bind f

instance : Monad Program where
  pure a := done (.ok a)
  bind := bind

/-- The program that fails. -/
def fail (e : MigrationError) : Program α :=
  done (.error e)

/-- The program that ends with a result that is known already. -/
def ofExcept (r : Except MigrationError α) : Program α :=
  done r

/-- Sends a statement. -/
def send (s : Statement) : Program Unit :=
  execute s fun r => done (r.mapError .driver)

/-- Sends statements one by one. -/
def sendAll : List Statement → Program Unit
  | [] => pure ()
  | s :: rest => do
    send s
    sendAll rest

/-- Asks for a number. -/
def ask (q : CountQuery) : Program Int :=
  count q fun r => done (r.mapError .driver)

/-- Asks for texts. -/
def askList (q : ListQuery) : Program (List String) :=
  list q fun r => done (r.mapError .driver)

/-- Tells an event. -/
def note (e : Event) : Program Unit :=
  tell e (pure ())

/-- Looks at the progress of the run. -/
def progress : Program Progress :=
  observe pure

/-- Whether the catalog holds an object. -/
def holds (o : SchemaObject) : Program Bool := do
  return (← ask (.object o)) > 0

/-- Whether a table has a primary key. -/
def hasPrimaryKey (table : String) : Program Bool := do
  return (← ask (.primaryKey table)) > 0

/-- Sends the statements of a change. -/
def perform (d : Dialect) (change : Change) : Program Unit := do
  sendAll (← ofExcept (change.build d))

@[simp] theorem pure_bind (a : α) (f : α → Program β) : (pure a : Program α) >>= f = f a := rfl

@[simp] theorem fail_bind (e : MigrationError) (f : α → Program β) :
    (fail e : Program α) >>= f = fail e := rfl

theorem bind_pure (p : Program α) : p >>= pure = p := by
  show p.bind pure = p
  induction p with
  | done r => cases r <;> rfl
  | execute _ _ ih => exact congrArg _ (funext ih)
  | count _ _ ih => exact congrArg _ (funext ih)
  | list _ _ ih => exact congrArg _ (funext ih)
  | tell _ _ ih => exact congrArg _ ih
  | observe _ ih => exact congrArg _ (funext ih)

theorem bind_assoc (p : Program α) (f : α → Program β) (g : β → Program γ) :
    p >>= f >>= g = p >>= fun a => f a >>= g := by
  show (p.bind f).bind g = p.bind fun a => (f a).bind g
  induction p with
  | done r => cases r <;> rfl
  | execute _ _ ih => exact congrArg _ (funext ih)
  | count _ _ ih => exact congrArg _ (funext ih)
  | list _ _ ih => exact congrArg _ (funext ih)
  | tell _ _ ih => exact congrArg _ ih
  | observe _ ih => exact congrArg _ (funext ih)

end Program
end SchemaMigration
