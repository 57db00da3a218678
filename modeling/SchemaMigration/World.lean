import SchemaMigration.Program

/-!
# Running programs

A `Server` answers the requests of programs: it stands for a pool of connections and the database
behind them.  Running a program against a server yields its result and a journal of all that
happened, in order.  Nothing is assumed about the answers, so what is true of every run is true
whatever the database does.

Programs run one after the other as the one program that they form (`run_bind`).  They leave the
progress alone (`run_progress`), and the journal only grows (`run_journal`).
-/
namespace SchemaMigration

/-- What answers requests, with a state of its own. -/
structure Server (σ : Type) where
  connect : σ → Except DriverError Unit × σ
  execute : Statement → σ → Except DriverError Unit × σ
  count : CountQuery → σ → Except DriverError Int × σ
  list : ListQuery → σ → Except DriverError (List String) × σ

/-- The step that an event belongs to. -/
structure Span where
  version : Version
  description : String
  deriving DecidableEq

/-- Something that happened. -/
inductive Entry
  /-- A connection was asked for. -/
  | acquire
  | execute (s : Statement)
  | count (q : CountQuery)
  | list (q : ListQuery)
  | event (e : Event) (span : Option Span)
  /-- The progress was looked at. -/
  | progress (p : Progress)
  deriving DecidableEq

/-- A server in some state, what happened so far, and the progress of the latest run. -/
structure World (σ : Type) where
  server : σ
  journal : List Entry := []
  progress : Progress := {}
  /-- The pool was closed and gives out no connections any more. -/
  closed : Bool := false
  /-- The progress that is shown to steps, where it is not that of the run they belong to. -/
  shown : Option Progress := none

/-- What changes the world and may fail. -/
abbrev Action (σ α : Type) := EStateM MigrationError (World σ) α

namespace World

variable {σ : Type}

/-- The world with more entries in the journal. -/
def record (entries : List Entry) (w : World σ) : World σ :=
  { w with journal := w.journal ++ entries }

/-- The world after a request, which is entered in the journal and changed the state of the
server. -/
def served (entries : List Entry) (state : σ) (w : World σ) : World σ :=
  { w with server := state, journal := w.journal ++ entries }

@[simp] theorem record_journal (entries : List Entry) (w : World σ) :
    (w.record entries).journal = w.journal ++ entries := rfl

@[simp] theorem record_progress (entries : List Entry) (w : World σ) :
    (w.record entries).progress = w.progress := rfl

@[simp] theorem served_journal (entries : List Entry) (state : σ) (w : World σ) :
    (w.served entries state).journal = w.journal ++ entries := rfl

@[simp] theorem served_progress (entries : List Entry) (state : σ) (w : World σ) :
    (w.served entries state).progress = w.progress := rfl

/-- The progress that a step sees. -/
def visibleProgress (w : World σ) : Progress :=
  w.shown.getD w.progress

/-- Changes the progress. -/
def update (f : Progress → Progress) : Action σ Unit :=
  modify fun w => { w with progress := f w.progress }

/-- Tells an event. -/
def tell (e : Event) (span : Option Span) : Action σ Unit :=
  modify (record [.event e span])

/-- Takes a connection from the pool. -/
def connect (srv : Server σ) : Action σ Unit := fun w =>
  if w.closed then .error (.driver .poolClosed) w
  else
    match srv.connect w.server with
    | (.ok _, s) => .ok () (w.served [.acquire] s)
    | (.error e, s) => .error (.driver e) (w.served [.acquire] s)

/-- The world that an action leaves behind, whether it failed or not. -/
def leftBy {α : Type} : EStateM.Result MigrationError (World σ) α → World σ
  | .ok _ w => w
  | .error _ w => w

/-- Makes an error a result. -/
def settle {α : Type} (x : Action σ α) : Action σ (Except MigrationError α) := fun w =>
  match x w with
  | .ok a w => .ok (.ok a) w
  | .error e w => .ok (.error e) w

end World

namespace Program

variable {σ α β : Type}

/-- Runs a program on a connection that was taken before. -/
def run (srv : Server σ) (span : Option Span) : Program α → Action σ α
  | done (.ok a), w => .ok a w
  | done (.error e), w => .error e w
  | execute s next, w =>
    let (r, state) := srv.execute s w.server
    (next r).run srv span (w.served [.event (.executing s) span, .execute s] state)
  | count q next, w =>
    let (r, state) := srv.count q w.server
    (next r).run srv span (w.served [.event (.counting q) span, .count q] state)
  | list q next, w =>
    let (r, state) := srv.list q w.server
    (next r).run srv span (w.served [.event (.listing q) span, .list q] state)
  | tell e next, w => next.run srv span (w.record [.event e span])
  | observe next, w =>
    (next w.visibleProgress).run srv span (w.record [.progress w.visibleProgress])

theorem run_execute (srv : Server σ) (span : Option Span) (s : Statement)
    (next : Except DriverError Unit → Program α) (w : World σ) :
    (execute s next).run srv span w =
      (next (srv.execute s w.server).1).run srv span
        (w.served [.event (.executing s) span, .execute s] (srv.execute s w.server).2) := rfl

theorem run_count (srv : Server σ) (span : Option Span) (q : CountQuery)
    (next : Except DriverError Int → Program α) (w : World σ) :
    (count q next).run srv span w =
      (next (srv.count q w.server).1).run srv span
        (w.served [.event (.counting q) span, .count q] (srv.count q w.server).2) := rfl

theorem run_list (srv : Server σ) (span : Option Span) (q : ListQuery)
    (next : Except DriverError (List String) → Program α) (w : World σ) :
    (list q next).run srv span w =
      (next (srv.list q w.server).1).run srv span
        (w.served [.event (.listing q) span, .list q] (srv.list q w.server).2) := rfl

theorem run_tell (srv : Server σ) (span : Option Span) (e : Event) (next : Program α)
    (w : World σ) :
    (tell e next).run srv span w = next.run srv span (w.record [.event e span]) := rfl

theorem run_observe (srv : Server σ) (span : Option Span) (next : Progress → Program α)
    (w : World σ) :
    (observe next).run srv span w =
      (next w.visibleProgress).run srv span (w.record [.progress w.visibleProgress]) := rfl

/-- Running two programs one after the other is running the one that they form. -/
theorem run_bind (srv : Server σ) (span : Option Span) (p : Program α) (f : α → Program β) :
    (p >>= f).run srv span = p.run srv span >>= fun a => (f a).run srv span := by
  funext w
  show (p.bind f).run srv span w = _
  induction p generalizing w with
  | done r => cases r <;> rfl
  | execute _ _ ih => exact ih _ _
  | count _ _ ih => exact ih _ _
  | list _ _ ih => exact ih _ _
  | tell _ _ ih => exact ih _
  | observe _ ih => exact ih _ _

/-- A program leaves the progress of the run alone. -/
theorem run_progress (srv : Server σ) (span : Option Span) (p : Program α) (w : World σ) :
    (World.leftBy (p.run srv span w)).progress = w.progress := by
  induction p generalizing w with
  | done r => cases r <;> rfl
  | execute _ _ ih => exact ih _ _
  | count _ _ ih => exact ih _ _
  | list _ _ ih => exact ih _ _
  | tell _ _ ih => exact ih _
  | observe _ ih => exact ih _ _

/-- A program adds to the journal and takes nothing back. -/
theorem run_journal (srv : Server σ) (span : Option Span) (p : Program α) (w : World σ) :
    w.journal <+: (World.leftBy (p.run srv span w)).journal := by
  induction p generalizing w with
  | done r => cases r <;> exact List.prefix_rfl
  | execute s next ih =>
    rw [run_execute]
    exact (List.prefix_append w.journal _).trans (ih _ (w.served _ _))
  | count q next ih =>
    rw [run_count]
    exact (List.prefix_append w.journal _).trans (ih _ (w.served _ _))
  | list q next ih =>
    rw [run_list]
    exact (List.prefix_append w.journal _).trans (ih _ (w.served _ _))
  | tell e next ih =>
    rw [run_tell]
    exact (List.prefix_append w.journal _).trans (ih (w.record _))
  | observe next ih =>
    rw [run_observe]
    exact (List.prefix_append w.journal _).trans (ih _ (w.record _))

end Program
end SchemaMigration
