import SchemaMigration.Proofs.Passing

/-!
# Interrupted requests

Any request may be interrupted: the client gets an error, and the database may or may not have
carried the request out (`Mishap`).  `Server.troubled` puts such mishaps in front of a server, one
after the other in any order that one likes.  Where programs stop at the first error, this is the
same as a client that is cut off at a request.
-/
namespace SchemaMigration

/-- What goes wrong with a request.  The client gets an error in any case. -/
inductive Mishap
  /-- The request has no effect. -/
  | lost (e : DriverError)
  /-- The request has its effect. -/
  | late (e : DriverError)

/-- The state of a server, and what goes wrong with the requests to come, if anything: one entry for
each request, and nothing goes wrong after the last entry. -/
structure Troubled (σ : Type) where
  state : σ
  mishaps : List (Option Mishap) := []

/-- A request that something may go wrong with. -/
def Troubled.request {σ α : Type} (f : σ → Except DriverError α × σ) (s : Troubled σ) :
    Except DriverError α × Troubled σ :=
  match s.mishaps with
  | some (.lost e) :: rest => (.error e, ⟨s.state, rest⟩)
  | some (.late e) :: rest => (.error e, ⟨(f s.state).2, rest⟩)
  | none :: rest => ((f s.state).1, ⟨(f s.state).2, rest⟩)
  | [] => ((f s.state).1, ⟨(f s.state).2, []⟩)

/-- The server with mishaps. -/
def Server.troubled {σ : Type} (srv : Server σ) : Server (Troubled σ) where
  connect := Troubled.request srv.connect
  execute st := Troubled.request (srv.execute st)
  count q := Troubled.request (srv.count q)
  list q := Troubled.request (srv.list q)

/-- A request is answered as usual, or fails with or without its effect. -/
theorem Troubled.request_cases {σ α : Type} {f : σ → Except DriverError α × σ} {s : Troubled σ}
    {a : Except DriverError α} (h : (request f s).1 = a) :
    ((f s.state).1 = a ∧ (request f s).2.state = (f s.state).2) ∨
      ((∃ e, a = .error e) ∧
        ((request f s).2.state = s.state ∨ (request f s).2.state = (f s.state).2)) := by
  subst h
  unfold request
  split
  · exact Or.inr ⟨⟨_, rfl⟩, Or.inl rfl⟩
  · exact Or.inr ⟨⟨_, rfl⟩, Or.inr rfl⟩
  · exact Or.inl ⟨rfl, rfl⟩
  · exact Or.inl ⟨rfl, rfl⟩

/-- **A troubled database answers from its catalog**, apart from the trouble. -/
theorem Catalog.troubled_fronts (d : Dialect) :
    (server d).troubled.Fronts d Troubled.state True := by
  refine ⟨fun s x hx => ?_⟩
  cases x with
  | acquire a =>
    rcases Troubled.request_cases (Exchange.acquire.inj (Option.some.inj hx)) with
      ⟨ha, hnext⟩ | ⟨⟨e, rfl⟩, hnext⟩
    · exact Or.inl ⟨congrArg (fun a => some (Exchange.acquire a)) ha, hnext⟩
    · exact Or.inr ⟨trivial, trivial, hnext⟩
  | execute st a =>
    rcases Troubled.request_cases (Exchange.execute.inj (Option.some.inj hx)).2 with
      ⟨ha, hnext⟩ | ⟨⟨e, rfl⟩, hnext⟩
    · exact Or.inl ⟨congrArg (fun a => some (Exchange.execute st a)) ha, hnext⟩
    · exact Or.inr ⟨trivial, trivial, hnext⟩
  | count q a =>
    rcases Troubled.request_cases (Exchange.count.inj (Option.some.inj hx)).2 with
      ⟨ha, hnext⟩ | ⟨⟨e, rfl⟩, hnext⟩
    · exact Or.inl ⟨congrArg (fun a => some (Exchange.count q a)) ha, hnext⟩
    · exact Or.inr ⟨trivial, trivial, hnext⟩
  | list q a =>
    rcases Troubled.request_cases (Exchange.list.inj (Option.some.inj hx)).2 with
      ⟨ha, hnext⟩ | ⟨⟨e, rfl⟩, hnext⟩
    · exact Or.inl ⟨congrArg (fun a => some (Exchange.list q a)) ha, hnext⟩
    · exact Or.inr ⟨trivial, trivial, hnext⟩
  | observe p => exact Or.inl ⟨rfl, rfl⟩

end SchemaMigration
