import SchemaMigration.World

/-!
# Transcripts

A journal says what was asked, in order, but not what was answered.  The answers of a server are a
function of its state, so a journal and the state at its beginning determine them: the transcript
(`Server.transcript`) pairs each request of a journal with its answer.  A program and the answers
that it gets determine what it asks next and how it ends (`Program.Path`), and running a program
follows one of its paths (`Program.run_performs`).

`Server.Leads` is the one fact that every action satisfies: from a world to the next the journal
grows by the entries of a transcript, the server moves on as the transcript says, and whether the
pool is closed and what is shown to steps stay as they are.
-/
namespace SchemaMigration

/-- A request together with its answer, or a look at the progress together with what was seen. -/
inductive Exchange
  | acquire (answer : Except DriverError Unit)
  | execute (s : Statement) (answer : Except DriverError Unit)
  | count (q : CountQuery) (answer : Except DriverError Int)
  | list (q : ListQuery) (answer : Except DriverError (List String))
  | observe (p : Progress)

namespace Exchange

/-- What a journal says of an exchange. -/
def entry : Exchange → Entry
  | acquire _ => .acquire
  | execute s _ => .execute s
  | count q _ => .count q
  | list q _ => .list q
  | observe p => .progress p

/-- The answer was an error. -/
def Failed : Exchange → Prop
  | acquire (.error _) | execute _ (.error _) | count _ (.error _) | list _ (.error _) => True
  | _ => False

/-- Every look at the progress among the exchanges shows `p`. -/
def Sees (p : Progress) (xs : List Exchange) : Prop :=
  ∀ q, observe q ∈ xs → q = p

theorem sees_nil (p : Progress) : Sees p [] := fun _ h => (List.not_mem_nil h).elim

theorem sees_append {p : Progress} {xs ys : List Exchange} :
    Sees p (xs ++ ys) ↔ Sees p xs ∧ Sees p ys := by
  simp only [Sees, List.mem_append, or_imp, forall_and]

end Exchange

/-- Whether an entry of a journal only tells an observer something. -/
def Entry.isEvent : Entry → Bool
  | event _ _ => true
  | _ => false

namespace Server

variable {σ : Type} (srv : Server σ)

/-- The exchange that an entry of a journal stands for, with the answer given in state `s`. -/
def reply (s : σ) : Entry → Option Exchange
  | .acquire => some (.acquire (srv.connect s).1)
  | .execute st => some (.execute st (srv.execute st s).1)
  | .count q => some (.count q (srv.count q s).1)
  | .list q => some (.list q (srv.list q s).1)
  | .progress p => some (.observe p)
  | .event _ _ => none

/-- The state after an exchange. -/
def next (s : σ) : Exchange → σ
  | .acquire _ => (srv.connect s).2
  | .execute st _ => (srv.execute st s).2
  | .count q _ => (srv.count q s).2
  | .list q _ => (srv.list q s).2
  | .observe _ => s

/-- The state after exchanges, one by one. -/
def after (s : σ) (xs : List Exchange) : σ :=
  xs.foldl srv.next s

/-- The requests of a journal that begins in state `s`, with the answers to them. -/
def transcript : σ → List Entry → List Exchange
  | _, [] => []
  | s, e :: rest =>
    match srv.reply s e with
    | some x => x :: transcript (srv.next s x) rest
    | none => transcript s rest

/-- The server, in state `s`, answers as the exchanges say. -/
def Gives : σ → List Exchange → Prop
  | _, [] => True
  | s, x :: rest => srv.reply s x.entry = some x ∧ Gives (srv.next s x) rest

/-- What was asked and answered between two worlds, the second of which came from the first. -/
def exchanges (w w' : World σ) : List Exchange :=
  srv.transcript w.server (w'.journal.drop w.journal.length)

@[simp] theorem after_nil (s : σ) : srv.after s [] = s := rfl

@[simp] theorem after_cons (s : σ) (x : Exchange) (xs : List Exchange) :
    srv.after s (x :: xs) = srv.after (srv.next s x) xs := rfl

theorem after_append (s : σ) (xs ys : List Exchange) :
    srv.after s (xs ++ ys) = srv.after (srv.after s xs) ys :=
  List.foldl_append

theorem gives_append (s : σ) (xs ys : List Exchange) :
    srv.Gives s (xs ++ ys) ↔ srv.Gives s xs ∧ srv.Gives (srv.after s xs) ys := by
  induction xs generalizing s with
  | nil => simp [Gives]
  | cons x xs ih => simp [Gives, ih, and_assoc]

theorem transcript_append (s : σ) (l l' : List Entry) :
    srv.transcript s (l ++ l') =
      srv.transcript s l ++ srv.transcript (srv.after s (srv.transcript s l)) l' := by
  induction l generalizing s with
  | nil => rfl
  | cons e l ih =>
    rw [List.cons_append, transcript, transcript]
    cases srv.reply s e with
    | none => exact ih s
    | some x => exact congrArg (x :: ·) (ih _)

theorem entry_of_reply {s : σ} {e : Entry} {x : Exchange} (h : srv.reply s e = some x) :
    x.entry = e := by
  cases e <;> simp only [reply, Option.some.injEq, reduceCtorEq] at h <;> subst h <;> rfl

theorem isEvent_iff_reply (s : σ) (e : Entry) : e.isEvent = true ↔ srv.reply s e = none := by
  cases e <;> simp [Entry.isEvent, reply]

/-- A transcript asks what the journal asks, in the same order. -/
theorem map_entry_transcript (s : σ) (l : List Entry) :
    (srv.transcript s l).map Exchange.entry = l.filter fun e => !e.isEvent := by
  induction l generalizing s with
  | nil => rfl
  | cons e l ih =>
    rw [transcript, List.filter_cons]
    cases h : srv.reply s e with
    | none => simp [(srv.isEvent_iff_reply s e).mpr h, ih]
    | some x =>
      have he : e.isEvent = false := by
        rw [← Bool.not_eq_true, srv.isEvent_iff_reply s e, h]
        exact Option.some_ne_none x
      simp [he, srv.entry_of_reply h, ih]

/-- The answers of a transcript are those of the server. -/
theorem gives_transcript (s : σ) (l : List Entry) : srv.Gives s (srv.transcript s l) := by
  induction l generalizing s with
  | nil => trivial
  | cons e l ih =>
    rw [transcript]
    cases h : srv.reply s e with
    | none => exact ih s
    | some x => exact ⟨by rw [srv.entry_of_reply h, h], ih _⟩

/-- The world `w` leads to `w'` by the exchanges `xs`. -/
structure Leads (w : World σ) (xs : List Exchange) (w' : World σ) : Prop where
  journal : ∃ l, w'.journal = w.journal ++ l ∧ srv.transcript w.server l = xs
  server : w'.server = srv.after w.server xs
  closed : w'.closed = w.closed
  shown : w'.shown = w.shown

namespace Leads

variable {srv} {w w' w'' : World σ} {xs ys : List Exchange}

theorem refl (w : World σ) : srv.Leads w [] w :=
  ⟨⟨[], by simp, rfl⟩, rfl, rfl, rfl⟩

theorem trans (h : srv.Leads w xs w') (h' : srv.Leads w' ys w'') :
    srv.Leads w (xs ++ ys) w'' := by
  obtain ⟨l, hl, hxs⟩ := h.journal
  obtain ⟨l', hl', hys⟩ := h'.journal
  rw [h.server] at hys
  refine ⟨⟨l ++ l', ?_, ?_⟩, ?_, h'.closed.trans h.closed, h'.shown.trans h.shown⟩
  · rw [hl', hl, List.append_assoc]
  · rw [transcript_append, hxs, hys]
  · rw [h'.server, h.server, after_append]

/-- A request leads to the world in which it is answered. -/
theorem served (e : Entry) {x : Exchange} (ev : Event) (span : Option Span)
    (h : srv.reply w.server e = some x) :
    srv.Leads w [x] (w.served [.event ev span, e] (srv.next w.server x)) := by
  refine ⟨⟨_, rfl, ?_⟩, rfl, rfl, rfl⟩
  show srv.transcript w.server [e] = [x]
  simp only [transcript, h]

/-- The exchanges between the two worlds are those that lead from one to the other. -/
theorem exchanges (h : srv.Leads w xs w') : srv.exchanges w w' = xs := by
  obtain ⟨l, hl, hxs⟩ := h.journal
  rw [Server.exchanges, hl, List.drop_left, hxs]

theorem gives (h : srv.Leads w xs w') : srv.Gives w.server xs := by
  obtain ⟨l, -, rfl⟩ := h.journal
  exact srv.gives_transcript _ l

/-- The journal, apart from what is told to observers, grows by the requests of the transcript. -/
theorem requests (h : srv.Leads w xs w') :
    w'.journal.filter (fun e => !e.isEvent) =
      w.journal.filter (fun e => !e.isEvent) ++ xs.map Exchange.entry := by
  obtain ⟨l, hl, hxs⟩ := h.journal
  rw [hl, List.filter_append, ← hxs, map_entry_transcript]

end Leads
end Server

namespace World

variable {σ α : Type}

/-- The end of an action with a result and the world that it leaves behind. -/
def ended (r : Except MigrationError α) (w : World σ) : EStateM.Result MigrationError (World σ) α :=
  match r with
  | .ok a => .ok a w
  | .error e => .error e w

/-- The result of an action. -/
def outcome : EStateM.Result MigrationError (World σ) α → Except MigrationError α
  | .ok a _ => .ok a
  | .error e _ => .error e

@[simp] theorem outcome_ended (r : Except MigrationError α) (w : World σ) :
    outcome (ended r w) = r := by
  cases r <;> rfl

@[simp] theorem leftBy_ended (r : Except MigrationError α) (w : World σ) :
    leftBy (ended r w) = w := by
  cases r <;> rfl

end World

/-- The action `x` in the world `w` makes the exchanges `xs`, has the result `r`, and leaves the
world `w'` behind. -/
structure Performs {σ α : Type} (srv : Server σ) (x : Action σ α) (w : World σ)
    (xs : List Exchange) (r : Except MigrationError α) (w' : World σ) : Prop where
  eq : x w = World.ended r w'
  leads : srv.Leads w xs w'

namespace Performs

variable {σ α β : Type} {srv : Server σ} {x : Action σ α} {f : α → Action σ β}
  {w w' w'' : World σ} {xs ys : List Exchange}

theorem bind_ok {a : α} {r : Except MigrationError β} (h : Performs srv x w xs (.ok a) w')
    (h' : Performs srv (f a) w' ys r w'') : Performs srv (x >>= f) w (xs ++ ys) r w'' := by
  refine ⟨?_, h.leads.trans h'.leads⟩
  show EStateM.bind x f w = _
  rw [EStateM.bind, h.eq]
  exact h'.eq

/-- What asks for nothing adds nothing to the exchanges. -/
theorem bind_silent {a : α} {r : Except MigrationError β} (h : Performs srv x w xs (.ok a) w')
    (h' : Performs srv (f a) w' [] r w'') : Performs srv (x >>= f) w xs r w'' := by
  have hboth := h.bind_ok h'
  rwa [List.append_nil] at hboth

theorem bind_error {e : MigrationError} (h : Performs srv x w xs (.error e) w') :
    Performs srv (x >>= f) w xs (.error e) w' := by
  refine ⟨?_, h.leads⟩
  show EStateM.bind x f w = _
  rw [EStateM.bind, h.eq]
  rfl

theorem pure (srv : Server σ) (a : α) (w : World σ) :
    Performs srv (Pure.pure a) w [] (.ok a) w :=
  ⟨rfl, .refl w⟩

theorem throw (srv : Server σ) (e : MigrationError) (w : World σ) :
    Performs srv (throw e : Action σ α) w [] (.error e) w :=
  ⟨rfl, .refl w⟩

/-- An action that only changes the progress. -/
theorem update (srv : Server σ) (f : Progress → Progress) (w : World σ) :
    Performs srv (World.update f) w [] (.ok ()) { w with progress := f w.progress } :=
  ⟨rfl, ⟨[], by simp, rfl⟩, rfl, rfl, rfl⟩

/-- What is told to observers is no exchange. -/
theorem record (srv : Server σ) (l : List (Event × Option Span)) (w : World σ) :
    Performs srv (modify (World.record (l.map fun e => .event e.1 e.2))) w [] (.ok ())
      (w.record (l.map fun e => .event e.1 e.2)) := by
  refine ⟨rfl, ⟨_, rfl, ?_⟩, rfl, rfl, rfl⟩
  have h : ∀ s, srv.transcript s (l.map fun e => Entry.event e.1 e.2) = [] := by
    intro s
    induction l with
    | nil => rfl
    | cons e l ih => exact ih
  exact h _

theorem tell (srv : Server σ) (e : Event) (span : Option Span) (w : World σ) :
    Performs srv (World.tell e span) w [] (.ok ()) (w.record [.event e span]) :=
  record srv [(e, span)] w

theorem settle {r : Except MigrationError α} (h : Performs srv x w xs r w') :
    Performs srv (World.settle x) w xs (.ok r) w' := by
  refine ⟨?_, h.leads⟩
  rw [World.settle, h.eq]
  cases r <;> rfl

/-- A closed pool gives out no connection, and no request for one is made. -/
theorem connect_closed (srv : Server σ) (hw : w.closed = true) :
    Performs srv (World.connect srv) w [] (.error (.driver .poolClosed)) w := by
  refine ⟨?_, .refl w⟩
  rw [World.connect, hw]
  rfl

theorem connect (srv : Server σ) (hw : w.closed = false) :
    Performs srv (World.connect srv) w [.acquire (srv.connect w.server).1]
      ((srv.connect w.server).1.mapError .driver)
      (w.served [.acquire] (srv.connect w.server).2) := by
  refine ⟨?_, ⟨_, rfl, rfl⟩, rfl, rfl, rfl⟩
  rw [World.connect, hw]
  cases h : srv.connect w.server with
  | mk r s => cases r <;> rfl

end Performs
end SchemaMigration
