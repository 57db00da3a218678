import SchemaMigration.History
import SchemaMigration.Proofs.Transcript

/-!
# Paths through a program

A program is a tree with one branch for each answer.  The answers that it gets select a path; the
path fixes all requests and the result (`Program.Path.unique`).  Running a program against a server
follows a path whose answers are those of the server (`Program.run_performs`).

Two properties of programs are read off their trees.  `Program.Within S E` bounds the requests that
can be made and the errors that can be the result, whatever the answers.  `Program.FailsFast` says
that an answer that is an error ends the program with an error, so that it is the last exchange of
any path.
-/
namespace SchemaMigration
namespace Program

variable {σ α β : Type}

/-- The exchanges of a program from its beginning to its end, and the result. -/
inductive Path : Program α → List Exchange → Except MigrationError α → Prop
  | done (r) : Path (.done r) [] r
  | execute {next xs r} (s a) : Path (next a) xs r → Path (.execute s next) (.execute s a :: xs) r
  | count {next xs r} (q a) : Path (next a) xs r → Path (.count q next) (.count q a :: xs) r
  | list {next xs r} (q a) : Path (next a) xs r → Path (.list q next) (.list q a :: xs) r
  | tell {next xs r} (e) : Path next xs r → Path (.tell e next) xs r
  | observe {next xs r} (p) : Path (next p) xs r → Path (.observe next) (.observe p :: xs) r

/-- **Running a program follows one of its paths**, leaves the progress alone, and shows it the
progress that is visible at its beginning, whenever it looks. -/
theorem run_performs (srv : Server σ) (span : Option Span) (p : Program α) (w : World σ) :
    ∃ xs r w', Performs srv (p.run srv span) w xs r w' ∧ p.Path xs r ∧
      w'.progress = w.progress ∧ Exchange.Sees w.visibleProgress xs := by
  induction p generalizing w with
  | done r =>
    refine ⟨[], r, w, ⟨?_, .refl w⟩, .done r, rfl, Exchange.sees_nil _⟩
    cases r <;> rfl
  | execute s next ih =>
    obtain ⟨xs, r, w', hp, hpath, hprog, hsees⟩ := ih (srv.execute s w.server).1
      (w.served [.event (.executing s) span, .execute s] (srv.execute s w.server).2)
    have hone : srv.Leads w [.execute s _] (w.served [_, _] _) :=
      .served (.execute s) (.executing s) span rfl
    exact ⟨_, r, w', ⟨hp.eq, hone.trans hp.leads⟩, .execute s _ hpath, hprog,
      Exchange.sees_append.mpr ⟨by simp [Exchange.Sees], hsees⟩⟩
  | count c next ih =>
    obtain ⟨xs, r, w', hp, hpath, hprog, hsees⟩ := ih (srv.count c w.server).1
      (w.served [.event (.counting c) span, .count c] (srv.count c w.server).2)
    have hone : srv.Leads w [.count c _] (w.served [_, _] _) :=
      .served (.count c) (.counting c) span rfl
    exact ⟨_, r, w', ⟨hp.eq, hone.trans hp.leads⟩, .count c _ hpath, hprog,
      Exchange.sees_append.mpr ⟨by simp [Exchange.Sees], hsees⟩⟩
  | list c next ih =>
    obtain ⟨xs, r, w', hp, hpath, hprog, hsees⟩ := ih (srv.list c w.server).1
      (w.served [.event (.listing c) span, .list c] (srv.list c w.server).2)
    have hone : srv.Leads w [.list c _] (w.served [_, _] _) :=
      .served (.list c) (.listing c) span rfl
    exact ⟨_, r, w', ⟨hp.eq, hone.trans hp.leads⟩, .list c _ hpath, hprog,
      Exchange.sees_append.mpr ⟨by simp [Exchange.Sees], hsees⟩⟩
  | tell e next ih =>
    obtain ⟨xs, r, w', hp, hpath, hprog, hsees⟩ := ih (w.record [.event e span])
    exact ⟨xs, r, w', ⟨hp.eq, (Performs.tell srv e span w).leads.trans hp.leads⟩, .tell e hpath,
      hprog, hsees⟩
  | observe next ih =>
    obtain ⟨xs, r, w', hp, hpath, hprog, hsees⟩ := ih w.visibleProgress
      (w.record [.progress w.visibleProgress])
    have hone : srv.Leads w [.observe w.visibleProgress]
        (w.record [.progress w.visibleProgress]) := ⟨⟨_, rfl, rfl⟩, rfl, rfl, rfl⟩
    exact ⟨_, r, w', ⟨hp.eq, hone.trans hp.leads⟩, .observe _ hpath, hprog,
      Exchange.sees_append.mpr ⟨by simp [Exchange.Sees], hsees⟩⟩

/-- A path of two programs one after the other is a path of the first, followed by one of the
second unless the first fails. -/
theorem Path.of_bind {p : Program α} {f : α → Program β} {xs : List Exchange}
    {r : Except MigrationError β} (h : (p >>= f).Path xs r) :
    (∃ e, r = .error e ∧ p.Path xs (.error e)) ∨
      ∃ ys zs a, xs = ys ++ zs ∧ p.Path ys (.ok a) ∧ (f a).Path zs r := by
  change (p.bind f).Path xs r at h
  -- the first program may be anywhere when it fails, so the induction is on it, for any path
  induction p generalizing xs with
  | done q =>
    cases q with
    | ok a => exact Or.inr ⟨[], xs, a, rfl, .done _, h⟩
    | error e => cases h; exact Or.inl ⟨e, rfl, .done _⟩
  | execute s next ih =>
    cases h with
    | execute _ a h =>
      rcases ih a h with ⟨e, hr, hp⟩ | ⟨ys, zs, b, rfl, hp, hf⟩
      · exact Or.inl ⟨e, hr, .execute s a hp⟩
      · exact Or.inr ⟨_ :: ys, zs, b, rfl, .execute s a hp, hf⟩
  | count q next ih =>
    cases h with
    | count _ a h =>
      rcases ih a h with ⟨e, hr, hp⟩ | ⟨ys, zs, b, rfl, hp, hf⟩
      · exact Or.inl ⟨e, hr, .count q a hp⟩
      · exact Or.inr ⟨_ :: ys, zs, b, rfl, .count q a hp, hf⟩
  | list q next ih =>
    cases h with
    | list _ a h =>
      rcases ih a h with ⟨e, hr, hp⟩ | ⟨ys, zs, b, rfl, hp, hf⟩
      · exact Or.inl ⟨e, hr, .list q a hp⟩
      · exact Or.inr ⟨_ :: ys, zs, b, rfl, .list q a hp, hf⟩
  | tell ev next ih =>
    cases h with
    | tell _ h =>
      rcases ih h with ⟨e, hr, hp⟩ | ⟨ys, zs, b, rfl, hp, hf⟩
      · exact Or.inl ⟨e, hr, .tell ev hp⟩
      · exact Or.inr ⟨ys, zs, b, rfl, .tell ev hp, hf⟩
  | observe next ih =>
    cases h with
    | observe q h =>
      rcases ih q h with ⟨e, hr, hp⟩ | ⟨ys, zs, b, rfl, hp, hf⟩
      · exact Or.inl ⟨e, hr, .observe q hp⟩
      · exact Or.inr ⟨_ :: ys, zs, b, rfl, .observe q hp, hf⟩

/-- Where the first program succeeds, the second one goes on. -/
theorem Path.bind {p : Program α} {f : α → Program β} {xs ys : List Exchange} {a : α}
    {r : Except MigrationError β} (hp : p.Path xs (.ok a)) (hf : (f a).Path ys r) :
    (p >>= f).Path (xs ++ ys) r := by
  change (p.bind f).Path (xs ++ ys) r
  generalize hq : Except.ok a = q at hp
  induction hp with
  | done _ => cases hq; exact hf
  | execute s b _ ih => exact .execute s b (ih hq)
  | count c b _ ih => exact .count c b (ih hq)
  | list c b _ ih => exact .list c b (ih hq)
  | tell e _ ih => exact .tell e (ih hq)
  | observe b _ ih => exact .observe b (ih hq)

/-- Where the first program fails, nothing goes on. -/
theorem Path.bind_error {p : Program α} {f : α → Program β} {xs : List Exchange}
    {e : MigrationError} (hp : p.Path xs (.error e)) : (p >>= f).Path xs (.error e) := by
  change (p.bind f).Path xs (.error e)
  generalize hq : Except.error e = q at hp
  induction hp with
  | done _ => cases hq; exact .done _
  | execute s b _ ih => exact .execute s b (ih hq)
  | count c b _ ih => exact .count c b (ih hq)
  | list c b _ ih => exact .list c b (ih hq)
  | tell ev _ ih => exact .tell ev (ih hq)
  | observe b _ ih => exact .observe b (ih hq)

/-- **The answers determine the path.**  No path goes on where another one ends. -/
theorem Path.unique {p : Program α} {xs ys xs' ys' : List Exchange}
    {r q : Except MigrationError α} (hx : p.Path xs r) (hy : p.Path ys q)
    (h : xs ++ xs' = ys ++ ys') : xs = ys ∧ r = q := by
  induction hx generalizing ys with
  | done r => cases hy; exact ⟨rfl, rfl⟩
  | execute s a _ ih =>
    cases hy with
    | execute _ b hy =>
      obtain ⟨hb, ht⟩ := List.cons.inj h
      cases hb
      exact (ih hy ht).imp (congrArg _) id
  | count c a _ ih =>
    cases hy with
    | count _ b hy =>
      obtain ⟨hb, ht⟩ := List.cons.inj h
      cases hb
      exact (ih hy ht).imp (congrArg _) id
  | list c a _ ih =>
    cases hy with
    | list _ b hy =>
      obtain ⟨hb, ht⟩ := List.cons.inj h
      cases hb
      exact (ih hy ht).imp (congrArg _) id
  | tell e _ ih =>
    -- what is told is no exchange: both paths go on with the same lists
    cases hy with
    | tell _ hy => exact ih hy h
  | observe p _ ih =>
    cases hy with
    | observe b hy =>
      obtain ⟨hb, ht⟩ := List.cons.inj h
      cases hb
      exact (ih hy ht).imp (congrArg _) id

/-- The one exchange of a program that sends a statement. -/
theorem Path.of_send {s : Statement} {xs : List Exchange} {r : Except MigrationError Unit}
    (h : (send s).Path xs r) : ∃ a, xs = [.execute s a] ∧ r = a.mapError .driver := by
  cases h with
  | execute _ a h => cases h; exact ⟨a, rfl, rfl⟩

theorem Path.of_ask {q : CountQuery} {xs : List Exchange} {r : Except MigrationError Int}
    (h : (ask q).Path xs r) : ∃ a, xs = [.count q a] ∧ r = a.mapError .driver := by
  cases h with
  | count _ a h => cases h; exact ⟨a, rfl, rfl⟩

theorem Path.of_holds {o : SchemaObject} {xs : List Exchange} {r : Except MigrationError Bool}
    (h : (holds o).Path xs r) : ∃ a, xs = [.count (.object o) a] ∧
      r = (a.mapError MigrationError.driver).map fun n : Int => decide (0 < n) := by
  rcases Path.of_bind h with ⟨e, rfl, hask⟩ | ⟨ys, zs, n, rfl, hask, hn⟩
  · obtain ⟨a, rfl, he⟩ := Path.of_ask hask
    exact ⟨a, rfl, by rw [← he]; rfl⟩
  · obtain ⟨a, rfl, ha⟩ := Path.of_ask hask
    cases hn
    exact ⟨a, by simp, by rw [← ha]; rfl⟩

theorem Path.of_askList {q : ListQuery} {xs : List Exchange}
    {r : Except MigrationError (List String)} (h : (askList q).Path xs r) :
    ∃ a, xs = [.list q a] ∧ r = a.mapError .driver := by
  cases h with
  | list _ a h => cases h; exact ⟨a, rfl, rfl⟩

theorem path_askList (q : ListQuery) (a : Except DriverError (List String)) :
    (askList q).Path [.list q a] (a.mapError .driver) :=
  .list q a (.done _)

theorem Path.of_pure {a : α} {xs : List Exchange} {r : Except MigrationError α}
    (h : (pure a : Program α).Path xs r) : xs = [] ∧ r = .ok a := by
  cases h
  exact ⟨rfl, rfl⟩

theorem Path.of_fail {e : MigrationError} {xs : List Exchange} {r : Except MigrationError α}
    (h : (fail e : Program α).Path xs r) : xs = [] ∧ r = .error e := by
  cases h
  exact ⟨rfl, rfl⟩

theorem Path.of_note {e : Event} {xs : List Exchange} {r : Except MigrationError Unit}
    (h : (note e).Path xs r) : xs = [] ∧ r = .ok () := by
  cases h with
  | tell _ h => exact h.of_pure

/-! ## What a program may ask for and end with -/

/-- Everything that the program may ask for, on any path, satisfies `S`, and every error that it may
end with satisfies `E`. -/
def Within (S : Entry → Prop) (E : MigrationError → Prop) : Program α → Prop
  | done (.ok _) => True
  | done (.error e) => E e
  | execute s next => S (.execute s) ∧ ∀ a, (next a).Within S E
  | count q next => S (.count q) ∧ ∀ a, (next a).Within S E
  | list q next => S (.list q) ∧ ∀ a, (next a).Within S E
  | tell _ next => next.Within S E
  | observe next => ∀ p, S (.progress p) ∧ (next p).Within S E

/-- Every statement that the program may send satisfies `S`. -/
def Sends (S : Statement → Prop) (p : Program α) : Prop :=
  p.Within (fun e => ∀ s, e = .execute s → S s) fun _ => True

section Within

variable {S : Entry → Prop} {E : MigrationError → Prop}

theorem Within.of_path {p : Program α} {xs : List Exchange} {r : Except MigrationError α}
    (hp : p.Within S E) (h : p.Path xs r) :
    (∀ x ∈ xs, S x.entry) ∧ ∀ e, r = .error e → E e := by
  induction h with
  | done r =>
    refine ⟨by simp, fun e he => ?_⟩
    subst he
    exact hp
  | execute s a _ ih | count s a _ ih | list s a _ ih =>
    obtain ⟨hxs, hr⟩ := ih (hp.2 a)
    exact ⟨List.forall_mem_cons.mpr ⟨hp.1, hxs⟩, hr⟩
  | tell e _ ih => exact ih hp
  | observe q _ ih =>
    obtain ⟨hxs, hr⟩ := ih (hp q).2
    exact ⟨List.forall_mem_cons.mpr ⟨(hp q).1, hxs⟩, hr⟩

theorem Sends.of_path {S : Statement → Prop} {p : Program α} {xs : List Exchange}
    {r : Except MigrationError α} (hp : p.Sends S) (h : p.Path xs r) {s : Statement}
    {a : Except DriverError Unit} (hx : .execute s a ∈ xs) : S s :=
  (Within.of_path hp h).1 _ hx s rfl

theorem Within.bind {p : Program α} {f : α → Program β} (hp : p.Within S E)
    (hf : ∀ a, (f a).Within S E) : (p >>= f).Within S E := by
  change (p.bind f).Within S E
  induction p with
  | done r =>
    cases r with
    | ok a => exact hf a
    | error e => exact hp
  | execute s next ih | count s next ih | list s next ih =>
    exact ⟨hp.1, fun a => ih a (hp.2 a)⟩
  | tell e next ih => exact ih hp
  | observe next ih => exact fun q => ⟨(hp q).1, ih q (hp q).2⟩

theorem Within.mono {S' : Entry → Prop} {E' : MigrationError → Prop} {p : Program α}
    (hp : p.Within S E) (hS : ∀ e, S e → S' e) (hE : ∀ e, E e → E' e) : p.Within S' E' := by
  induction p with
  | done r =>
    cases r with
    | ok a => trivial
    | error e => exact hE e hp
  | execute s next ih | count s next ih | list s next ih =>
    exact ⟨hS _ hp.1, fun a => ih a (hp.2 a)⟩
  | tell e next ih => exact ih hp
  | observe next ih => exact fun q => ⟨hS _ (hp q).1, ih q (hp q).2⟩

end Within

/-! ## Failing fast -/

/-- An answer that is an error ends the program with an error. -/
def FailsFast : Program α → Prop
  | done _ => True
  | execute _ next => (∀ e, ∃ e', next (.error e) = fail e') ∧ ∀ a, (next a).FailsFast
  | count _ next => (∀ e, ∃ e', next (.error e) = fail e') ∧ ∀ a, (next a).FailsFast
  | list _ next => (∀ e, ∃ e', next (.error e) = fail e') ∧ ∀ a, (next a).FailsFast
  | tell _ next => next.FailsFast
  | observe next => ∀ p, (next p).FailsFast

theorem FailsFast.bind {p : Program α} {f : α → Program β} (hp : p.FailsFast)
    (hf : ∀ a, (f a).FailsFast) : (p >>= f).FailsFast := by
  change (p.bind f).FailsFast
  induction p with
  | done r =>
    cases r with
    | ok a => exact hf a
    | error e => trivial
  | execute s next ih | count s next ih | list s next ih =>
    refine ⟨fun e => ?_, fun a => ih a (hp.2 a)⟩
    obtain ⟨e', he⟩ := hp.1 e
    exact ⟨e', by show (next (.error e)).bind f = _; rw [he]; rfl⟩
  | tell e next ih => exact ih hp
  | observe next ih => exact fun q => ih q (hp q)

/-- **Failing fast, on a path.**  Nothing follows a failed exchange, and the program fails. -/
theorem FailsFast.of_path {p : Program α} {xs : List Exchange} {r : Except MigrationError α}
    (hp : p.FailsFast) (h : p.Path xs r) {pre post : List Exchange} {x : Exchange}
    (hx : xs = pre ++ x :: post) (hf : x.Failed) : post = [] ∧ ∃ e, r = .error e := by
  induction h generalizing pre with
  | done r => simp at hx
  | execute s a hpath ih | count s a hpath ih | list s a hpath ih =>
    cases pre with
    | cons y pre => exact ih (hp.2 a) (List.cons.inj hx).2
    | nil =>
      obtain ⟨rfl, rfl⟩ := List.cons.inj hx
      cases a with
      | ok => exact hf.elim
      | error e =>
        obtain ⟨e', he⟩ := hp.1 e
        rw [he] at hpath
        exact ⟨hpath.of_fail.1, e', hpath.of_fail.2⟩
  | tell e _ ih => exact ih hp hx
  | observe q _ ih =>
    cases pre with
    | cons y pre => exact ih (hp q) (List.cons.inj hx).2
    | nil =>
      obtain ⟨rfl, rfl⟩ := List.cons.inj hx
      exact hf.elim

/-! ## Orderly programs -/

/-- The program asks for nothing but `S`, fails with nothing but `E`, and fails fast. -/
structure Orderly (S : Entry → Prop) (E : MigrationError → Prop) (p : Program α) : Prop where
  within : p.Within S E
  failsFast : p.FailsFast

section Orderly

variable {S : Entry → Prop} {E : MigrationError → Prop}

theorem Orderly.bind {p : Program α} {f : α → Program β} (hp : p.Orderly S E)
    (hf : ∀ a, (f a).Orderly S E) : (p >>= f).Orderly S E :=
  ⟨hp.within.bind fun a => (hf a).within, hp.failsFast.bind fun a => (hf a).failsFast⟩

theorem Orderly.mono {S' : Entry → Prop} {E' : MigrationError → Prop} {p : Program α}
    (hp : p.Orderly S E) (hS : ∀ e, S e → S' e) (hE : ∀ e, E e → E' e) : p.Orderly S' E' :=
  ⟨hp.within.mono hS hE, hp.failsFast⟩

theorem orderly_pure (a : α) : (pure a : Program α).Orderly S E := ⟨trivial, trivial⟩

theorem orderly_fail {e : MigrationError} (he : E e) : (fail e : Program α).Orderly S E :=
  ⟨he, trivial⟩

theorem orderly_ofExcept {r : Except MigrationError α} (h : ∀ e, r = .error e → E e) :
    (ofExcept r).Orderly S E := by
  cases r with
  | ok a => exact orderly_pure a
  | error e => exact orderly_fail (h e rfl)

theorem orderly_note (e : Event) : (note e).Orderly S E := ⟨trivial, trivial⟩

theorem orderly_send (hE : ∀ e, E (.driver e)) {s : Statement} (hs : S (.execute s)) :
    (send s).Orderly S E := by
  constructor
  · refine ⟨hs, fun a => ?_⟩
    cases a with
    | ok => trivial
    | error e => exact hE e
  · exact ⟨fun e => ⟨.driver e, rfl⟩, fun _ => trivial⟩

theorem orderly_ask (hE : ∀ e, E (.driver e)) {q : CountQuery} (hq : S (.count q)) :
    (ask q).Orderly S E := by
  constructor
  · refine ⟨hq, fun a => ?_⟩
    cases a with
    | ok => trivial
    | error e => exact hE e
  · exact ⟨fun e => ⟨.driver e, rfl⟩, fun _ => trivial⟩

theorem orderly_askList (hE : ∀ e, E (.driver e)) {q : ListQuery} (hq : S (.list q)) :
    (askList q).Orderly S E := by
  constructor
  · refine ⟨hq, fun a => ?_⟩
    cases a with
    | ok => trivial
    | error e => exact hE e
  · exact ⟨fun e => ⟨.driver e, rfl⟩, fun _ => trivial⟩

theorem orderly_sendAll (hE : ∀ e, E (.driver e)) {l : List Statement}
    (hl : ∀ s ∈ l, S (.execute s)) : (sendAll l).Orderly S E := by
  induction l with
  | nil => exact orderly_pure ()
  | cons s rest ih =>
    exact (orderly_send hE (hl s List.mem_cons_self)).bind fun _ =>
      ih fun t ht => hl t (List.mem_cons_of_mem s ht)

theorem orderly_holds (hE : ∀ e, E (.driver e)) {o : SchemaObject}
    (ho : S (.count (.object o))) : (holds o).Orderly S E :=
  (orderly_ask hE ho).bind fun _ => orderly_pure _

end Orderly

end Program
end SchemaMigration
