import SchemaMigration.Script
import SchemaMigration.Proofs.Opening
import SchemaMigration.Proofs.Planning
import SchemaMigration.Proofs.Stages

/-!
# The log of a run

A course says what can happen step after step.  Here it is laid out flat: the log of a run is one
connection with the exchanges that open the history (`Upgrade.Opened`), then segments of the
selected steps that are applied and recorded, then what is left of the first step that fails
(`Upgrade.RunLog`).

Any exchange of the log takes a connection, belongs to the opening or to a selected step; in a step,
the steps before it are recorded already (`Upgrade.Placed`, `Upgrade.Course.log`).
-/
namespace SchemaMigration

/-- An element of two lists in a row stands in the first or in the second one. -/
theorem cut_append {α : Type} {xs ys pre post : List α} {x : α}
    (h : xs ++ ys = pre ++ x :: post) :
    (∃ t, xs = pre ++ x :: t ∧ post = t ++ ys) ∨ ∃ t, pre = xs ++ t ∧ ys = t ++ x :: post := by
  rcases List.append_eq_append_iff.mp h with ⟨t, rfl, ht⟩ | ⟨t, rfl, ht⟩
  · exact Or.inr ⟨t, rfl, ht⟩
  · cases t with
    | nil => exact Or.inr ⟨[], by simp, ht.symm⟩
    | cons z t =>
      obtain ⟨rfl, rfl⟩ := List.cons.inj ht
      exact Or.inl ⟨t, rfl, rfl⟩

/-- The bodies of the registered steps send such statements only. -/
def Registry.Sends (r : Registry) (S : Statement → Prop) : Prop :=
  ∀ t ∈ r.steps.toList, ∀ d, (t.body d).Sends S

namespace Upgrade
open Program

variable {σ : Type} (u : Upgrade)

/-- The exchanges of steps that are all applied and recorded, one after the other. -/
inductive AllRecorded (d : Dialect) : List Step → List Exchange → Prop
  | nil : AllRecorded d [] []
  | cons {s rest xs ys} (h : u.Recorded d s xs) (tail : AllRecorded d rest ys) :
    AllRecorded d (s :: rest) (xs ++ ys)

/-- **The log of a run.**  `planned` are the selected steps, if it comes to a selection, and
`applied` are those of them that are applied and recorded. -/
inductive RunLog (closed : Bool) : List Exchange → Option (List Step) → List Step →
    Except MigrationError RunReport → Prop
  | unsupported {e} (hd : u.dialect = .error e) : RunLog closed [] none [] (.error e)
  | closed {d} (hd : u.dialect = .ok d) (hc : closed = true) :
    RunLog closed [] none [] (.error (.driver .poolClosed))
  | unreached {d} (e) (hd : u.dialect = .ok d) (hc : closed = false) :
    RunLog closed [.acquire (.error e)] none [] (.error (.driver e))
  | unopened {d boot e} (hd : u.dialect = .ok d) (hc : closed = false)
    (h : u.Opened d boot (.error e)) :
    RunLog closed (.acquire (.ok ()) :: boot) none [] (.error e)
  | unplanned {d boot completed e} (hd : u.dialect = .ok d) (hc : closed = false)
    (h : u.Opened d boot (.ok completed))
    (hp : u.registry.plan u.settings.policy completed = .error e) :
    RunLog closed (.acquire (.ok ()) :: boot) none [] (.error e)
  | finished {d boot completed planned ys} (hd : u.dialect = .ok d) (hc : closed = false)
    (h : u.Opened d boot (.ok completed))
    (hp : u.registry.plan u.settings.policy completed = .ok planned)
    (hs : u.AllRecorded d planned ys) :
    RunLog closed (.acquire (.ok ()) :: (boot ++ ys)) (some planned) planned
      (.ok ⟨d, planned.map (·.version), completed.size⟩)
  | stopped {d boot completed before s rest ys zs e} (hd : u.dialect = .ok d)
    (hc : closed = false) (h : u.Opened d boot (.ok completed))
    (hp : u.registry.plan u.settings.policy completed = .ok (before ++ s :: rest))
    (hs : u.AllRecorded d before ys) (hz : u.Stopped d s zs e) :
    RunLog closed (.acquire (.ok ()) :: (boot ++ (ys ++ zs))) (some (before ++ s :: rest)) before
      (.error (.step s.version s.description e))

/-- In a run, after the exchanges `pre`, the body of the step `s` asks for `x`.  So far the history
was opened, the steps `before` were applied and recorded, and the body of `s` had the exchanges
`part`. -/
def InStep (d : Dialect) (before : List Step) (s : Step) (pre : List Exchange) (x : Exchange) :
    Prop :=
  ∃ boot completed ys part tail r,
    pre = .acquire (.ok ()) :: (boot ++ (ys ++ .acquire (.ok ()) :: part)) ∧
    u.Opened d boot (.ok completed) ∧ u.AllRecorded d before ys ∧
    (s.body d).Path (part ++ x :: tail) r

/-- In a run, after the exchanges `pre`, the opening of the history asks for `x`. -/
def InOpening (pre : List Exchange) (x : Exchange) : Prop :=
  ∃ d part tail r, u.dialect = .ok d ∧ pre = .acquire (.ok ()) :: part ∧
    u.Opened d (part ++ x :: tail) r

/-- If the exchange `x` failed, nothing comes after it, and the result is an error. -/
def EndsAt {α : Type} (r : Except MigrationError α) (x : Exchange) (post : List Exchange) : Prop :=
  x.Failed → post = [] ∧ ∃ e, r = .error e

/-- Where the exchange `x` between `pre` and `post` stands in a run with the result `r`: it takes a
connection, belongs to the opening, is asked for by the body of a selected step, or is the record of
one.  The steps before are recorded then.  If it failed, it is the last one, unless the body of a
step goes on after failures.  A body that looks at the progress sees its step at work, unless it is
shown something else. -/
inductive Placed (shown : Option Progress) (planned : Option (List Step))
    (r : Except MigrationError RunReport) (pre : List Exchange) (x : Exchange)
    (post : List Exchange) : Prop
  | acquire {a} (hx : x = .acquire a) (last : EndsAt r x post)
  | opening (h : u.InOpening pre x) (last : EndsAt r x post)
  | inStep {d before s rest} (hd : u.dialect = .ok d)
    (hp : planned = some (before ++ s :: rest)) (body : u.InStep d before s pre x)
    (last : (s.body d).FailsFast → EndsAt r x post)
    (seen : ∀ p, x = .observe p → p = shown.getD (.stage .running (before.map (·.version))
      (some (s.version, .running)) (rest.map (·.version)) none))
  | record {before s rest a} (hp : planned = some (before ++ s :: rest))
    (hx : x = .execute (u.recordOf s.version) a)
    (sent : ∀ t ∈ before, .execute (u.recordOf t.version) (.ok ()) ∈ pre)
    (last : EndsAt r x post)

/-- What the progress of a run comes to. -/
inductive Settled : Option (List Step) → List Step → Except MigrationError RunReport →
    Progress → Prop
  | unplanned (e) : Settled none [] (.error e) (.stage .failed [] none [] (some e.message))
  | finished (steps report) : Settled (some steps) steps (.ok report)
      (.stage .succeeded (steps.map (·.version)) none [] none)
  | stopped (before s rest e) : Settled (some (before ++ s :: rest)) before
      (.error (.step s.version s.description e))
      (.stage .failed (before.map (·.version)) (some (s.version, .failed))
        (rest.map (·.version))
        (some (MigrationError.step s.version s.description e).message))

variable {u} {d : Dialect}

theorem Recorded.sent {s : Step} {xs : List Exchange} (h : u.Recorded d s xs) :
    .execute (u.recordOf s.version) (.ok ()) ∈ xs := by
  obtain ⟨body, -, rfl⟩ := h
  simp

/-- Every recorded step has its record among the exchanges, and the record succeeded. -/
theorem AllRecorded.sent {steps : List Step} {xs : List Exchange} (h : u.AllRecorded d steps xs)
    {s : Step} (hs : s ∈ steps) : .execute (u.recordOf s.version) (.ok ()) ∈ xs := by
  induction h with
  | nil => exact (List.not_mem_nil hs).elim
  | cons hrec _ ih =>
    rcases List.mem_cons.mp hs with rfl | hs
    · exact List.mem_append_left _ hrec.sent
    · exact List.mem_append_right _ (ih hs)

section EndsAt

variable {α β : Type} {r : Except MigrationError α} {r' : Except MigrationError β} {x : Exchange}
  {pre post : List Exchange}

theorem EndsAt.mono (h : EndsAt r x post) (hr : ∀ e, r = .error e → ∃ e', r' = .error e') :
    EndsAt r' x post := by
  intro hf
  obtain ⟨hpost, e, he⟩ := h hf
  exact ⟨hpost, hr e he⟩

/-- Where all goes well, nothing failed. -/
theorem EndsAt.of_ok {a : α} (h : EndsAt (.ok a) x post) {post' : List Exchange} :
    EndsAt r' x post' := by
  intro hf
  obtain ⟨-, e, he⟩ := h hf
  cases he

/-- These exchanges are a step's own: they take connections or send its record, and the first
failure is the last of them and makes the result an error. -/
def Owned (u : Upgrade) (s : Step) (xs : List Exchange) (r : Except MigrationError α) : Prop :=
  ∀ pre x post, xs = pre ++ x :: post → EndsAt r x post ∧
    ((∃ a, x = .acquire a) ∨ ∃ a, x = .execute (u.recordOf s.version) a)

variable {s : Step} {xs : List Exchange}

theorem owned_nil : u.Owned s [] r := by
  intro pre x post h
  simp at h

theorem Owned.cons (h : u.Owned s xs r) (hok : ¬ x.Failed)
    (hx : (∃ a, x = .acquire a) ∨ ∃ a, x = .execute (u.recordOf s.version) a) :
    u.Owned s (x :: xs) r := by
  intro pre y post hy
  cases pre with
  | nil =>
    obtain ⟨rfl, rfl⟩ := List.cons.inj hy
    exact ⟨fun hf => (hok hf).elim, hx⟩
  | cons z pre => exact h pre y post (List.cons.inj hy).2

theorem owned_last (e : MigrationError)
    (hx : (∃ a, x = .acquire a) ∨ ∃ a, x = .execute (u.recordOf s.version) a) :
    u.Owned s [x] (.error e : Except MigrationError α) := by
  intro pre y post hy
  cases pre with
  | nil =>
    obtain ⟨rfl, rfl⟩ := List.cons.inj hy
    exact ⟨fun _ => ⟨rfl, e, rfl⟩, hx⟩
  | cons z pre => simp at hy

end EndsAt

/-- An exchange between a connection and the end of a step is asked for by the body, or comes
after it. -/
theorem split_body {s : Step} {q r : Except MigrationError Unit}
    {body after pre post : List Exchange} {x : Exchange}
    (hpath : (s.body d).Path body q) (hafter : u.Owned s after r)
    (hq : ∀ e, q = .error e → after = [] ∧ ∃ e, r = .error e)
    (hx : .acquire (.ok ()) :: (body ++ after) = pre ++ x :: post) :
    (EndsAt r x post ∧ ((∃ a, x = .acquire a) ∨ ∃ a, x = .execute (u.recordOf s.version) a)) ∨
      ∃ part tail q, pre = .acquire (.ok ()) :: part ∧ (s.body d).Path (part ++ x :: tail) q ∧
        ((s.body d).FailsFast → EndsAt r x post) := by
  cases pre with
  | nil =>
    obtain ⟨rfl, rfl⟩ := List.cons.inj hx
    exact Or.inl ⟨fun hf => hf.elim, Or.inl ⟨_, rfl⟩⟩
  | cons y pre =>
    rw [List.cons_append] at hx
    obtain ⟨rfl, hsplit⟩ := List.cons.inj hx
    rcases cut_append hsplit with ⟨tail, rfl, rfl⟩ | ⟨t, rfl, ht⟩
    · refine Or.inr ⟨pre, tail, q, rfl, hpath, fun hfast hf => ?_⟩
      obtain ⟨rfl, e, he⟩ := hfast.of_path hpath rfl hf
      obtain ⟨rfl, hr⟩ := hq e he
      exact ⟨rfl, hr⟩
    · exact Or.inl (hafter t x post ht)

/-- An exchange of a step is one of its own or one that the body asks for.  If it failed, nothing
follows in the step, which fails, unless the body goes on after failures. -/
theorem StepLog.split {s : Step} {xs pre post : List Exchange} {x : Exchange}
    {r : Except MigrationError Unit} (h : u.StepLog d s xs r) (hx : xs = pre ++ x :: post) :
    (EndsAt r x post ∧ ((∃ a, x = .acquire a) ∨ ∃ a, x = .execute (u.recordOf s.version) a)) ∨
      ∃ part tail q, pre = .acquire (.ok ()) :: part ∧ (s.body d).Path (part ++ x :: tail) q ∧
        ((s.body d).FailsFast → EndsAt r x post) := by
  cases r with
  | ok =>
    obtain ⟨body, hpath, rfl⟩ := h
    refine split_body hpath ?_ (fun e he => by cases he) hx
    exact (owned_nil.cons id (Or.inr ⟨_, rfl⟩)).cons id (Or.inl ⟨_, rfl⟩)
  | error e =>
    cases h with
    | unreached e => exact Or.inl (owned_last _ (Or.inl ⟨_, rfl⟩) pre x post hx)
    | failed hpath =>
      refine split_body hpath owned_nil (fun _ _ => ⟨rfl, e, rfl⟩) ?_
      rw [List.append_nil]
      exact hx
    | unrecordable e hpath =>
      exact split_body hpath (owned_last _ (Or.inl ⟨_, rfl⟩)) (fun e he => by cases he) hx
    | unrecorded e hpath =>
      refine split_body hpath ?_ (fun e he => by cases he) hx
      exact (owned_last _ (Or.inr ⟨_, rfl⟩)).cons id (Or.inl ⟨_, rfl⟩)

/-- An exchange of the opening takes the connection or is asked for by it; if it failed, so did the
opening. -/
theorem opening_split {boot pre post : List Exchange} {x : Exchange}
    {r : Except MigrationError VersionSet} (hd : u.dialect = .ok d)
    (h : u.Opened d boot r) (hx : .acquire (.ok ()) :: boot = pre ++ x :: post) :
    EndsAt r x post ∧ ((∃ a, x = .acquire a) ∨ u.InOpening pre x) := by
  cases pre with
  | nil =>
    obtain ⟨rfl, rfl⟩ := List.cons.inj hx
    exact ⟨fun hf => hf.elim, Or.inl ⟨_, rfl⟩⟩
  | cons y pre =>
    obtain ⟨rfl, hboot⟩ := List.cons.inj hx
    subst hboot
    refine ⟨fun hf => ?_, Or.inr ⟨d, pre, post, r, hd, rfl, h⟩⟩
    exact (u.opening_orderly d).failsFast.of_path h.path rfl hf

/-! ## From steps to runs -/

section Course

variable {shown : Option Progress} {p q : Progress} {steps : List Step} {xs : List Exchange}

/-- **Steps in a row** are all recorded, or recorded up to one that fails. -/
theorem StepsCourse.log {r : Except MigrationError (List Version)}
    (h : u.StepsCourse d shown p steps xs r q) :
    (u.AllRecorded d steps xs ∧ r = .ok (steps.map (·.version)) ∧
      q = p.advance (steps.map (·.version))) ∨
    ∃ before s rest ys zs e, steps = before ++ s :: rest ∧ xs = ys ++ zs ∧
      u.AllRecorded d before ys ∧ u.Stopped d s zs e ∧
      r = .error (.step s.version s.description e) ∧
      q = ((p.advance (before.map (·.version))).mark s.version .running).mark s.version
        .failed := by
  induction h with
  | done p => exact Or.inl ⟨.nil, rfl, rfl⟩
  | @stop p s rest xs e hstop _ =>
    exact Or.inr ⟨[], s, rest, [], xs, e, rfl, rfl, .nil, hstop, rfl, rfl⟩
  | @step p s rest xs ys r q hrec _ _ ih =>
    rcases ih with ⟨hall, rfl, rfl⟩ | ⟨before, t, rest, ys, zs, e, rfl, rfl, hall, hstop, rfl, rfl⟩
    · exact Or.inl ⟨.cons hrec hall, rfl, rfl⟩
    · exact Or.inr ⟨s :: before, t, rest, xs ++ ys, zs, e, rfl, (List.append_assoc ..).symm,
        .cons hrec hall, hstop, rfl, rfl⟩

/-- **Where an exchange stands among steps in a row.**  The induction hands the steps that are
recorded already, and the progress that they lead to, from one step to the next. -/
theorem StepsCourse.locate {r : Except MigrationError (List Version)}
    (h : u.StepsCourse d shown p steps xs r q) {pre post : List Exchange} {x : Exchange}
    (hx : xs = pre ++ x :: post) :
    (EndsAt r x post ∧ ((∃ a, x = .acquire a) ∨ ∃ before s rest a, steps = before ++ s :: rest ∧
        x = .execute (u.recordOf s.version) a ∧
        ∀ t ∈ before, .execute (u.recordOf t.version) (.ok ()) ∈ pre)) ∨
      ∃ before s rest ys part tail res, steps = before ++ s :: rest ∧
        pre = ys ++ .acquire (.ok ()) :: part ∧ u.AllRecorded d before ys ∧
        (s.body d).Path (part ++ x :: tail) res ∧ ((s.body d).FailsFast → EndsAt r x post) ∧
        ∀ seen, x = .observe seen →
          seen = shown.getD ((p.advance (before.map (·.version))).mark s.version .running) := by
  induction h generalizing pre with
  | done p => simp at hx
  | @stop p s rest xs e hstop hsees =>
    have hfails : ∀ e', (.error e : Except MigrationError Unit) = .error e' → ∃ e'',
        (.error (.step s.version s.description e) : Except MigrationError (List Version)) =
          .error e'' := fun _ _ => ⟨_, rfl⟩
    rcases StepLog.split (r := .error e) hstop hx with
      ⟨hlast, hown⟩ | ⟨part, tail, res, rfl, hpath, hlast⟩
    · refine Or.inl ⟨hlast.mono hfails, hown.imp id ?_⟩
      rintro ⟨a, ha⟩
      exact ⟨[], s, rest, a, rfl, ha, by simp⟩
    · refine Or.inr ⟨[], s, rest, [], part, tail, res, rfl, rfl, .nil, hpath,
        fun hfast => (hlast hfast).mono hfails, ?_⟩
      rintro seen rfl
      exact hsees seen (by simp [hx])
  | @step p s rest xs ys r q hrec hsees _ ih =>
    rcases cut_append hx with ⟨t, ht, rfl⟩ | ⟨t, rfl, ht⟩
    · -- within a step that is recorded, no exchange of the run failed
      rcases StepLog.split (r := .ok ()) hrec ht with
        ⟨hlast, hown⟩ | ⟨part, tail, res, rfl, hpath, hlast⟩
      · refine Or.inl ⟨hlast.of_ok, hown.imp id ?_⟩
        rintro ⟨a, ha⟩
        exact ⟨[], s, rest, a, rfl, ha, by simp⟩
      · refine Or.inr ⟨[], s, rest, [], part, tail, res, rfl, rfl, .nil, hpath,
          fun hfast => (hlast hfast).of_ok, ?_⟩
        rintro seen rfl
        exact hsees seen (by simp [ht])
    · -- behind this step, which is one more of those that are recorded
      have hfails : ∀ e, r = .error e → ∃ e', r.map (s.version :: ·) = .error e' := by
        rintro e rfl
        exact ⟨e, rfl⟩
      rcases ih ht with ⟨hlast, hown⟩ |
        ⟨before, s', rest', ys', part, tail, res, rfl, rfl, hall, hpath, hlast, hseen⟩
      · refine Or.inl ⟨hlast.mono hfails, hown.imp id ?_⟩
        rintro ⟨before, s', rest', a, rfl, ha, hsent⟩
        refine ⟨s :: before, s', rest', a, rfl, ha, List.forall_mem_cons.mpr ⟨?_, ?_⟩⟩
        · exact List.mem_append_left _ hrec.sent
        · exact fun t ht => List.mem_append_right _ (hsent t ht)
      · exact Or.inr ⟨s :: before, s', rest', xs ++ ys', part, tail, res, rfl,
          (List.append_assoc ..).symm, .cons hrec hall, hpath,
          fun hfast => (hlast hfast).mono hfails, hseen⟩

/-- What a step sends is sent by its body, or is its record. -/
theorem StepLog.sends {S : Statement → Prop} {s : Step} {r : Except MigrationError Unit}
    (h : u.StepLog d s xs r) (hbody : (s.body d).Sends S) {st : Statement}
    {a : Except DriverError Unit} (hx : .execute st a ∈ xs) : S st ∨ st = u.recordOf s.version := by
  cases r with
  | ok =>
    obtain ⟨body, hpath, rfl⟩ := h
    simp only [List.mem_cons, List.mem_append, reduceCtorEq, false_or, List.not_mem_nil, or_false,
      Exchange.execute.injEq] at hx
    exact hx.imp (hbody.of_path hpath) And.left
  | error e =>
    cases h with
    | unreached e => simp at hx
    | failed hpath =>
      exact Or.inl (hbody.of_path hpath ((List.mem_cons.mp hx).resolve_left (by simp)))
    | unrecordable e hpath =>
      simp only [List.mem_cons, List.mem_append, reduceCtorEq, false_or, List.not_mem_nil, or_false]
        at hx
      exact Or.inl (hbody.of_path hpath hx)
    | unrecorded e hpath =>
      simp only [List.mem_cons, List.mem_append, reduceCtorEq, false_or, List.not_mem_nil, or_false,
        Exchange.execute.injEq] at hx
      exact hx.imp (hbody.of_path hpath) And.left

theorem StepsCourse.sends {S : Statement → Prop} {r : Except MigrationError (List Version)}
    (h : u.StepsCourse d shown p steps xs r q) (hbodies : ∀ s ∈ steps, (s.body d).Sends S)
    {st : Statement} {a : Except DriverError Unit} (hx : .execute st a ∈ xs) :
    S st ∨ ∃ v, st = u.recordOf v := by
  induction h with
  | done p => exact (List.not_mem_nil hx).elim
  | @stop p s rest xs e hstop _ =>
    have hsent := StepLog.sends (r := .error e) hstop (hbodies s List.mem_cons_self) hx
    exact hsent.imp id fun h => ⟨s.version, h⟩
  | @step p s rest xs ys r q hrec _ _ ih =>
    rcases List.mem_append.mp hx with hx | hx
    · have hsent := StepLog.sends (r := .ok ()) hrec (hbodies s List.mem_cons_self) hx
      exact hsent.imp id fun h => ⟨s.version, h⟩
    · exact ih (fun t ht => hbodies t (List.mem_cons_of_mem s ht)) hx

/-- **What a run sends**: the creation of its history table, what the bodies of its steps send, and
records. -/
theorem Course.sends {S : Statement → Prop} {closed : Bool} {r : Except MigrationError RunReport}
    (h : u.Course closed shown xs r p)
    (hbodies : u.registry.Sends S) {st : Statement} {a : Except DriverError Unit}
    (hx : .execute st a ∈ xs) :
    (∃ d, st ∈ History.creation d u.settings.historyTable) ∨ S st ∨ ∃ v, st = u.recordOf v := by
  have hopened : ∀ {d : Dialect} {boot : List Exchange} {q : Except MigrationError VersionSet},
      (u.opening d).Path boot q → .execute st a ∈ boot →
      ∃ d, st ∈ History.creation d u.settings.historyTable := fun {d} _ _ hopen hin =>
    ⟨d, History.mem_creation (((u.opening_orderly d).within.of_path hopen).1 _ hin)⟩
  cases h with
  | unsupported | closed => exact (List.not_mem_nil hx).elim
  | unreached e => simp at hx
  | unopened hd hc hopen | unplanned hd hc hopen =>
    exact Or.inl (hopened hopen ((List.mem_cons.mp hx).resolve_left (by simp)))
  | planned hd hc hopen hp hsteps =>
    rcases List.mem_append.mp ((List.mem_cons.mp hx).resolve_left (by simp)) with hx | hx
    · exact Or.inl (hopened hopen hx)
    · exact Or.inr (hsteps.sends (fun s hs => hbodies s (Registry.plan_mem hp hs) _) hx)

/-- Selected versions are distinct. -/
theorem plan_nodup {r : Registry} {policy : Policy} {completed : VersionSet}
    (h : r.plan policy completed = .ok steps) : (steps.map (·.version)).Nodup :=
  nodup_of_ascending (List.pairwise_map.mpr (Registry.plan_ascending h))

theorem settled_begun (e : MigrationError) :
    Settled none [] (.error e) (closing (.error e) .begun) := by
  rw [closing, Progress.failed_begun]
  exact .unplanned e

/-- Where the exchanges of an opening stand that ends a run. -/
theorem opening_placed {boot pre post : List Exchange} {x : Exchange} {e : MigrationError}
    {planned : Option (List Step)} {q : Except MigrationError VersionSet} (hd : u.dialect = .ok d)
    (h : u.Opened d boot q) (hx : .acquire (.ok ()) :: boot = pre ++ x :: post) :
    u.Placed shown planned (.error e) pre x post := by
  obtain ⟨hlast, ⟨a, rfl⟩ | hopening⟩ := opening_split hd h hx
  · exact .acquire rfl (hlast.mono fun _ _ => ⟨e, rfl⟩)
  · exact .opening hopening (hlast.mono fun _ _ => ⟨e, rfl⟩)

/-- **The log of a course**, what its progress comes to, and where its exchanges stand. -/
theorem Course.log {closed : Bool} {r : Except MigrationError RunReport}
    (h : u.Course closed shown xs r p) :
    ∃ planned applied, u.RunLog closed xs planned applied r ∧
      Settled planned applied r (closing r p) ∧
      ∀ pre x post, xs = pre ++ x :: post → u.Placed shown planned r pre x post := by
  cases h with
  | @unsupported e hd =>
    refine ⟨none, [], .unsupported hd, settled_begun e, fun pre x post hx => ?_⟩
    simp at hx
  | @closed d hd hc =>
    refine ⟨none, [], .closed hd hc, settled_begun _, fun pre x post hx => ?_⟩
    simp at hx
  | @unreached d e hd hc =>
    refine ⟨none, [], .unreached e hd hc, settled_begun _, fun pre x post hx => ?_⟩
    cases pre with
    | nil =>
      obtain ⟨rfl, rfl⟩ := List.cons.inj hx
      exact .acquire rfl fun _ => ⟨rfl, _, rfl⟩
    | cons y pre => simp at hx
  | @unopened d boot e hd hc hopen =>
    have hopen := (u.opening_opened d).mp hopen
    exact ⟨none, [], .unopened hd hc hopen, settled_begun e,
      fun _ _ _ => opening_placed hd hopen⟩
  | @unplanned d boot completed e hd hc hopen hp =>
    have hopen := (u.opening_opened d).mp hopen
    exact ⟨none, [], .unplanned hd hc hopen hp, settled_begun e,
      fun _ _ _ => opening_placed hd hopen⟩
  | @planned d boot completed pending ys r p hd hc hopen hp hsteps =>
    have hopen := (u.opening_opened d).mp hopen
    have hnodup := plan_nodup hp
    have hplace : ∀ pre x post, .acquire (.ok ()) :: (boot ++ ys) = pre ++ x :: post →
        u.Placed shown (some pending) (r.map fun applied => ⟨d, applied, completed.size⟩)
          pre x post := by
      intro pre x post hx
      have hmap : ∀ e, r = .error e → ∃ e',
          (r.map fun applied => (⟨d, applied, completed.size⟩ : RunReport)) = .error e' := by
        rintro e rfl
        exact ⟨e, rfl⟩
      rw [← List.cons_append] at hx
      rcases cut_append hx with ⟨t, ht, rfl⟩ | ⟨t, rfl, ht⟩
      · -- the opening succeeded, so nothing failed in it
        obtain ⟨hlast, ⟨a, rfl⟩ | hopening⟩ := opening_split hd hopen ht
        · exact .acquire rfl hlast.of_ok
        · exact .opening hopening hlast.of_ok
      · rcases hsteps.locate ht with
          ⟨hlast, ⟨a, rfl⟩ | ⟨before, s, rest, a, rfl, rfl, hsent⟩⟩ |
          ⟨before, s, rest, zs, part, tail, res, rfl, rfl, hall, hpath, hlast, hseen⟩
        · exact .acquire rfl (hlast.mono hmap)
        · refine .record rfl rfl (fun t' ht' => ?_) (hlast.mono hmap)
          exact List.mem_append_right _ (hsent t' ht')
        · have hbody : u.InStep d before s (.acquire (.ok ()) :: boot ++
              (zs ++ .acquire (.ok ()) :: part)) x :=
            ⟨boot, completed, zs, part, tail, res, rfl, hopen, hall, hpath⟩
          refine .inStep hd rfl hbody (fun hfast => (hlast hfast).mono hmap) fun seen hx => ?_
          rw [hseen seen hx, Progress.running_planned hnodup List.map_append]
    rcases hsteps.log with ⟨hall, rfl, rfl⟩ |
      ⟨before, s, rest, zs, us, e, rfl, rfl, hall, hstop, rfl, rfl⟩
    · refine ⟨some pending, pending, .finished hd hc hopen hp hall, ?_, hplace⟩
      show Settled _ _ _ (Progress.succeeded _)
      rw [Progress.succeeded_planned hnodup]
      exact .finished pending _
    · refine ⟨some (before ++ s :: rest), before, .stopped hd hc hopen hp hall hstop, ?_, hplace⟩
      show Settled _ _ _ (Progress.failed _ _)
      rw [Progress.failed_planned hnodup List.map_append]
      exact .stopped before s rest e

/-- **Only bodies of steps look at the progress**, and they see their step at work. -/
theorem Placed.observed {planned : Option (List Step)} {r : Except MigrationError RunReport}
    {pre post : List Exchange} (h : u.Placed shown planned r pre (.observe p) post) :
    ∃ d before s rest, planned = some (before ++ s :: rest) ∧
      u.InStep d before s pre (.observe p) ∧
      p = shown.getD (.stage .running (before.map (·.version)) (some (s.version, .running))
        (rest.map (·.version)) none) := by
  cases h with
  | acquire hx => cases hx
  | record hp hx => cases hx
  | opening hin =>
    obtain ⟨d, part, tail, q, -, -, hpath⟩ := hin
    -- the opening asks for the history and nothing else
    exact (((u.opening_orderly d).within.of_path hpath.path).1 (.observe p) (by simp)).elim
  | @inStep d before s rest hd hp hbody _ seen =>
    exact ⟨d, before, s, rest, hp, hbody, seen p rfl⟩

/-- There is one reason for an upgrade to have no dialect. -/
theorem dialect_error {e : MigrationError} (h : u.dialect = .error e) :
    e = .unsupportedDatabase u.driverName := by
  unfold dialect Dialect.ofDriverName at h
  split at h
  · cases h
  · exact (Except.error.inj h).symm

/-- A run that comes to a selection knows its dialect. -/
theorem RunLog.knows_dialect {closed : Bool} {planned : Option (List Step)} {applied : List Step}
    {r : Except MigrationError RunReport} (h : u.RunLog closed xs planned applied r)
    {selected : List Step} (hp : planned = some selected) : ∃ d, u.dialect = .ok d := by
  cases h with
  | finished hd _ _ _ _ | stopped hd _ _ _ _ _ => exact ⟨_, hd⟩
  | _ => cases hp

/-- In the body of a step, the steps before it have sent their records, with success. -/
theorem InStep.recorded {before : List Step} {s t : Step} {pre : List Exchange} {x : Exchange}
    (h : u.InStep d before s pre x) (ht : t ∈ before) :
    .execute (u.recordOf t.version) (.ok ()) ∈ pre := by
  obtain ⟨boot, completed, ys, part, tail, r, rfl, -, hall, -⟩ := h
  have hsent := hall.sent ht
  simp [hsent]

end Course

/-- **The log of every run.**  Whatever the steps do and the server answers, the journal grows by
the requests of a run log, with the answers of the server.  The selected steps stand in it in
ascending order of their versions.  Whatever is exchanged for a step, in its body or to record it,
comes after the successful records of the steps before it.  Nothing comes after a failure, unless
the body of a step itself goes on after failures and asked for what failed. -/
theorem run_log (u : Upgrade) (srv : Server σ) (w : World σ) :
    let log := srv.exchanges w (World.leftBy (u.run srv w))
    let result := World.outcome (u.run srv w)
    ((World.leftBy (u.run srv w)).journal.filter fun e => !e.isEvent) =
        (w.journal.filter fun e => !e.isEvent) ++ log.map Exchange.entry ∧
      srv.Gives w.server log ∧
      ∃ planned applied, u.RunLog w.closed log planned applied result ∧
        (∀ steps ∈ planned, steps.Pairwise fun s t => s.version < t.version) ∧
        ∀ pre x post, log = pre ++ x :: post →
          ((∃ a, x = .acquire a) ∨ u.InOpening pre x ∨
            ∃ d before s rest, u.dialect = .ok d ∧ planned = some (before ++ s :: rest) ∧
              (u.InStep d before s pre x ∨ ∃ a, x = .execute (u.recordOf s.version) a) ∧
              ∀ t ∈ before, .execute (u.recordOf t.version) (.ok ()) ∈ pre) ∧
          (x.Failed → (post = [] ∧ ∃ e, result = .error e) ∨
            ∃ d before s rest, u.dialect = .ok d ∧ planned = some (before ++ s :: rest) ∧
              u.InStep d before s pre x ∧ ¬ (s.body d).FailsFast) := by
  obtain ⟨xs, r, w', p, hrun, hcourse, -⟩ := u.run_performs srv w
  obtain ⟨planned, applied, hlog, -, hplaced⟩ := hcourse.log
  simp only [hrun.eq, World.leftBy_ended, World.outcome_ended, hrun.leads.exchanges]
  refine ⟨hrun.leads.requests, hrun.leads.gives, planned, applied, hlog, ?_, ?_⟩
  · intro steps hsteps
    cases hlog with
    | finished _ _ _ hp _ => exact Option.some.inj hsteps ▸ Registry.plan_ascending hp
    | stopped _ _ _ hp _ _ => exact Option.some.inj hsteps ▸ Registry.plan_ascending hp
    | _ => cases hsteps
  · intro pre x post hx
    cases hplaced pre x post hx with
    | acquire hx hlast => exact ⟨Or.inl ⟨_, hx⟩, fun hf => Or.inl (hlast hf)⟩
    | opening hin hlast => exact ⟨Or.inr (Or.inl hin), fun hf => Or.inl (hlast hf)⟩
    | @record before s rest a hp hx hsent hlast =>
      obtain ⟨d, hd⟩ := hlog.knows_dialect hp
      refine ⟨Or.inr (Or.inr ⟨d, before, s, rest, hd, hp, Or.inr ⟨a, hx⟩, hsent⟩), ?_⟩
      exact fun hf => Or.inl (hlast hf)
    | @inStep d before s rest hd hp hbody hlast _ =>
      constructor
      · have hsent : ∀ t ∈ before, .execute (u.recordOf t.version) (.ok ()) ∈ pre :=
          fun t ht => hbody.recorded ht
        exact Or.inr (Or.inr ⟨d, before, s, rest, hd, hp, Or.inl hbody, hsent⟩)
      · intro hf
        by_cases hfast : (s.body d).FailsFast
        · exact Or.inl (hlast hfast hf)
        · exact Or.inr ⟨d, before, s, rest, hd, hp, hbody, hfast⟩

/-- A body that goes on after a failure is recorded all the same, although a statement in the middle
of the log has failed.  And where the kind of database is not known, not even a connection is
taken. -/
theorem failure_outlived :
    let u : Upgrade := {
      driverName := "SQLite"
      registry := ⟨#[⟨⟨1, by decide⟩, "a", fun _ => .execute (.dropTable "old") fun _ => pure ()⟩],
        by simp⟩ }
    let elsewhere : Upgrade := { u with driverName := "MSSQL" }
    let table := "schema_migrations"
    let columns := ["version", "status", "completed_at"]
    let w : World Script := {
      server := {
        replies := [.number 1, .texts columns, .number 1, .texts [], .failure .rowNotFound] } }
    (Script.server.exchanges w (World.leftBy (u.run Script.server w)) =
        [.acquire (.ok ()), .count (.object (.table table)) (.ok 1),
          .list (.columns table) (.ok columns), .count (.object (.table table)) (.ok 1),
          .list (.completedVersions table) (.ok []), .acquire (.ok ()),
          .execute (.dropTable "old") (.error .rowNotFound), .acquire (.ok ()),
          .execute (.recordVersion table ⟨1, by decide⟩) (.ok ())] ∧
      World.outcome (u.run Script.server w) = .ok ⟨.sqlite, u.registry.versions, 0⟩) ∧
      Script.server.exchanges w (World.leftBy (elsewhere.run Script.server w)) = [] ∧
      World.outcome (elsewhere.run Script.server w) = .error (.unsupportedDatabase "MSSQL") := by
  refine ⟨⟨?_, ?_⟩, ?_, ?_⟩
  · rfl
  · decide +kernel
  · rfl
  · decide +kernel

end Upgrade
end SchemaMigration
