import SchemaMigration.Proofs.DueStatements

/-!
# Guarded changes one after the other

Changes pass on a catalog if each of them finds its statements due and the catalog carries them out
(`Catalog.Passes`).  Running changes on a database that answers from a catalog succeeds exactly if
they pass (`Change.ensureAll_passes`, `Change.ensureAll_of_passes`), and then sends the statements
that are due and has their effect.  On a troubled database a run may also end early; a first part of
the statements has been carried out then.
-/
namespace SchemaMigration
open Program

/-- The statement that an exchange sends. -/
def Exchange.statement? : Exchange → Option Statement
  | .execute st _ => some st
  | _ => none

/-- The statements that are sent, in order. -/
def statementsIn (xs : List Exchange) : List Statement :=
  xs.filterMap (·.statement?)

theorem statementsIn_append (xs ys : List Exchange) :
    statementsIn (xs ++ ys) = statementsIn xs ++ statementsIn ys :=
  List.filterMap_append

theorem statementsIn_questions {xs : List Exchange} (h : ∀ x ∈ xs, x.IsQuestion) :
    statementsIn xs = [] := by
  refine List.filterMap_eq_nil_iff.mpr fun x hx => ?_
  have hquestion := h x hx
  cases x with
  | execute st a => exact hquestion.elim
  | _ => rfl

/-- Nothing is executed where no statement is sent. -/
theorem not_mem_of_statementsIn {xs : List Exchange} (h : statementsIn xs = []) (st : Statement)
    (a : Except DriverError Unit) : .execute st a ∉ xs := fun hx =>
  Option.some_ne_none st (List.filterMap_eq_nil_iff.mp h _ hx)

namespace Catalog

variable {d : Dialect} {c c₁ c₂ c' : Catalog}

theorem carryOutAll_append (d : Dialect) (c : Catalog) (l l' : List Statement) :
    c.carryOutAll d (l ++ l') = c.carryOutAll d l >>= fun c' => c'.carryOutAll d l' := by
  induction l generalizing c with
  | nil => rfl
  | cons st l ih =>
    show (c.carryOut d st >>= fun c' => c'.carryOutAll d (l ++ l')) = _
    cases h : c.carryOut d st with
    | error f => simp only [carryOutAll, h]; rfl
    | ok c₁ => simp only [carryOutAll, h]; exact ih c₁

theorem carryOutAll_cons_ok {st : Statement} {l : List Statement} :
    c.carryOutAll d (st :: l) = .ok c' ↔
      ∃ c₁, c.carryOut d st = .ok c₁ ∧ c₁.carryOutAll d l = .ok c' :=
  bind_eq_ok

theorem carryOutAll_append_ok {l l' : List Statement} :
    c.carryOutAll d (l ++ l') = .ok c' ↔
      ∃ c₁, c.carryOutAll d l = .ok c₁ ∧ c₁.carryOutAll d l' = .ok c' := by
  rw [carryOutAll_append]
  exact bind_eq_ok

/-- Of the statements `l`, a first part is carried out and leads from `c` to `c'`; the others are
not, because of trouble, or because the next one is refused. -/
def Halts (d : Dialect) (trouble : Prop) (c : Catalog) (l : List Statement) (c' : Catalog) : Prop :=
  ∃ l₁ l₂, l = l₁ ++ l₂ ∧ c.carryOutAll d l₁ = .ok c' ∧
    (trouble ∨ ∃ st rest f, l₂ = st :: rest ∧ c'.carryOut d st = .error f)

theorem Halts.after {trouble : Prop} {l₀ l : List Statement} (h₀ : c.carryOutAll d l₀ = .ok c₁)
    (h : Halts d trouble c₁ l c') : Halts d trouble c (l₀ ++ l) c' := by
  obtain ⟨l₁, l₂, rfl, hcarried, hstop⟩ := h
  refine ⟨l₀ ++ l₁, l₂, (List.append_assoc ..).symm, ?_, hstop⟩
  exact carryOutAll_append_ok.mpr ⟨c₁, h₀, hcarried⟩

/-- There is trouble, and a first part of the statements `l` has led from `c` to `c'`. -/
def BreaksOff (d : Dialect) (trouble : Prop) (c : Catalog) (l : List Statement) (c' : Catalog) :
    Prop :=
  trouble ∧ ∃ l₁ l₂, l = l₁ ++ l₂ ∧ c.carryOutAll d l₁ = .ok c'

theorem BreaksOff.now {trouble : Prop} (ht : trouble) (c : Catalog) (l : List Statement) :
    BreaksOff d trouble c l c :=
  ⟨ht, [], l, rfl, rfl⟩

theorem BreaksOff.after {trouble : Prop} {l₀ l : List Statement}
    (h₀ : c.carryOutAll d l₀ = .ok c₁) (h : BreaksOff d trouble c₁ l c') :
    BreaksOff d trouble c (l₀ ++ l) c' := by
  obtain ⟨ht, l₁, l₂, rfl, hcarried⟩ := h
  refine ⟨ht, l₀ ++ l₁, l₂, (List.append_assoc ..).symm, ?_⟩
  exact carryOutAll_append_ok.mpr ⟨c₁, h₀, hcarried⟩

theorem BreaksOff.before {trouble : Prop} {l : List Statement} (h : BreaksOff d trouble c l c')
    (others : List Statement) : BreaksOff d trouble c (l ++ others) c' := by
  obtain ⟨ht, l₁, l₂, rfl, hcarried⟩ := h
  exact ⟨ht, l₁, l₂ ++ others, List.append_assoc .., hcarried⟩

/-- Statements that can all be carried out halt because of trouble only. -/
theorem Halts.breaksOff {trouble : Prop} {l : List Statement} (h : Halts d trouble c l c')
    (hall : c.carryOutAll d l = .ok c₁) : BreaksOff d trouble c l c' := by
  obtain ⟨l₁, l₂, rfl, hcarried, ht | ⟨st, rest, f, rfl, hrefused⟩⟩ := h
  · exact ⟨ht, l₁, l₂, rfl, hcarried⟩
  · obtain ⟨c₂, hc₂, hrest⟩ := carryOutAll_append_ok.mp hall
    cases hcarried.symm.trans hc₂
    obtain ⟨c₃, hc₃, -⟩ := carryOutAll_cons_ok.mp hrest
    cases hrefused.symm.trans hc₃

end Catalog

section Fronts
open Catalog

variable {σ : Type} {srv : Server σ} {view : σ → Catalog} {trouble : Prop} {d : Dialect}

/-- One statement is carried out, or fails; after a failure it may have been carried out in case of
trouble only. -/
theorem Server.Fronts.execute (hf : srv.Fronts d view trouble) {s : σ} {st : Statement}
    {a : Except DriverError Unit} (hg : srv.reply s (.execute st) = some (.execute st a)) :
    (a = .ok () ∧ (view s).carryOut d st = .ok (view (srv.next s (.execute st a)))) ∨
      ((∃ e, a = .error e) ∧
        Halts d trouble (view s) [st] (view (srv.next s (.execute st a)))) := by
  -- what the catalog itself answers, and what it is afterwards
  have hown : ∀ c : Catalog, (∃ c', c.carryOut d st = .ok c' ∧
      (server d).execute st c = (.ok (), c')) ∨ ∃ f, c.carryOut d st = .error f ∧
      (server d).execute st c = (.error (refusal f), c) := by
    intro c
    cases h : c.carryOut d st with
    | ok c' => exact Or.inl ⟨c', rfl, by simp only [server, h]⟩
    | error f => exact Or.inr ⟨f, rfl, by simp only [server, h]⟩
  rcases hf.answers s (.execute st a) hg with ⟨hreply, hview⟩ | ⟨ht, hfail, hview⟩
  · have ha : ((server d).execute st (view s)).1 = a :=
      (Exchange.execute.inj (Option.some.inj hreply)).2
    rw [hview]
    rcases hown (view s) with ⟨c', hc', he⟩ | ⟨f, hc', he⟩
    · exact Or.inl ⟨by rw [← ha, he], by rw [hc', Server.next, he]⟩
    · refine Or.inr ⟨⟨_, by rw [← ha, he]⟩, [], [st], rfl, ?_, Or.inr ⟨st, [], f, rfl, ?_⟩⟩
      · rw [Server.next, he]
        rfl
      · rwa [Server.next, he]
  · cases a with
    | ok => exact hfail.elim
    | error e =>
      refine Or.inr ⟨⟨e, rfl⟩, ?_⟩
      have hlost : Halts d trouble (view s) [st] (view s) := ⟨[], [st], rfl, rfl, Or.inl ht⟩
      rcases hview with hview | hview <;> rw [hview]
      · exact hlost
      rcases hown (view s) with ⟨c', hc', he⟩ | ⟨f, -, he⟩ <;> rw [Server.next, he]
      · exact ⟨[st], [], rfl, carryOutAll_cons_ok.mpr ⟨c', hc', rfl⟩, Or.inl ht⟩
      · exact hlost

/-- **Statements are carried out in order**, up to the first that fails. -/
theorem sendAll_fares (hf : srv.Fronts d view trouble) {l : List Statement} {s : σ}
    {xs : List Exchange} {r : Except MigrationError Unit} (hp : (sendAll l).Path xs r)
    (hg : srv.Gives s xs) :
    (r = .ok () ∧ statementsIn xs = l ∧
      (view s).carryOutAll d l = .ok (view (srv.after s xs))) ∨
      ((∃ e, r = .error e) ∧ Halts d trouble (view s) l (view (srv.after s xs))) := by
  induction l generalizing s xs with
  | nil =>
    obtain ⟨rfl, rfl⟩ := Path.of_pure hp
    exact Or.inl ⟨rfl, rfl, rfl⟩
  | cons st rest ih =>
    change (send st >>= fun _ => sendAll rest).Path xs r at hp
    rcases Path.of_bind hp with ⟨e, rfl, hsend⟩ | ⟨ys, zs, _, rfl, hsend, hrest⟩
    · obtain ⟨a, rfl, ha⟩ := Path.of_send hsend
      rcases hf.execute hg.1 with ⟨rfl, -⟩ | ⟨-, l₁, l₂, hl, hcarried, hstop⟩
      · cases ha
      · refine Or.inr ⟨⟨e, rfl⟩, l₁, l₂ ++ rest, ?_, hcarried, ?_⟩
        · rw [← List.append_assoc, ← hl]
          rfl
        · rcases hstop with ht | ⟨st', rest', f, rfl, hf⟩
          · exact Or.inl ht
          · exact Or.inr ⟨st', rest' ++ rest, f, rfl, hf⟩
    · obtain ⟨a, rfl, ha⟩ := Path.of_send hsend
      rcases hf.execute hg.1 with ⟨rfl, hc₁⟩ | ⟨⟨e, rfl⟩, -⟩
      · rcases ih hrest hg.2 with ⟨rfl, hsent, hall⟩ | ⟨he, hhalts⟩
        · refine Or.inl ⟨rfl, congrArg (st :: ·) hsent, ?_⟩
          exact carryOutAll_cons_ok.mpr ⟨_, hc₁, hall⟩
        · have hone : (view s).carryOutAll d [st] =
              .ok (view (srv.next s (.execute st (.ok ())))) :=
            carryOutAll_cons_ok.mpr ⟨_, hc₁, rfl⟩
          exact Or.inr ⟨he, hhalts.after hone⟩
      · cases ha

end Fronts

namespace Catalog

/-- Changes pass on the catalog `c`, one after the other: for each of them the statements in `ls`
are due, and they are carried out and lead to `c'` in the end. -/
inductive Passes (d : Dialect) : Catalog → List Change → List (List Statement) → Catalog → Prop
  | nil (c) : Passes d c [] [] c
  | cons {c x xs l ls c₁ c'} (hdue : c.due d x = .ok l) (hcarried : c.carryOutAll d l = .ok c₁)
    (hrest : Passes d c₁ xs ls c') : Passes d c (x :: xs) (l :: ls) c'

/-- The effect of changes that pass is that of their statements. -/
theorem Passes.carryOutAll {d : Dialect} {c c' : Catalog} {xs : List Change}
    {ls : List (List Statement)} (h : Passes d c xs ls c') :
    c.carryOutAll d ls.flatten = .ok c' := by
  induction h with
  | nil c => rfl
  | cons _ hcarried _ ih =>
    rw [List.flatten_cons]
    exact carryOutAll_append_ok.mpr ⟨_, hcarried, ih⟩

/-- What changes do to a catalog is fixed. -/
theorem Passes.unique {d : Dialect} {c c₁ c₂ : Catalog} {xs : List Change}
    {ls ms : List (List Statement)} (h : Passes d c xs ls c₁) (h' : Passes d c xs ms c₂) :
    ls = ms ∧ c₁ = c₂ := by
  induction h generalizing ms with
  | nil c =>
    cases h'
    exact ⟨rfl, rfl⟩
  | cons hdue hcarried _ ih =>
    cases h' with
    | cons hdue' hcarried' hrest' =>
      cases hdue.symm.trans hdue'
      cases hcarried.symm.trans hcarried'
      obtain ⟨rfl, rfl⟩ := ih hrest'
      exact ⟨rfl, rfl⟩

end Catalog

namespace Change
open Catalog

variable {σ : Type} {srv : Server σ} {view : σ → Catalog} {trouble : Prop} {d : Dialect}
  {s : σ} {xs : List Exchange}

/-- A change that succeeds has found statements due, and they have been carried out. -/
theorem ensure_passes (hf : srv.Fronts d view trouble) {x : Change} {b : Bool}
    (hp : (x.ensure d).Path xs (.ok b)) (hg : srv.Gives s xs) :
    ∃ l, (view s).due d x = .ok l ∧ b = !l.isEmpty ∧ statementsIn xs = l ∧
      (view s).carryOutAll d l = .ok (view (srv.after s xs)) := by
  rcases x.ensure_looks hf (view s) s xs _ rfl hp hg with
    ⟨-, ⟨e, he⟩, -⟩ | ⟨qs, ys, rfl, hqs, hview, hcarry, hgs⟩
  · cases he
  cases hdue : (view s).due d x with
  | error e =>
    rw [hdue] at hcarry
    cases (Path.of_fail hcarry).2
  | ok l =>
    rw [hdue] at hcarry
    rcases Path.of_bind hcarry with ⟨e, he, -⟩ | ⟨zs, us, _, rfl, hsend, hend⟩
    · cases he
    obtain ⟨rfl, hb⟩ := Path.of_pure hend
    cases hb
    rw [List.append_nil] at hgs ⊢
    rcases sendAll_fares hf hsend hgs with ⟨-, hsent, hall⟩ | ⟨⟨e, he⟩, -⟩
    · refine ⟨l, rfl, rfl, ?_, ?_⟩
      · rw [statementsIn_append, statementsIn_questions hqs, hsent, List.nil_append]
      · rw [hview] at hall
        rwa [Server.after_append]
    · cases he

/-- A change whose statements are due and can be carried out succeeds, unless there is trouble. -/
theorem ensure_of_passes (hf : srv.Fronts d view trouble) {x : Change}
    {r : Except MigrationError Bool}
    (hp : (x.ensure d).Path xs r) (hg : srv.Gives s xs) {l : List Statement} {c' : Catalog}
    (hdue : (view s).due d x = .ok l) (hall : (view s).carryOutAll d l = .ok c') :
    r = .ok (!l.isEmpty) ∨
      ((∃ e, r = .error e) ∧ BreaksOff d trouble (view s) l (view (srv.after s xs))) := by
  rcases x.ensure_looks hf (view s) s xs _ rfl hp hg with
    ⟨ht, he, hview, -⟩ | ⟨qs, ys, rfl, hqs, hview, hcarry, hgs⟩
  · exact Or.inr ⟨he, hview ▸ .now ht _ l⟩
  rw [hdue] at hcarry
  rcases Path.of_bind hcarry with ⟨e, rfl, hsend⟩ | ⟨zs, us, _, rfl, hsend, hend⟩
  · rcases sendAll_fares hf hsend hgs with ⟨he, -⟩ | ⟨-, hhalts⟩
    · cases he
    · rw [hview] at hhalts
      rw [Server.after_append]
      exact Or.inr ⟨⟨e, rfl⟩, hhalts.breaksOff hall⟩
  · exact Or.inl (Path.of_pure hend).2

/-- **Changes that succeed have passed**, and sent what was due. -/
theorem ensureAll_passes (hf : srv.Fronts d view trouble) {changes : List Change} {bs : List Bool}
    (hp : (ensureAll d changes).Path xs (.ok bs)) (hg : srv.Gives s xs) :
    ∃ ls, Passes d (view s) changes ls (view (srv.after s xs)) ∧
      bs = ls.map (fun l => !l.isEmpty) ∧ statementsIn xs = ls.flatten := by
  induction changes generalizing s xs bs with
  | nil =>
    obtain ⟨rfl, hbs⟩ := Path.of_pure hp
    cases hbs
    exact ⟨[], .nil _, rfl, rfl⟩
  | cons x rest ih =>
    rcases Path.of_bind hp with ⟨e, he, -⟩ | ⟨ys, zs, b, rfl, hone, hgo⟩
    · cases he
    rcases Path.of_bind hgo with ⟨e, he, -⟩ | ⟨us, vs, others, rfl, hall, hend⟩
    · cases he
    obtain ⟨rfl, hbs⟩ := Path.of_pure hend
    cases hbs
    rw [List.append_nil] at hg ⊢
    obtain ⟨hgone, hgrest⟩ := (srv.gives_append s ys us).mp hg
    obtain ⟨l, hdue, rfl, hsent, hcarried⟩ := ensure_passes hf hone hgone
    obtain ⟨ls, hpasses, rfl, hsents⟩ := ih hall hgrest
    rw [Server.after_append]
    refine ⟨l :: ls, .cons hdue hcarried hpasses, rfl, ?_⟩
    rw [statementsIn_append, hsent, hsents, List.flatten_cons]

/-- **Changes that pass succeed**, unless there is trouble; a first part of what was due has been
carried out then. -/
theorem ensureAll_of_passes (hf : srv.Fronts d view trouble) {changes : List Change}
    {ls : List (List Statement)} {c c' : Catalog} (hpasses : Passes d c changes ls c')
    (hs : view s = c) {r : Except MigrationError (List Bool)}
    (hp : (ensureAll d changes).Path xs r) (hg : srv.Gives s xs) :
    (∃ bs, r = .ok bs) ∨
      ((∃ e, r = .error e) ∧ BreaksOff d trouble c ls.flatten (view (srv.after s xs))) := by
  induction hpasses generalizing s xs r with
  | nil c => exact Or.inl ⟨[], (Path.of_pure hp).2⟩
  | @cons c x rest l ls c₁ c' hdue hcarried _ ih =>
    subst hs
    rw [List.flatten_cons]
    rcases Path.of_bind hp with ⟨e, rfl, hone⟩ | ⟨ys, zs, b, rfl, hone, hgo⟩
    · rcases ensure_of_passes hf hone hg hdue hcarried with hok | ⟨-, hbreak⟩
      · cases hok
      · exact Or.inr ⟨⟨e, rfl⟩, hbreak.before _⟩
    · obtain ⟨hgone, hgrest⟩ := (srv.gives_append s ys zs).mp hg
      obtain ⟨l', hdue', -, -, hcarried'⟩ := ensure_passes hf hone hgone
      cases hdue.symm.trans hdue'
      have hview : view (srv.after s ys) = c₁ := Except.ok.inj (hcarried'.symm.trans hcarried)
      rw [Server.after_append]
      rcases Path.of_bind hgo with ⟨e, rfl, hall⟩ | ⟨us, vs, others, rfl, hall, hend⟩
      · rcases ih hview hall hgrest with ⟨bs, hok⟩ | ⟨-, hbreak⟩
        · cases hok
        · exact Or.inr ⟨⟨e, rfl⟩, hbreak.after hcarried⟩
      · exact Or.inl ⟨_, (Path.of_pure hend).2⟩

/-! ## On the model of a database itself -/

variable {w : World Catalog} {span : Option Span} {changes : List Change}

theorem run_passes {bs : List Bool}
    (h : World.outcome ((ensureAll d changes).run (Catalog.server d) span w) = .ok bs) :
    ∃ ls, Passes d w.server changes ls
      (World.leftBy ((ensureAll d changes).run (Catalog.server d) span w)).server := by
  obtain ⟨xs, r, w', hrun, hpath, -⟩ :=
    (ensureAll d changes).run_performs (Catalog.server d) span w
  rw [hrun.eq, World.outcome_ended] at h
  subst h
  obtain ⟨ls, hpasses, -⟩ := ensureAll_passes (fronts d) hpath hrun.leads.gives
  rw [hrun.eq, World.leftBy_ended, hrun.leads.server]
  exact ⟨ls, hpasses⟩

theorem run_of_passes {ls : List (List Statement)} {c' : Catalog}
    (h : Passes d w.server changes ls c') (span : Option Span) :
    World.outcome ((ensureAll d changes).run (Catalog.server d) span w) =
        .ok (ls.map fun l => !l.isEmpty) ∧
      (World.leftBy ((ensureAll d changes).run (Catalog.server d) span w)).server = c' ∧
      statementsIn ((Catalog.server d).exchanges w
        (World.leftBy ((ensureAll d changes).run (Catalog.server d) span w))) = ls.flatten := by
  obtain ⟨xs, r, w', hrun, hpath, -⟩ :=
    (ensureAll d changes).run_performs (Catalog.server d) span w
  rw [hrun.eq, World.outcome_ended, World.leftBy_ended, hrun.leads.server, hrun.leads.exchanges]
  rcases ensureAll_of_passes (fronts d) h rfl hpath hrun.leads.gives with ⟨bs, rfl⟩ | ⟨-, hno, -⟩
  · obtain ⟨ls', hpasses, rfl, hsent⟩ := ensureAll_passes (fronts d) hpath hrun.leads.gives
    obtain ⟨rfl, rfl⟩ := h.unique hpasses
    exact ⟨rfl, rfl, hsent⟩
  · exact hno.elim

/-- One change succeeds if the statements that are due for it can be carried out. -/
theorem run_of_due {x : Change} {l : List Statement} {c' : Catalog}
    (hdue : w.server.due d x = .ok l) (hcarried : w.server.carryOutAll d l = .ok c')
    (span : Option Span) :
    World.outcome ((x.ensure d).run (Catalog.server d) span w) = .ok (!l.isEmpty) ∧
      (World.leftBy ((x.ensure d).run (Catalog.server d) span w)).server = c' ∧
      statementsIn ((Catalog.server d).exchanges w
        (World.leftBy ((x.ensure d).run (Catalog.server d) span w))) = l := by
  obtain ⟨xs, r, w', hrun, hpath, -⟩ := (x.ensure d).run_performs (Catalog.server d) span w
  rw [hrun.eq, World.outcome_ended, World.leftBy_ended, hrun.leads.server, hrun.leads.exchanges]
  rcases ensure_of_passes (fronts d) hpath hrun.leads.gives hdue hcarried with rfl | ⟨-, hno, -⟩
  · obtain ⟨l', hdue', -, hsent, hcarried'⟩ := ensure_passes (fronts d) hpath hrun.leads.gives
    cases hdue.symm.trans hdue'
    cases hcarried.symm.trans hcarried'
    exact ⟨rfl, rfl, hsent⟩
  · exact hno.elim

/-- One change that succeeds has found statements due, and sent them. -/
theorem run_due {x : Change} {b : Bool}
    (h : World.outcome ((x.ensure d).run (Catalog.server d) span w) = .ok b) :
    ∃ l, w.server.due d x = .ok l ∧ b = !l.isEmpty ∧
      statementsIn ((Catalog.server d).exchanges w
        (World.leftBy ((x.ensure d).run (Catalog.server d) span w))) = l ∧
      w.server.carryOutAll d l =
        .ok (World.leftBy ((x.ensure d).run (Catalog.server d) span w)).server := by
  obtain ⟨xs, r, w', hrun, hpath, -⟩ := (x.ensure d).run_performs (Catalog.server d) span w
  rw [hrun.eq, World.outcome_ended] at h
  subst h
  rw [hrun.eq, World.leftBy_ended, hrun.leads.server, hrun.leads.exchanges]
  exact ensure_passes (fronts d) hpath hrun.leads.gives

/-- One change fails without a statement if the catalog is in its way. -/
theorem run_of_error {x : Change} {e : MigrationError} (hdue : w.server.due d x = .error e)
    (span : Option Span) :
    World.outcome ((x.ensure d).run (Catalog.server d) span w) = .error e ∧
      (World.leftBy ((x.ensure d).run (Catalog.server d) span w)).server = w.server ∧
      statementsIn ((Catalog.server d).exchanges w
        (World.leftBy ((x.ensure d).run (Catalog.server d) span w))) = [] := by
  obtain ⟨xs, r, w', hrun, hpath, -⟩ := (x.ensure d).run_performs (Catalog.server d) span w
  rw [hrun.eq, World.outcome_ended, World.leftBy_ended, hrun.leads.server, hrun.leads.exchanges]
  rcases x.ensure_looks (fronts d) w.server w.server xs _ rfl hpath hrun.leads.gives with
    ⟨hno, -⟩ | ⟨qs, ys, rfl, hqs, hview, hcarry, -⟩
  · exact hno.elim
  rw [hdue] at hcarry
  obtain ⟨rfl, rfl⟩ := Path.of_fail hcarry
  rw [List.append_nil]
  exact ⟨rfl, hview, statementsIn_questions hqs⟩

/-- A change that ends in a conflict has found it by looking, since a database that refuses a
statement gives an error of its own. -/
theorem due_of_conflict {x : Change} {cause : Conflict}
    (h : World.outcome ((x.ensure d).run (Catalog.server d) span w) = .error (.conflict cause)) :
    w.server.due d x = .error (.conflict cause) := by
  obtain ⟨xs, r, w', hrun, hpath, -⟩ := (x.ensure d).run_performs (Catalog.server d) span w
  rw [hrun.eq, World.outcome_ended] at h
  subst h
  rcases x.ensure_looks (fronts d) w.server w.server xs _ rfl hpath hrun.leads.gives with
    ⟨hno, -⟩ | ⟨qs, ys, rfl, -, -, hcarry, -⟩
  · exact hno.elim
  cases hdue : w.server.due d x with
  | error e =>
    rw [hdue] at hcarry
    cases (Path.of_fail hcarry).2
    rfl
  | ok l =>
    rw [hdue] at hcarry
    have hsent : (Program.carry (.ok l)).Orderly (fun _ => True) fun e => ∃ f, e = .driver f :=
      (orderly_sendAll (fun f => ⟨f, rfl⟩) fun _ _ => trivial).bind fun _ => orderly_pure _
    obtain ⟨f, hf⟩ := (hsent.within.of_path hcarry).2 _ rfl
    cases hf

end Change
end SchemaMigration
