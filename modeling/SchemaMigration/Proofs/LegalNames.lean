import Mathlib.Data.String.Basic
import SchemaMigration.Proofs.LegibleStatements
import SchemaMigration.Proofs.WellFormed

/-!
# Names that are taken over as they are

The name of an index or a constraint is cut before it is sent.  If what is asked for has allowed
characters only, what is left of it is a legal name (`Name.Legal`): a database has nothing to cut
and no case to change, so it stores the name that it is given.

That holds of every change that is built and makes something by such a name, and the requests that
look for what was made ask for that name, no matter which of the two names they are made with
(`Change.build_legal_name`).

The one name that no check looks at is the name that a table gives its primary key.  A table whose
key is called by the empty name is built (`Change.build_nameless_key`), so the theorem asks that
such a name is good (`Change.KeyNamed`).
-/
namespace SchemaMigration
open Program

namespace Name

variable {d : Dialect} {s requested n : String}

/-- A name that a database takes over as it is, made from the name that was requested. -/
structure Legal (d : Dialect) (requested n : String) : Prop where
  nonempty : n ≠ ""
  allowed : ∀ c ∈ n.toList, IsAllowed c
  /-- Nothing but the end of what was requested is missing. -/
  start : n.toList <+: requested.toList
  /-- Nothing is missing of a name that fits. -/
  whole : requested.utf8ByteSize ≤ d.nameLimit → n = requested
  fits : n.utf8ByteSize ≤ d.nameLimit
  /-- There is nothing left to cut. -/
  settled : d.fit n = n
  /-- In lower case the name is the same. -/
  lowercase : n.map Char.toLower = n

/-- Names of allowed characters have one byte for each of them. -/
theorem utf8ByteSize_eq_length (h : ∀ c ∈ s.toList, IsAllowed c) :
    s.utf8ByteSize = s.toList.length := by
  have hsize : ∀ c ∈ s.toList, c.utf8Size = 1 := fun c hc =>
    Char.utf8Size_eq_one_iff.mpr (by
      have hascii := (ascii_of_isPart (isPart_iff.mpr (h c hc))).1
      exact UInt32.le_iff_toNat_le.mpr (Nat.le_of_lt_succ hascii))
  have hlen : ∀ cs : List Char, (∀ c ∈ cs, c.utf8Size = 1) →
      String.utf8Len cs = cs.length := by
    intro cs hcs
    induction cs with
    | nil => rfl
    | cons c cs ih =>
      obtain ⟨hc, hrest⟩ := List.forall_mem_cons.mp hcs
      rw [String.utf8Len_cons, hc, ih hrest, List.length_cons]
  rw [← hlen _ hsize, ← String.utf8ByteSize_ofList, String.ofList_toList]

/-- **What is left of a good name is legal.** -/
theorem GoodDerived.legal_fit (d : Dialect) (h : GoodDerived requested) :
    Legal d requested (d.fit requested) := by
  have hstart : (d.fit requested).toList <+: requested.toList := by
    rw [Dialect.toList_fit]
    exact List.take_prefix _ _
  have hallowed : ∀ c ∈ (d.fit requested).toList, IsAllowed c := fun c hc =>
    h.allowed c (hstart.subset hc)
  refine ⟨mt Dialect.fit_eq_empty_iff.mp h.nonempty, hallowed, hstart, fun hfits => ?_, ?_,
    d.fit_fit requested, toLower_of_isPart fun c hc => isPart_iff.mpr (hallowed c hc)⟩
  · rw [utf8ByteSize_eq_length h.allowed] at hfits
    rw [← String.toList_inj, Dialect.toList_fit, List.take_of_length_le hfits]
  · rw [utf8ByteSize_eq_length hallowed, Dialect.toList_fit]
    exact List.length_take_le _ _

theorem Legal.goodDerived (h : Legal d requested n) : GoodDerived n :=
  ⟨h.nonempty, h.allowed⟩

/-- A table that has a good name gives its primary key a good name by itself. -/
theorem Good.goodDerived_key (h : Good d s) : GoodDerived ("pk_" ++ s) := by
  refine ⟨fun hempty => ?_, fun c hc => ?_⟩
  · have hnil := congrArg String.toList hempty
    simp at hnil
  · rw [String.toList_append] at hc
    rcases List.mem_append.mp hc with hc | hc
    · have hstart : ∀ c ∈ "pk_".toList, isPart c = true := List.all_eq_true.mp (by decide)
      exact isPart_iff.mp (hstart c hc)
    · exact h.allowed c hc

end Name

/-! ## Requests that a program makes for certain -/

namespace Program

variable {α β : Type} {S : Entry → Prop}

/-- Whenever the program ends with a result, it has made a request that satisfies `S`. -/
def Makes (S : Entry → Prop) : Program α → Prop
  | done (.ok _) => False
  | done (.error _) => True
  | execute s next => S (.execute s) ∨ ∀ a, (next a).Makes S
  | count q next => S (.count q) ∨ ∀ a, (next a).Makes S
  | list q next => S (.list q) ∨ ∀ a, (next a).Makes S
  | tell _ next => next.Makes S
  | observe next => ∀ p, S (.progress p) ∨ (next p).Makes S

theorem Makes.of_path {p : Program α} {xs : List Exchange} {r : Except MigrationError α}
    (hp : p.Makes S) (h : p.Path xs r) : (∃ x ∈ xs, S x.entry) ∨ ∃ e, r = .error e := by
  have hcons : ∀ {x : Exchange} {xs : List Exchange} {r : Except MigrationError α},
      S x.entry ∨ ((∃ y ∈ xs, S y.entry) ∨ ∃ e, r = .error e) →
      (∃ y ∈ x :: xs, S y.entry) ∨ ∃ e, r = .error e := by
    rintro x xs r (hx | ⟨y, hy, hS⟩ | hr)
    · exact .inl ⟨x, List.mem_cons_self, hx⟩
    · exact .inl ⟨y, List.mem_cons_of_mem x hy, hS⟩
    · exact .inr hr
  induction h with
  | done r =>
    cases r with
    | ok a => exact hp.elim
    | error e => exact .inr ⟨e, rfl⟩
  | execute s a _ ih | count s a _ ih | list s a _ ih =>
    exact hcons (hp.imp id fun hnext => ih (hnext a))
  | tell e _ ih => exact ih hp
  | observe q _ ih => exact hcons ((hp q).imp id ih)

/-- The second program runs only if the first ends with a result. -/
theorem Makes.first {p : Program α} {f : α → Program β} (hp : p.Makes S) :
    (p >>= f).Makes S := by
  change (p.bind f).Makes S
  induction p with
  | done r =>
    cases r with
    | ok a => exact hp.elim
    | error e => trivial
  | execute s next ih | count s next ih | list s next ih =>
    exact hp.imp id fun hnext a => ih a (hnext a)
  | tell e next ih => exact ih hp
  | observe next ih => exact fun q => (hp q).imp id (ih q)

theorem Makes.second {p : Program α} {f : α → Program β} (hf : ∀ a, (f a).Makes S) :
    (p >>= f).Makes S := by
  change (p.bind f).Makes S
  induction p with
  | done r =>
    cases r with
    | ok a => exact hf a
    | error e => trivial
  | execute s next ih | count s next ih | list s next ih => exact .inr ih
  | tell e next ih => exact ih
  | observe next ih => exact fun q => .inr (ih q)

theorem makes_holds {o : SchemaObject} (h : S (.count (.object o))) : (holds o).Makes S :=
  Makes.first (.inl h)

end Program

/-! ## What is named -/

/-- The name of an index or a constraint that the statement makes or drops. -/
def Statement.objectName? : Statement → Option String
  | createTable _ _ key => key.map (·.name)
  | createIndex i => some i.name
  | addConstraint k => some k.name
  | dropIndex _ name | dropConstraint _ name _ => some name
  | _ => none

/-- The name of an index or a constraint that is asked for, made or dropped. -/
def Entry.objectName? : Entry → Option String
  | .execute s => s.objectName?
  | .count (.object (.index _ name)) | .count (.object (.constraint _ name)) => some name
  | .list (.indexTables name) => some name
  | _ => none

/-- If an index or a constraint is asked for, made or dropped, it has the name. -/
def Entry.OnlyAbout (n : String) (e : Entry) : Prop :=
  ∀ name, e.objectName? = some name → name = n

/-- An index or a constraint of the table is asked for by the name. -/
def Entry.LooksFor (table n : String) (e : Entry) : Prop :=
  e = .count (.object (.index table n)) ∨ e = .count (.object (.constraint table n))

namespace Change

/-- The name of an index or a constraint that the change is to make or to drop.  A primary key goes
by the name of its table if it is given no other. -/
def objectName? : Change → Option String
  | createTable t =>
    if t.primaryKey = [] then none else some (t.primaryKeyName.getD ("pk_" ++ t.name))
  | createIndex i => some i.name
  | addConstraint k => some k.name
  | dropIndex _ name | dropConstraint _ name _ => some name
  | _ => none

/-- The change that asks for the same by another name. -/
def renamed (name : String) : Change → Change
  | createTable t => createTable { t with primaryKeyName := some name }
  | createIndex i => createIndex { i with name := name }
  | addConstraint k => addConstraint { k with name := name }
  | c => c

/-- The change looks for the object by its name.  A primary key is not looked for in this way: a
table has one at most. -/
def LooksByName : Change → Prop
  | createIndex _ | dropIndex _ _ => True
  | addConstraint k => k.kind = .unique
  | dropConstraint _ _ kind => kind = .unique
  | _ => False

/-- The name that a table gives its primary key, if any, is one that may be cut. -/
def KeyNamed : Change → Prop
  | createTable t => ∀ name, t.primaryKeyName = some name → Name.GoodDerived name
  | _ => True

variable {d : Dialect} {c : Change} {requested n : String} {l : List Statement}

/-- One statement makes or drops the object, by the part of the name that fits. -/
theorem statements_of_objectName (h : c.objectName? = some requested) :
    ∃ s, c.statements d = [s] ∧ s.objectName? = some (d.fit requested) := by
  cases c with
  | createTable t =>
    rw [objectName?, Option.ite_none_left_eq_some, Option.some.injEq] at h
    obtain ⟨hne, rfl⟩ := h
    refine ⟨_, rfl, ?_⟩
    rw [if_neg hne]
    rfl
  | createIndex i | addConstraint k | dropIndex table name | dropConstraint table name kind =>
    cases h
    exact ⟨_, rfl, rfl⟩
  | _ => cases h

theorem onlyAbout_statements (h : c.objectName? = some requested) :
    ∀ s ∈ c.statements d, Entry.OnlyAbout (d.fit requested) (.execute s) := by
  obtain ⟨s, hs, hname⟩ := statements_of_objectName (d := d) h
  intro s' hs' name hs'name
  rw [hs, List.mem_singleton] at hs'
  rw [hs'] at hs'name
  exact Option.some.inj (hs'name.symm.trans hname)

/-! ## Making -/

/-- What is made goes by a good name. -/
theorem goodDerived_of_objectName (hwell : c.WellFormed d) (hdrop : ¬ c.IsDrop) (hkey : c.KeyNamed)
    (h : c.objectName? = some requested) : Name.GoodDerived requested := by
  cases c with
  | createTable t =>
    rw [objectName?, Option.ite_none_left_eq_some, Option.some.injEq] at h
    obtain ⟨-, rfl⟩ := h
    cases hname : t.primaryKeyName with
    | none => exact hwell.1.goodDerived_key
    | some name => exact hkey name hname
  | createIndex i =>
    cases h
    exact hwell.2.1
  | addConstraint k =>
    cases h
    exact hwell.2.1
  | dropIndex | dropConstraint => exact (hdrop trivial).elim
  | _ => cases h

/-- Asked for by the name that is stored, the change is the same statement. -/
theorem statements_renamed (hdrop : ¬ c.IsDrop) (h : c.objectName? = some requested) :
    (c.renamed (d.fit requested)).statements d = c.statements d := by
  cases c with
  | createTable t =>
    rw [objectName?, Option.ite_none_left_eq_some, Option.some.injEq] at h
    obtain ⟨-, rfl⟩ := h
    simp only [renamed, statements, Table.storedKeyName, Option.getD_some, Dialect.fit_fit]
  | createIndex i =>
    cases h
    simp only [renamed, statements, Index.storedName, Dialect.fit_fit]
  | addConstraint k =>
    cases h
    simp only [renamed, statements, Constraint.storedName, Dialect.fit_fit]
  | dropIndex | dropConstraint => exact (hdrop trivial).elim
  | _ => cases h

theorem WellFormed.renamed (hwell : c.WellFormed d) (hn : Name.GoodDerived n) :
    (c.renamed n).WellFormed d := by
  cases c with
  | createTable t =>
    obtain ⟨hname, hcolumns, hkey⟩ := hwell
    exact ⟨hname, hcolumns, hkey.distinct, hkey.required⟩
  | createIndex i =>
    obtain ⟨htable, -, hcolumns⟩ := hwell
    exact ⟨htable, hn, hcolumns⟩
  | addConstraint k =>
    obtain ⟨htable, -, hcolumns⟩ := hwell
    exact ⟨htable, hn, hcolumns⟩
  | _ => exact hwell

theorem supported_renamed : (c.renamed n).supported d = c.supported d := by
  cases c <;> rfl

/-- The name stands in the text of the statement, between quotes. -/
theorem enclosed_of_objectName (hdrop : ¬ c.IsDrop) (h : c.objectName? = some requested)
    (hallowed : ∀ k ∈ (d.fit requested).toList, Name.IsAllowed k) : ∀ s ∈ c.statements d,
      Sql.enclose d.nameQuote (d.fit requested).toList <:+: (s.text d).toList := by
  have hplain : Sql.pieceChars d (.plainName (d.fit requested)) =
      Sql.enclose d.nameQuote (d.fit requested).toList := String.toList_ofList
  have hname : Sql.pieceChars d (.name (d.fit requested)) =
      Sql.enclose d.nameQuote (d.fit requested).toList := by
    rw [Sql.chars_name_eq fun k hk => Name.isPart_iff.mpr (hallowed k hk), hplain]
  intro s hs
  rw [Statement.text, Sql.toList_render]
  cases c with
  | createTable t =>
    rw [objectName?, Option.ite_none_left_eq_some, Option.some.injEq] at h
    obtain ⟨hne, rfl⟩ := h
    rw [statements, if_neg hne, List.mem_singleton] at hs
    rw [hs, ← hplain]
    refine Sql.infix_chars (List.mem_append_left _ (List.mem_append_right _ ?_))
    refine Sql.mem_commaSeparated (List.mem_append_right _ (List.mem_singleton_self _)) ?_
    show _ ∈ PrimaryKey.definition d _
    rw [PrimaryKey.definition_eq]
    simp [Table.storedKeyName]
  | createIndex i =>
    cases h
    rw [statements, List.mem_singleton] at hs
    rw [hs, ← hplain]
    refine Sql.infix_chars ?_
    simp [Statement.pieces, Index.storedName]
  | addConstraint k =>
    cases h
    rw [statements, List.mem_singleton] at hs
    rw [hs, ← hname]
    refine Sql.infix_chars ?_
    simp [Statement.pieces, Constraint.storedName]
  | dropIndex | dropConstraint => exact (hdrop trivial).elim
  | _ => cases h

/-! ## Looking -/

/-- Whatever it is answered, the change asks for, makes and drops indexes and constraints by the
name `n` only; and if it looks by name, it has looked for `n` when it ends with a result. -/
structure GoesBy (d : Dialect) (c : Change) (n : String) : Prop where
  only : ∀ {σ : Type} (srv : Server σ) (span : Option Span) (w : World σ),
    ∀ x ∈ srv.exchanges w (World.leftBy ((c.ensure d).run srv span w)), x.entry.OnlyAbout n
  looks : c.LooksByName → ∀ {σ : Type} (srv : Server σ) (span : Option Span) (w : World σ)
    (b : Bool), World.outcome ((c.ensure d).run srv span w) = .ok b →
      ∃ x ∈ srv.exchanges w (World.leftBy ((c.ensure d).run srv span w)),
        x.entry.LooksFor c.table n

theorem requireTable_onlyAbout (table : String) :
    (Guarded.requireTable table).Orderly (Entry.OnlyAbout n) fun _ => True := by
  refine (orderly_holds (fun _ => trivial) nofun).bind fun found => ?_
  cases found with
  | true => exact orderly_pure _
  | false => exact orderly_fail trivial

/-- Looking for an object, where looking for it is all right, and going on either way. -/
theorem holds_onlyAbout {o : SchemaObject} (ho : Entry.OnlyAbout n (.count (.object o)))
    {yes no : Program Bool} (hyes : yes.Orderly (Entry.OnlyAbout n) fun _ => True)
    (hno : no.Orderly (Entry.OnlyAbout n) fun _ => True) :
    (holds o >>= fun found => if found then yes else no).Orderly (Entry.OnlyAbout n)
      fun _ => True := by
  refine (orderly_holds (fun _ => trivial) ho).bind fun found => ?_
  cases found with
  | true => exact hyes
  | false => exact hno

theorem holdsConstraint_onlyAbout (table : String) (kind : ConstraintKind) :
    (Guarded.holdsConstraint table n kind).Orderly (Entry.OnlyAbout n) fun _ => True := by
  cases kind with
  | primaryKey => exact (orderly_ask (fun _ => trivial) nofun).bind fun _ => orderly_pure _
  | unique => exact orderly_holds (fun _ => trivial) fun _ h => (Option.some.inj h).symm

/-- **A change that names something goes by what is left of the name**, in all that it asks for. -/
theorem ensure_onlyAbout (d : Dialect) (h : c.objectName? = some requested) :
    (c.ensure d).Orderly (Entry.OnlyAbout (d.fit requested)) fun _ => True := by
  have hE : MigrationError.FromDatabase fun _ => True := ⟨fun _ => trivial, fun _ => trivial⟩
  have hcarry : ∀ part : Change, part.statements d = c.statements d →
      (Guarded.carryOut d part).Orderly (Entry.OnlyAbout (d.fit requested)) fun _ => True :=
    fun part hpart => Guarded.carryOut_orderly hE (fun _ _ => trivial)
      (hpart ▸ onlyAbout_statements h)
  have hskip : ∀ e : Event, (Guarded.skip e).Orderly
      (Entry.OnlyAbout (d.fit requested)) fun _ => True := fun e => Guarded.skip_orderly e
  have hsame : ∀ name, Option.some (d.fit requested) = some name → name = d.fit requested :=
    fun _ he => (Option.some.inj he).symm
  cases c with
  | createTable t =>
    refine (orderly_ofExcept fun _ _ => trivial).bind fun _ =>
      holds_onlyAbout (o := .table t.name) nofun ?_ (hcarry _ rfl)
    refine (orderly_askList (fun _ => trivial) nofun).bind fun existing => ?_
    show Orderly _ _ (ite _ _ _)
    split
    · exact hskip _
    · exact orderly_fail trivial
  | createIndex i =>
    cases h
    refine (orderly_ofExcept fun _ _ => trivial).bind fun _ =>
      (requireTable_onlyAbout _).bind fun _ =>
        holds_onlyAbout (o := .index i.table (i.storedName d)) hsame (hskip _) ?_
    refine .bind ?_ fun _ => hcarry _ rfl
    unfold Guarded.requireFreeIndexName
    split
    · refine (orderly_askList (fun _ => trivial) hsame).bind fun owners => ?_
      cases owners with
      | nil => exact orderly_pure ()
      | cons owner _ => exact orderly_fail trivial
    · exact orderly_pure _
  | addConstraint k =>
    cases h
    refine (orderly_ofExcept fun _ _ => trivial).bind fun _ =>
      ((Guarded.requireSupport_orderly d _).mono (fun _ => id) fun _ _ => trivial).bind fun _ =>
        (requireTable_onlyAbout _).bind fun _ =>
          (holdsConstraint_onlyAbout _ _).bind fun found => ?_
    cases found with
    | true => exact hskip _
    | false => exact hcarry _ rfl
  | dropIndex table name =>
    cases h
    refine holds_onlyAbout (o := .index table (d.fit requested)) hsame (hcarry _ ?_) (hskip _)
    simp only [statements, Dialect.fit_fit]
  | dropConstraint table name kind =>
    cases h
    refine ((Guarded.requireSupport_orderly d _).mono (fun _ => id) fun _ _ => trivial).bind
      fun _ => (holdsConstraint_onlyAbout _ _).bind fun found => ?_
    cases found with
    | true =>
      refine hcarry _ ?_
      simp only [statements, Dialect.fit_fit]
    | false => exact hskip _
  | _ => cases h

/-- A change that looks by name does so before it ends with a result. -/
theorem ensure_looksFor (d : Dialect) (h : c.objectName? = some requested) (hby : c.LooksByName) :
    (c.ensure d).Makes (Entry.LooksFor c.table (d.fit requested)) := by
  cases c with
  | createIndex i =>
    cases h
    exact .second fun _ => .second fun _ => .first (makes_holds (.inl rfl))
  | addConstraint k =>
    cases h
    refine .second fun _ => .second fun _ => .second fun _ => .first ?_
    rw [show k.kind = .unique from hby]
    exact makes_holds (.inr rfl)
  | dropIndex table name =>
    cases h
    exact .first (makes_holds (.inl rfl))
  | dropConstraint table name kind =>
    cases h
    refine .second fun _ => .first ?_
    rw [show kind = .unique from hby]
    exact makes_holds (.inr rfl)
  | _ => exact hby.elim

theorem goesBy (d : Dialect) (h : c.objectName? = some requested) :
    c.GoesBy d (d.fit requested) where
  only srv span w := by
    obtain ⟨xs, r, w', hrun, hpath, -⟩ := (c.ensure d).run_performs srv span w
    rw [hrun.eq, World.leftBy_ended, hrun.leads.exchanges]
    exact ((ensure_onlyAbout d h).within.of_path hpath).1
  looks hby _ srv span w b hok := by
    obtain ⟨xs, r, w', hrun, hpath, -⟩ := (c.ensure d).run_performs srv span w
    rw [hrun.eq, World.outcome_ended] at hok
    rw [hrun.eq, World.leftBy_ended, hrun.leads.exchanges]
    rcases (ensure_looksFor d h hby).of_path hpath with hlooked | ⟨e, he⟩
    · exact hlooked
    · rw [he] at hok
      cases hok

/-! ## Legal names -/

/-- The statement, to which the change is built, makes an object by the name `n`, and that is the
name by which the object is known afterwards. -/
structure MakesByName (d : Dialect) (c : Change) (requested n : String) (s : Statement) :
    Prop where
  named : s.objectName? = some n
  legal : Name.Legal d requested n
  /-- The name stands in the text, between quotes. -/
  written : Sql.enclose d.nameQuote n.toList <:+: (s.text d).toList
  /-- The change that asks for the object by the name that is stored is the same statement. -/
  again : (c.renamed n).build d = .ok [s]
  /-- By whatever name the object is asked for or dropped, if that is cut to the name that is
  stored, as the requested name is and the stored one itself, the stored one is looked for. -/
  known : ∀ x name, objectName? x = some name → d.fit name = n → x.GoesBy d n

/-- **What is made is made by a legal name.** -/
theorem build_legal_name (hdrop : ¬ c.IsDrop) (hname : c.objectName? = some requested)
    (hkey : c.KeyNamed) (hbuild : c.build d = .ok l) :
    ∃ n s, l = [s] ∧ c.MakesByName d requested n s := by
  obtain ⟨hcheck, hsupported, rfl⟩ := build_eq_ok.mp hbuild
  have hwell := check_eq_ok_iff.mp hcheck
  have hlegal := (goodDerived_of_objectName hwell hdrop hkey hname).legal_fit d
  obtain ⟨s, hs, hnamed⟩ := statements_of_objectName (d := d) hname
  refine ⟨d.fit requested, s, hs, hnamed, hlegal, ?_, ?_, ?_⟩
  · exact enclosed_of_objectName hdrop hname hlegal.allowed s (by simp [hs])
  · refine build_eq_ok.mpr ⟨check_eq_ok_iff.mpr (hwell.renamed hlegal.goodDerived), ?_, ?_⟩
    · rw [supported_renamed, hsupported]
    · rw [statements_renamed hdrop hname, hs]
  · intro x name hx hfit
    rw [← hfit]
    exact goesBy d hx

/-- Users whose primary key goes by a name of its own. -/
def usersKeyed (name : String) : Change :=
  .createTable {
    name := "users"
    columns := [{ name := "id", type := .integer, nullable := false }]
    primaryKey := ["id"]
    primaryKeyName := some name }

theorem usersKeyed_legal_name :
    ¬ (usersKeyed "users_key").IsDrop ∧
      (usersKeyed "users_key").objectName? = some "users_key" ∧
      (usersKeyed "users_key").KeyNamed ∧
      (usersKeyed "users_key").build .postgres =
        .ok ((usersKeyed "users_key").statements .postgres) ∧
      ∃ n s, (usersKeyed "users_key").statements .postgres = [s] ∧
        (usersKeyed "users_key").MakesByName .postgres "users_key" n s := by
  have hdrop : ¬ (usersKeyed "users_key").IsDrop := fun h => h
  have hkey : (usersKeyed "users_key").KeyNamed := fun name hname => by
    rw [← Option.some.inj hname]
    exact Name.checkDerived_eq_ok_iff.mp (by decide +kernel)
  have hbuild : (usersKeyed "users_key").build .postgres =
      .ok ((usersKeyed "users_key").statements .postgres) := by decide +kernel
  exact ⟨hdrop, rfl, hkey, hbuild, build_legal_name hdrop rfl hkey hbuild⟩

/-- **The name of a primary key can be empty.**  The table is built all the same. -/
theorem build_nameless_key :
    (usersKeyed "").objectName? = some "" ∧
      ∃ s, (usersKeyed "").build .postgres = .ok [s] ∧ s.objectName? = some "" ∧
        s.text .postgres = "CREATE TABLE \"users\" ( \"id\" INTEGER NOT NULL, " ++
          "CONSTRAINT \"\" PRIMARY KEY (\"id\") )" ∧
        ∀ n, ¬ (usersKeyed "").MakesByName .postgres "" n s := by
  refine ⟨rfl, .createTable "users" [{ name := "id", type := .integer, nullable := false }]
    (some ⟨"", ["id"]⟩), by decide +kernel, rfl, by decide +kernel, fun n h => ?_⟩
  have hn : n = "" := (Option.some.inj h.named).symm
  exact h.legal.nonempty hn

end Change
end SchemaMigration
