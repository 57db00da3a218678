import SchemaMigration.Proofs.FailFast
import SchemaMigration.Proofs.Legible
import SchemaMigration.Proofs.Settled

/-!
# Columns altered together and one by one

A request to add columns, or to drop some, is one statement with a clause for each column where the
dialect allows that, and a statement for each column elsewhere.  Both are lists of columns of one
table that are altered in the same way (`Alteration`), and for both the two ways agree: in their
texts, in the columns that they alter, and in their effect on every catalog (`Alteration.splits`).
-/
namespace SchemaMigration

namespace Sql

variable {d : Dialect}

/-- What all statements that alter the table begin with. -/
def alterTable (table : String) : Sql :=
  [.word "ALTER TABLE ", .name table, .word " "]

theorem render_commaSeparated (parts : List Sql) :
    render d (commaSeparated parts) = ", ".intercalate (parts.map (render d)) := by
  apply String.toList_injective
  rw [toList_render, chars_commaSeparated, String.toList_intercalate, List.map_map]
  exact congrArg _ (List.map_congr_left fun part _ => (toList_render part).symm)

end Sql

namespace Catalog

variable {d : Dialect} {c : Catalog} {table : String}

theorem table?_setColumns_self {columns : List Column} {t : StoredTable}
    (h : c.table? table = some t) :
    (c.setColumns table columns).table? table = some { t with columns := columns } := by
  rw [table?_setColumns, h, Option.map_some, if_pos (table?_name h)]

/-! ## The first column and the others -/

/-- Adding columns is adding the first one, and then the others. -/
theorem carryOut_addColumns_cons (k : Column) (rest : List Column) :
    c.carryOut d (.addColumns table (k :: rest)) = c.carryOut d (.addColumns table [k]) >>=
      fun c₁ => c₁.carryOut d (.addColumns table rest) := by
  cases ht : c.table? table with
  | none => simp only [carryOut, ht]; rfl
  | some t =>
    by_cases hthere : (t.columns.any fun old => sameName old.name k.name) = true
    · simp only [carryOut, ht, appendColumns, hthere, if_true]; rfl
    · have hfirst : c.carryOut d (.addColumns table [k]) =
          .ok (c.setColumns table (t.columns ++ [k])) := by
        simp only [carryOut, ht, appendColumns, hthere]; rfl
      rw [hfirst]
      show _ = (c.setColumns table (t.columns ++ [k])).carryOut d (.addColumns table rest)
      have htwice : (c.setColumns table (t.columns ++ [k])).setColumns table =
          c.setColumns table := funext fun _ => setColumns_setColumns
      simp only [carryOut, ht, table?_setColumns_self ht, appendColumns, hthere, htwice]
      rfl

/-- What is left of columns after some were dropped, and then others. -/
theorem columnsLeft_append (d : Dialect) (dropped others columns : List String) :
    (columnsLeft d dropped columns).bind (columnsLeft d others) =
      columnsLeft d (dropped ++ others) columns := by
  have hboth : columns.filter (fun k => !(dropped ++ others).any (sameName k ·)) =
      (columns.filter fun k => !dropped.any (sameName k ·)).filter
        fun k => !others.any (sameName k ·) := by
    rw [List.filter_filter]
    refine List.filter_congr fun k _ => ?_
    rw [List.any_append, Bool.not_or, Bool.and_comm]
  have hfirst : (columns.filter fun k => !dropped.any (sameName k ·)).Sublist columns :=
    List.filter_sublist
  simp only [columnsLeft, hboth]
  generalize (columns.filter fun k => !dropped.any (sameName k ·)) = left at hfirst ⊢
  have hsecond : (left.filter fun k => !others.any (sameName k ·)).Sublist left :=
    List.filter_sublist
  by_cases hall : left = columns
  · rw [if_pos hall, hall, Option.bind_some, columnsLeft]
  · have hsome : (left.filter fun k => !others.any (sameName k ·)) ≠ columns := by
      intro heq
      rw [heq] at hsecond
      exact hall (hfirst.antisymm hsecond)
    rw [if_neg hall, if_neg hsome]
    cases left with
    | nil => simp
    | cons k left =>
      by_cases hd : d = .mysql
      · simp only [hd, decide_true, ne_eq, reduceCtorEq, not_false_eq_true, Bool.and_self,
          if_true, Option.bind_some, columnsLeft]
        split
        · next heq => simp [heq]
        · rfl
      · simp [hd]

theorem releaseColumns_releaseColumns (d : Dialect) (c : Catalog) (table : String)
    (dropped others : List String) :
    (c.releaseColumns d table dropped).releaseColumns d table others =
      c.releaseColumns d table (dropped ++ others) := by
  simp only [releaseColumns, List.filterMap_filterMap, mk.injEq, true_and, and_true]
  constructor
  · refine List.filterMap_congr fun i _ => ?_
    by_cases htable : sameName i.table table = true
    · rw [if_pos htable, if_pos htable, ← columnsLeft_append]
      cases columnsLeft d dropped i.columns with
      | none => rfl
      | some left => simp [htable]
    · simp [htable]
  · refine List.filterMap_congr fun k _ => ?_
    by_cases htable : sameName k.table table = true
    · rw [if_pos htable, if_pos htable, ← columnsLeft_append]
      cases columnsLeft d dropped k.columns with
      | none => rfl
      | some left => simp [htable]
    · simp [htable]

/-- Dropping columns is dropping the first one, and then the others. -/
theorem carryOut_dropColumns_cons (hd : d ≠ .sqlite) (n : String) (rest : List String) :
    c.carryOut d (.dropColumns table (n :: rest)) = c.carryOut d (.dropColumns table [n]) >>=
      fun c₁ => c₁.carryOut d (.dropColumns table rest) := by
  cases ht : c.table? table with
  | none => simp only [carryOut, ht]; rfl
  | some t =>
    by_cases hthere : (t.columns.any fun old => sameName old.name n) = true
    · generalize hleft : (t.columns.filter fun old => !sameName old.name n) = left
      have hfirst : c.carryOut d (.dropColumns table [n]) =
          .ok ((c.releaseColumns d table [n]).setColumns table left) := by
        simp only [carryOut, ht, hd, removeColumns, hthere, hleft, if_true, if_false]; rfl
      have hreleased : (c.releaseColumns d table [n]).table? table = some t := ht
      have htwice : (((c.releaseColumns d table [n]).setColumns table left).releaseColumns d table
          rest).setColumns table = (c.releaseColumns d table (n :: rest)).setColumns table := by
        funext columns
        have hreleased := releaseColumns_releaseColumns d c table [n] rest
        rw [List.singleton_append] at hreleased
        rw [← hreleased]
        show (((c.releaseColumns d table [n]).releaseColumns d table rest).setColumns table
          left).setColumns table columns = _
        exact setColumns_setColumns
      rw [hfirst]
      show _ = ((c.releaseColumns d table [n]).setColumns table left).carryOut d
        (.dropColumns table rest)
      simp only [carryOut, ht, hd, table?_setColumns_self hreleased, removeColumns, hthere, hleft,
        htwice, if_true, if_false]
    · simp only [carryOut, ht, hd, removeColumns, hthere, if_false]; rfl

end Catalog

/-! ## The two kinds of alterations -/

/-- A way in which columns of a table are altered, each by a clause of its own: the request for a
list of them, the statement that alters them together, and what these have to do with each other. -/
structure Alteration (α : Type) where
  request : String → List α → Change
  statement : String → List α → Statement
  /-- What the statement alters. -/
  altered : Statement → List α
  clause : Dialect → α → Sql
  /-- The column that is altered. -/
  name : α → String
  statements_eq : ∀ d table l, (request table l).statements d =
    if d.combinesAlterations then [statement table l] else l.map fun a => statement table [a]
  carriedOut : ∀ d table l, (request table l).CarriedOutBy d
  fewer : ∀ {d table l part}, (request table l).WellFormed d → part.Sublist l → part ≠ [] →
    (request table part).WellFormed d
  wellFormed : ∀ {d table l}, (request table l).WellFormed d → l ≠ [] ∧ (l.map name).Nodup
  altered_eq : ∀ table l, altered (statement table l) = l
  pieces_eq : ∀ d table l, (statement table l).pieces d =
    Sql.alterTable table ++ Sql.commaSeparated (l.map (clause d))
  carryOut_cons : ∀ {d c table a rest}, d ≠ .sqlite →
    Catalog.carryOut d c (statement table (a :: rest)) =
      Catalog.carryOut d c (statement table [a]) >>=
        fun c₁ => c₁.carryOut d (statement table rest)

namespace Alteration

def adding : Alteration Column where
  request := .addColumns
  statement := .addColumns
  altered
    | .addColumns _ columns => columns
    | _ => []
  clause d k := .word "ADD COLUMN " :: k.definition d
  name := (·.name)
  statements_eq _ _ _ := rfl
  carriedOut _ _ _ := trivial
  fewer h hsub hne := h.fewer hsub hne
  wellFormed h := ⟨h.2.1.nonempty, h.2.1.distinct⟩
  altered_eq _ _ := rfl
  pieces_eq _ _ _ := rfl
  carryOut_cons _ := Catalog.carryOut_addColumns_cons _ _

def dropping : Alteration String where
  request := .dropColumns
  statement := .dropColumns
  altered
    | .dropColumns _ names => names
    | _ => []
  clause _ n := [.word "DROP COLUMN ", .name n]
  name := id
  statements_eq _ _ _ := rfl
  carriedOut _ _ _ := trivial
  fewer h hsub hne := ⟨h.1, hne, fun n hn => h.2.good n (hsub.subset hn), h.2.distinct.sublist hsub⟩
  wellFormed h := ⟨h.2.nonempty, by simpa using h.2.distinct⟩
  altered_eq _ _ := rfl
  pieces_eq _ _ _ := rfl
  carryOut_cons hd := Catalog.carryOut_dropColumns_cons hd _ _

variable {α : Type} (a : Alteration α) {d : Dialect} {table : String} {l : List α}
  {built : List Statement}

/-- The statements of requests for each of the columns by itself. -/
def oneByOne (d : Dialect) (table : String) (l : List α) : Except MigrationError (List Statement) :=
  (l.mapM fun k => (a.request table [k]).build d).map List.flatten

/-- How the statements that a request about columns is built to come from the columns, where `parts`
are those that come from one column each. -/
structure Splits (d : Dialect) (table : String) (l : List α) (built parts : List Statement) :
    Prop where
  /-- A request for one of the columns is built to one statement, with one clause. -/
  single : ∀ k ∈ l, ∃ st, (a.request table [k]).build d = .ok [st] ∧
    st.text d = Sql.render d (Sql.alterTable table) ++ Sql.render d (a.clause d k)
  oneByOne : a.oneByOne d table l = .ok parts
  /-- SQLite alters one column after the other. -/
  apart : d = .sqlite → built = parts
  /-- The others alter all of them in one statement, with the same clauses. -/
  together : d ≠ .sqlite → ∃ st, built = [st] ∧
    st.text d = Sql.render d (Sql.alterTable table) ++
      ", ".intercalate (l.map fun k => Sql.render d (a.clause d k))
  /-- Either way the columns are altered in their order, each of them once. -/
  altered : built.flatMap a.altered = l ∧ (l.map a.name).Nodup
  /-- Either way the effect is the same, and so is a refusal. -/
  effect : ∀ c : Catalog, c.carryOutAll d built = c.carryOutAll d parts
  /-- On SQLite a list can be cut in two. -/
  cut : d = .sqlite → ∀ cs ds, l = cs ++ ds → cs ≠ [] → ds ≠ [] → ∃ first second,
    (a.request table cs).build d = .ok first ∧ (a.request table ds).build d = .ok second ∧
      built = first ++ second

theorem text_statement (table : String) (l : List α) : (a.statement table l).text d =
    Sql.render d (Sql.alterTable table) ++
      ", ".intercalate (l.map fun k => Sql.render d (a.clause d k)) := by
  rw [Statement.text, a.pieces_eq, Sql.render_append, Sql.render_commaSeparated, List.map_map]
  rfl

/-- A list of columns that can be altered together, and any of them as well. -/
theorem build_fewer {part : List α} (h : (a.request table l).build d = .ok built)
    (hsub : part.Sublist l) (hne : part ≠ []) :
    (a.request table part).build d = .ok ((a.request table part).statements d) := by
  obtain ⟨hcheck, hsupported, -⟩ := Change.build_eq_ok.mp h
  have hwell := a.fewer (Change.check_eq_ok_iff.mp hcheck) hsub hne
  exact Change.build_eq_ok.mpr ⟨Change.check_eq_ok_iff.mpr hwell,
    Change.supported_iff.mpr (a.carriedOut d table part), rfl⟩

theorem build_single {k : α} (h : (a.request table l).build d = .ok built) (hk : k ∈ l) :
    (a.request table [k]).build d = .ok [a.statement table [k]] := by
  have hone := a.build_fewer h (List.singleton_sublist.mpr hk) (List.cons_ne_nil _ _)
  rw [a.statements_eq] at hone
  rw [hone]
  split <;> rfl

theorem oneByOne_eq_ok (h : (a.request table l).build d = .ok built) :
    a.oneByOne d table l = .ok (l.map fun k => a.statement table [k]) := by
  have hparts : ∀ part : List α, part ⊆ l → (part.mapM fun k => (a.request table [k]).build d) =
      .ok (part.map fun k => [a.statement table [k]]) := by
    intro part hsub
    induction part with
    | nil => rfl
    | cons k rest ih =>
      obtain ⟨hk, hrest⟩ := List.cons_subset.mp hsub
      rw [List.mapM_cons, a.build_single h hk, ih hrest]
      rfl
  rw [oneByOne, hparts l (List.Subset.refl l)]
  show Except.ok (l.map fun k => [a.statement table [k]]).flatten = _
  rw [← List.flatMap_def, ← List.map_eq_flatMap]

/-- Columns that are altered in one statement might as well be altered one after the other. -/
theorem carryOut_statement (hd : d ≠ .sqlite) (hne : l ≠ []) (c : Catalog) :
    c.carryOut d (a.statement table l) =
      c.carryOutAll d (l.map fun k => a.statement table [k]) := by
  induction l generalizing c with
  | nil => exact (hne rfl).elim
  | cons k rest ih =>
    cases rest with
    | nil => exact Catalog.carryOutAll_singleton.symm
    | cons k' rest =>
      rw [a.carryOut_cons hd, List.map_cons, Catalog.carryOutAll]
      exact congrArg _ (funext fun c₁ => ih (List.cons_ne_nil _ _) c₁)

/-- **Columns altered together are altered as they are one by one.** -/
theorem splits (h : (a.request table l).build d = .ok built) :
    a.Splits d table l built (l.map fun k => a.statement table [k]) := by
  obtain ⟨hcheck, -, hbuilt⟩ := Change.build_eq_ok.mp h
  obtain ⟨hne, hnodup⟩ := a.wellFormed (Change.check_eq_ok_iff.mp hcheck)
  rw [a.statements_eq] at hbuilt
  have hsplit : d = .sqlite → built = l.map fun k => a.statement table [k] := by
    rintro rfl
    exact hbuilt.symm
  have hjoined : d ≠ .sqlite → built = [a.statement table l] := by
    intro hd
    rw [← hbuilt, if_pos (by cases d <;> trivial)]
  constructor
  · intro k hk
    refine ⟨_, a.build_single h hk, ?_⟩
    rw [a.text_statement, List.map_singleton, String.intercalate_singleton]
  · exact a.oneByOne_eq_ok h
  · exact hsplit
  · exact fun hd => ⟨_, hjoined hd, a.text_statement table l⟩
  · refine ⟨?_, hnodup⟩
    by_cases hd : d = .sqlite
    · rw [hsplit hd, List.flatMap_map]
      simp [a.altered_eq]
    · rw [hjoined hd, List.flatMap_singleton, a.altered_eq]
  · intro c
    by_cases hd : d = .sqlite
    · rw [hsplit hd]
    · rw [hjoined hd, Catalog.carryOutAll_singleton, a.carryOut_statement hd hne]
  · rintro rfl cs ds rfl hcs hds
    refine ⟨_, _, a.build_fewer h (List.sublist_append_left cs ds) hcs,
      a.build_fewer h (List.sublist_append_right cs ds) hds, ?_⟩
    rw [hsplit rfl, List.map_append, a.statements_eq, a.statements_eq]
    rfl

end Alteration

namespace Change
open Alteration

/-- **Splitting and combining agree**, for columns that are added and for columns that are
dropped. -/
theorem build_splits (d : Dialect) (table : String) :
    (∀ columns built, (Change.addColumns table columns).build d = .ok built →
      ∃ parts, adding.Splits d table columns built parts) ∧
    (∀ names built, (Change.dropColumns table names).build d = .ok built →
      ∃ parts, dropping.Splits d table names built parts) :=
  ⟨fun _ _ h => ⟨_, adding.splits h⟩, fun _ _ h => ⟨_, dropping.splits h⟩⟩

/-- Two columns to add, one of them with a value for the rows that are there. -/
def addedColumns : List Column :=
  [{ name := "email", type := .varchar 100 },
    { name := "visits", type := .integer, nullable := false, default := some (.integer 0) }]

theorem addedColumns_split :
    (Change.addColumns "users" addedColumns).build .postgres =
        .ok [.addColumns "users" addedColumns] ∧
      (Change.addColumns "users" addedColumns).build .sqlite =
        .ok (addedColumns.map fun k => .addColumns "users" [k]) ∧
      (Change.dropColumns "users" ["email", "visits"]).build .mysql =
        .ok [.dropColumns "users" ["email", "visits"]] ∧
      (∃ parts, adding.Splits .postgres "users" addedColumns [.addColumns "users" addedColumns]
        parts) ∧
      (∃ parts, adding.Splits .sqlite "users" addedColumns
        (addedColumns.map fun k => .addColumns "users" [k]) parts) ∧
      ∃ parts, dropping.Splits .mysql "users" ["email", "visits"]
        [.dropColumns "users" ["email", "visits"]] parts := by
  have hpostgres : (Change.addColumns "users" addedColumns).build .postgres =
      .ok [.addColumns "users" addedColumns] := by decide +kernel
  have hsqlite : (Change.addColumns "users" addedColumns).build .sqlite =
      .ok (addedColumns.map fun k => .addColumns "users" [k]) := by decide +kernel
  have hmysql : (Change.dropColumns "users" ["email", "visits"]).build .mysql =
      .ok [.dropColumns "users" ["email", "visits"]] := by decide +kernel
  exact ⟨hpostgres, hsqlite, hmysql, (build_splits .postgres "users").1 _ _ hpostgres,
    (build_splits .sqlite "users").1 _ _ hsqlite, (build_splits .mysql "users").2 _ _ hmysql⟩

end Change
end SchemaMigration
