import SchemaMigration.Catalog
import SchemaMigration.Proofs.ConstraintMentions
import SchemaMigration.Proofs.LegalNames

/-!
# Looking for a constraint in the definition of its table

SQLite keeps the text that a table was created by in a table of its own (`MasterEntry`), and a
constraint is looked for in that text.  The key of a table that is created is found under the name
that it is stored by, and nothing else is found in the text but what a default text mentions
(`Table.created_constraint_found`).

A default text may mention a constraint that does not exist
(`Table.quotingNotes_constraint_mistaken`).
-/
namespace SchemaMigration

/-- An entry of the table in which SQLite keeps its schema: the kind of object, its name, and the
text that it was created by, if there is one. -/
structure MasterEntry where
  type : String
  name : String
  definition : Option String

namespace MasterEntry

/-- The entry is a table of the name. -/
def isTable (table : String) (e : MasterEntry) : Bool :=
  decide (e.type = "table") && Catalog.sameName e.name table

/-- The entry is counted by the question after a constraint: it is a table of the name, and one of
the conditions holds of its text in lower case. -/
def counts (table : String) (ks : List Lookup.LikeCondition) (e : MasterEntry) : Bool :=
  e.isTable table && e.definition.any fun definition => ks.any fun k =>
    Sql.Like.holds (definition.map Char.toLower) k.pattern k.escape

/-- The answer to the question after a constraint (`Lookup.constraintTokens`). -/
def answer (entries : List MasterEntry) (table : String) (ks : List Lookup.LikeCondition) : Nat :=
  entries.countP (counts table ks)

/-- With the patterns for a constraint, a table is counted if its text mentions the constraint. -/
theorem counts_iff (table name definition : String) :
    (mk "table" table (some definition)).counts table
        ((Lookup.constraintPatterns name).map fun p => ⟨p, "\\"⟩) = true ↔
      Lookup.Mentions name (definition.toList.map Char.toLower) := by
  have hself : (mk "table" table (some definition)).isTable table = true := by
    simp [isTable, Catalog.sameName]
  have hholds := Lookup.holds_patterns_iff name (definition.map Char.toLower)
  rw [String.toList_map] at hholds
  rw [counts, hself, Bool.true_and, Option.any_some, List.any_eq_true]
  exact hholds

theorem answer_cons {table : String} {ks : List Lookup.LikeCondition} {e : MasterEntry}
    {others : List MasterEntry} (hothers : ∀ e ∈ others, e.isTable table = false) :
    answer (e :: others) table ks = if e.counts table ks then 1 else 0 := by
  have hnone : others.countP (counts table ks) = 0 :=
    List.countP_eq_zero.mpr fun e he => by simp [counts, hothers e he]
  rw [answer, List.countP_cons, hnone, Nat.zero_add]

end MasterEntry

namespace Table
open Lookup Sql

/-- A default text of the table mentions the constraint. -/
def TextMentions (t : Table) (name : String) : Prop :=
  ∃ k ∈ t.columns, ∃ value, k.default = some (.text value) ∧
    Mentions name (value.toList.map Char.toLower)

theorem mem_key?_iff {d : Dialect} {t : Table} {key : PrimaryKey} :
    key ∈ t.key? d ↔ t.primaryKey ≠ [] ∧ key = ⟨t.storedKeyName d, t.primaryKey⟩ := by
  rw [key?, Option.mem_def]
  split
  · next hnone => simp [hnone]
  · next hsome => simp [hsome, eq_comm]

/-- The name of a key and those of its columns are free of special characters. -/
theorem plain_key {d : Dialect} {t : Table} (hwell : (Change.createTable t).WellFormed d)
    (hnamed : (Change.createTable t).KeyNamed) :
    ∀ key ∈ t.key? d, Name.Plain key.name ∧ ∀ n ∈ key.columns, Name.Plain n := by
  intro key hkey
  obtain ⟨hne, rfl⟩ := mem_key?_iff.mp hkey
  have hrequested : (Change.createTable t).objectName? =
      some (t.primaryKeyName.getD ("pk_" ++ t.name)) := if_neg hne
  have hgood := Change.goodDerived_of_objectName hwell (fun h => h) hnamed hrequested
  refine ⟨fun c hc => Name.isPart_iff.mpr ((hgood.legal_fit d).allowed c hc), fun n hn => ?_⟩
  obtain ⟨-, hcolumns, hkeys⟩ := hwell
  obtain ⟨k, hk, rfl, -⟩ := hkeys.required n hn
  exact fun c hc => Name.isPart_iff.mpr ((hcolumns.good k hk).name.allowed c hc)

/-- The text of a table that can be built mentions the constraint that its key is stored as, and
what its default texts mention. -/
theorem mentions_of_wellFormed {t : Table} {name : String}
    (hwell : (Change.createTable t).WellFormed .sqlite)
    (hnamed : (Change.createTable t).KeyNamed) (hname : Name.Plain name) :
    Mentions name (((Statement.createTable t.name t.columns (t.key? .sqlite)).text
        .sqlite).toList.map Char.toLower) ↔
      (t.primaryKey ≠ [] ∧ name = t.storedKeyName .sqlite) ∨ t.TextMentions name := by
  have hplain : ∀ {n}, Name.Good .sqlite n → Name.Plain n := fun hn c hc =>
    Name.isPart_iff.mpr (hn.allowed c hc)
  obtain ⟨htable, hcolumns, -⟩ := id hwell
  rw [Statement.mentions_createTable hname (hplain htable) hcolumns.nonempty
    (fun k hk => hplain (hcolumns.good k hk).name) (plain_key hwell hnamed)]
  refine or_congr ?_ Iff.rfl
  simp only [mem_key?_iff, and_assoc, exists_and_left, exists_eq_left]

/-- **What is found in the text of a new table.**  After SQLite has created the table, the question
after a constraint counts it once or not at all: once if the primary key is stored under that name,
which is always found then, or if a default text mentions a constraint of that name, and otherwise
not. -/
theorem created_constraint_found {t : Table} {name : String} {l : List Statement}
    (hbuild : (Change.createTable t).build .sqlite = .ok l)
    (hkey : (Change.createTable t).KeyNamed) (hname : Name.GoodDerived name) :
    ∃ s ks, l = [s] ∧
      lex .sqlite ((CountQuery.object (.constraint t.name name)).text .sqlite) =
        some (constraintTokens t.name ks) ∧
      ∀ others : List MasterEntry, (∀ e ∈ others, e.isTable t.name = false) →
        MasterEntry.answer (⟨"table", t.name, some (s.text .sqlite)⟩ :: others) t.name ks ≤ 1 ∧
        (MasterEntry.answer (⟨"table", t.name, some (s.text .sqlite)⟩ :: others) t.name ks = 1 ↔
          (t.primaryKey ≠ [] ∧ name = t.storedKeyName .sqlite) ∨ t.TextMentions name) := by
  obtain ⟨hcheck, -, rfl⟩ := Change.build_eq_ok.mp hbuild
  have hplain : Name.Plain name := fun c hc => Name.isPart_iff.mpr (hname.allowed c hc)
  refine ⟨.createTable t.name t.columns (t.key? .sqlite), _, rfl, constraint_reads t.name name,
    fun others hothers => ?_⟩
  rw [MasterEntry.answer_cons hothers,
    ← mentions_of_wellFormed (Change.check_eq_ok_iff.mp hcheck) hkey hplain,
    ← MasterEntry.counts_iff t.name]
  constructor
  · split <;> decide
  · simp

/-- Notes with a key that goes by the name of the table. -/
def keyedNotes : Table where
  name := "notes"
  columns := [{ name := "id", type := .integer, nullable := false },
    { name := "body", type := .varchar 40, default := some (.text "it's new") }]
  primaryKey := ["id"]

/-- The key is found. -/
theorem keyedNotes_constraint_found :
    (Change.createTable keyedNotes).build .sqlite =
        .ok ((Change.createTable keyedNotes).statements .sqlite) ∧
      (Change.createTable keyedNotes).KeyNamed ∧ Name.GoodDerived "pk_notes" ∧
      ∃ s ks, (Change.createTable keyedNotes).statements .sqlite = [s] ∧
        lex .sqlite ((CountQuery.object (.constraint "notes" "pk_notes")).text .sqlite) =
          some (constraintTokens "notes" ks) ∧
        MasterEntry.answer [⟨"table", "notes", some (s.text .sqlite)⟩] "notes" ks = 1 := by
  have hbuild : (Change.createTable keyedNotes).build .sqlite =
      .ok ((Change.createTable keyedNotes).statements .sqlite) := by decide +kernel
  have hkey : (Change.createTable keyedNotes).KeyNamed := nofun
  have hname : Name.GoodDerived "pk_notes" :=
    Name.checkDerived_eq_ok_iff.mp (by decide +kernel)
  obtain ⟨s, ks, hs, hlex, hanswer⟩ := created_constraint_found hbuild hkey hname
  obtain ⟨-, hfound⟩ := hanswer [] (List.forall_mem_nil _)
  exact ⟨hbuild, hkey, hname, s, ks, hs, hlex, hfound.mpr (.inl (by decide +kernel))⟩

/-- Notes without a key, with a text at first that looks like a constraint. -/
def quotingNotes : Table where
  name := "notes"
  columns :=
    [{ name := "body", type := .varchar 40, default := some (.text "constraint \"pk_old\"") }]

/-- **A constraint is found that is none**, where a default text mentions it. -/
theorem quotingNotes_constraint_mistaken :
    quotingNotes.primaryKey = [] ∧ Name.GoodDerived "pk_old" ∧
      ∃ s ks, (Change.createTable quotingNotes).build .sqlite = .ok [s] ∧
        lex .sqlite ((CountQuery.object (.constraint "notes" "pk_old")).text .sqlite) =
          some (constraintTokens "notes" ks) ∧
        MasterEntry.answer [⟨"table", "notes", some (s.text .sqlite)⟩] "notes" ks = 1 := by
  refine ⟨rfl, Name.checkDerived_eq_ok_iff.mp (by decide +kernel),
    .createTable "notes" quotingNotes.columns none, _, by decide +kernel,
    constraint_reads "notes" "pk_old", by decide +kernel⟩

end Table

end SchemaMigration
