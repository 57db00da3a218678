import SchemaMigration.Proofs.Checks
import SchemaMigration.Lookup
import SchemaMigration.Sql.Token

/-!
# Names stay within their quotes

Whatever a name contains, a database takes it for one token when it stands between quotes, with that
name as its value (`Sql.lex_literal_append`, `Sql.lex_quotedName_append`).  A text is put together
from pieces, and if a token may end between any two of them, they are read one by one
(`Sql.lex_render`).

So texts that differ in their names alone are read alike but for the tokens of these names: the
questions to a catalog, where names are literals, and the statements about constraints, where they
are quoted names (`names_stay_quoted`).
-/
namespace SchemaMigration
namespace Sql

variable {d : Dialect}

namespace Reader

theorem run_append (r : Reader) (s t : List Char) : r.run d (s ++ t) =
    ((r.run d s).1 ++ ((r.run d s).2.run d t).1, ((r.run d s).2.run d t).2) := by
  induction s generalizing r with
  | nil => rfl
  | cons c s ih => simp only [List.cons_append, run, ih, List.append_assoc]

/-- A token that may end before a character ends there, and the next one starts with it. -/
theorem run_endsBefore {r : Reader} {c : Char} (h : r.endsBefore c = true) :
    ∃ tokens, r.flush = some tokens ∧ ∀ rest, r.run d (c :: rest) =
      (tokens ++ (between.run d (c :: rest)).1, (between.run d (c :: rest)).2) := by
  cases r with
  | between => exact ⟨[], rfl, fun rest => rfl⟩
  | word read =>
    have hc : isWordPart c = false := by simpa [endsBefore] using h
    exact ⟨_, rfl, fun rest => by simp [run, step, hc]⟩
  | closing kind mark read =>
    have hc : c ≠ mark := by simpa [endsBefore] using h
    exact ⟨_, rfl, fun rest => by simp [run, step, hc]⟩
  | quoted kind mark read | escaped kind mark read => cases h

/-- A text is read as written, unit by unit, if each unit is read as the character it stands for. -/
theorem run_units {kind : Quoted} {mark : Char} {unit : Char → List Char}
    (hunit : ∀ c read, (quoted kind mark read).run d (unit c) = ([], quoted kind mark (c :: read)))
    (read s : List Char) :
    (quoted kind mark read).run d (s.flatMap unit) =
      ([], quoted kind mark (s.reverse ++ read)) := by
  induction s generalizing read with
  | nil => rfl
  | cons c s ih => simp [run_append, hunit, ih]

/-- Where backslashes are nothing special, a text with doubled quotes is read as it was. -/
theorem run_double {kind : Quoted} {mark : Char} (hplain : kind.escapes d = false)
    (read s : List Char) :
    (quoted kind mark read).run d (double mark s) = ([], quoted kind mark (s.reverse ++ read)) := by
  refine run_units (fun c read => ?_) read s
  by_cases hc : c = mark
  · simp [hc, run, step, hplain]
  · simp [hc, run, step, hplain]

/-- In the strings of MySQL both quotes and backslashes are doubled. -/
theorem run_escapeLiteral (read s : List Char) :
    (quoted .string '\'' read).run d (escapeLiteral d s) =
      ([], quoted .string '\'' (s.reverse ++ read)) := by
  cases d with
  | mysql =>
    rw [escapeLiteral, double, double, List.flatMap_assoc]
    refine run_units (fun c read => ?_) read s
    by_cases hquote : c = '\''
    · simp [hquote, run, step]
    · by_cases hslash : c = '\\'
      · simp [hslash, run, step, Quoted.escapes]
      · simp [hquote, hslash, run, step]
  | sqlite | postgres => exact run_double rfl read s

/-- What stands between two quotes is read up to the second one. -/
theorem run_enclose {kind : Quoted} {mark : Char} {inside read : List Char}
    (hmark : Quoted.ofMark? d mark = some kind) (hslash : mark ≠ '\\')
    (hinside : (quoted kind mark []).run d inside = ([], quoted kind mark read)) :
    between.run d (enclose mark inside) = ([], closing kind mark read) := by
  have hopen : start d mark = ([], quoted kind mark []) := by simp [start, hmark]
  simp [enclose, run, hopen, run_append, hinside, step, hslash]

end Reader

/-- Where a reader of the text stands at its end. -/
def after (d : Dialect) (s : String) : Reader :=
  (Reader.between.run d s.toList).2

theorem lex_eq (s : String) : lex d s =
    (after d s).flush.map ((Reader.between.run d s.toList).1 ++ ·) := rfl

/-- Two texts are read apart if a token may end between them. -/
theorem lex_append {s t : String}
    (h : ∀ c, t.toList.head? = some c → (after d s).endsBefore c = true) :
    lex d (s ++ t) = (lex d s).bind fun a => (lex d t).map (a ++ ·) := by
  have hrun := (Reader.between).run_append (d := d) s.toList t.toList
  rw [← String.toList_append] at hrun
  cases ht : t.toList with
  | nil =>
    have hempty : t = "" := String.toList_eq_nil_iff.mp ht
    subst hempty
    rw [String.append_empty]
    cases lex d s <;> simp [lex, Reader.run, Reader.flush]
  | cons c rest =>
    obtain ⟨tokens, hflush, hrest⟩ := Reader.run_endsBefore (d := d) (h c (by rw [ht]; rfl))
    have hafter : after d (s ++ t) = after d t := by
      rw [after, hrun, ← after, ht, hrest, after, ht]
    rw [lex_eq, hafter, hrun, lex_eq, hflush, ← after, ht, hrest, lex_eq, ht]
    cases (after d t).flush <;> simp

theorem run_literal (s : String) : Reader.between.run d (literal d s).toList =
    ([], .closing .string '\'' s.toList.reverse) := by
  rw [literal, String.toList_ofList, ← List.append_nil s.toList.reverse]
  exact Reader.run_enclose (by cases d <;> rfl) (by decide) (Reader.run_escapeLiteral [] s.toList)

theorem run_quotedName (s : String) : Reader.between.run d (quotedName d s).toList =
    ([], .closing .name d.nameQuote s.toList.reverse) := by
  rw [quotedName, String.toList_ofList, ← List.append_nil s.toList.reverse]
  exact Reader.run_enclose (by cases d <;> rfl) (by cases d <;> decide)
    (Reader.run_double (by cases d <;> rfl) [] s.toList)

@[simp] theorem lex_literal (s : String) : lex d (literal d s) = some [.string s] := by
  simp [lex_eq, after, run_literal, Reader.flush, Quoted.token]

@[simp] theorem lex_quotedName (s : String) : lex d (quotedName d s) = some [.name s] := by
  simp [lex_eq, after, run_quotedName, Reader.flush, Quoted.token]

/-- **A literal is one token**, whatever its text, and the text behind it is read as if alone. -/
theorem lex_literal_append (s : String) {rest : String} (h : rest.toList.head? ≠ some '\'') :
    lex d (literal d s ++ rest) = (lex d rest).map (.string s :: ·) := by
  rw [lex_append, lex_literal]
  · rfl
  · rintro c hc
    rw [after, run_literal]
    exact decide_eq_true fun hquote => h (hquote ▸ hc)

/-- **A quoted name is one token**, whatever it contains, and the text behind it is read as if
alone. -/
theorem lex_quotedName_append (s : String) {rest : String}
    (h : rest.toList.head? ≠ some d.nameQuote) :
    lex d (quotedName d s ++ rest) = (lex d rest).map (.name s :: ·) := by
  rw [lex_append, lex_quotedName]
  · rfl
  · rintro c hc
    rw [after, run_quotedName]
    exact decide_eq_true fun hquote => h (hquote ▸ hc)

/-! ## Texts in pieces -/

/-- Between any two pieces a token may end.  Only the first character of a piece matters, so none of
them may be empty. -/
def separated (d : Dialect) : Sql → Bool
  | [] => true
  | [_] => true
  | p :: q :: rest =>
    (match (q.render d).toList.head? with
      | some c => (after d (p.render d)).endsBefore c
      | none => false) && separated d (q :: rest)

/-- The tokens of the pieces, each read alone. -/
def tokens (d : Dialect) : Sql → Option (List Token)
  | [] => some []
  | p :: rest => (lex d (p.render d)).bind fun a => (tokens d rest).map (a ++ ·)

/-- **Pieces that are separated are read one by one.** -/
theorem lex_render {sql : Sql} (h : separated d sql = true) :
    lex d (render d sql) = tokens d sql := by
  induction sql with
  | nil => rfl
  | cons p rest ih =>
    cases rest with
    | nil =>
      rw [render_cons, render_nil, String.append_empty, tokens, tokens]
      cases lex d (p.render d) <;> simp
    | cons q rest =>
      rw [separated, Bool.and_eq_true] at h
      rw [render_cons, lex_append, ih h.2]
      · rfl
      · intro c hc
        rw [render_cons, String.toList_append] at hc
        obtain ⟨hends, -⟩ := h
        cases hq : (q.render d).toList with
        | nil => simp [hq] at hends
        | cons c' cs =>
          rw [hq] at hc hends
          cases hc
          exact hends

/-! ## Texts that differ in their literals -/

/-- The texts of the literals, in order. -/
def literals : Sql → List String
  | [] => []
  | .literal s :: rest => s :: literals rest
  | _ :: rest => literals rest

/-- The tokens around the literals, with a gap for each of these. -/
def gaps (d : Dialect) : Sql → Option (List (Option Token))
  | [] => some []
  | .literal _ :: rest => (gaps d rest).map (none :: ·)
  | p :: rest => (lex d (p.render d)).bind fun a => (gaps d rest).map (a.map some ++ ·)

/-- The tokens with strings in the gaps, one for each of them. -/
def fill : List (Option Token) → List String → Option (List Token)
  | [], [] => some []
  | some t :: rest, names => (fill rest names).map (t :: ·)
  | none :: rest, n :: names => (fill rest names).map (.string n :: ·)
  | _, _ => none

/-- The text is read as the given tokens, with the names as strings in the gaps. -/
def ReadsAs (d : Dialect) (text : String) (around : List (Option Token)) (names : List String) :
    Prop :=
  ∃ ts, fill around names = some ts ∧ lex d text = some ts

/-- The piece, empty if it is a literal. -/
def blank : Piece → Piece
  | .literal _ => .literal ""
  | p => p

theorem fill_some (a : List Token) (around : List (Option Token)) (names : List String) :
    fill (a.map some ++ around) names = (fill around names).map (a ++ ·) := by
  induction a with
  | nil => simp
  | cons t a ih =>
    rw [List.map_cons, List.cons_append, fill, ih, Option.map_map]
    rfl

theorem tokens_of_gaps {sql : Sql} {around : List (Option Token)}
    (h : gaps d sql = some around) :
    ∃ ts, fill around (literals sql) = some ts ∧ tokens d sql = some ts := by
  induction sql generalizing around with
  | nil =>
    cases h
    exact ⟨[], rfl, rfl⟩
  | cons p rest ih =>
    cases p with
    | literal s =>
      obtain ⟨around, hrest, rfl⟩ := Option.map_eq_some_iff.mp h
      obtain ⟨ts, hfill, htokens⟩ := ih hrest
      exact ⟨.string s :: ts, by simp [literals, fill, hfill],
        by simp [tokens, Piece.render, htokens]⟩
    | word w | name w | plainName w | value w =>
      obtain ⟨a, ha, hmap⟩ := Option.bind_eq_some_iff.mp h
      obtain ⟨around, hrest, rfl⟩ := Option.map_eq_some_iff.mp hmap
      obtain ⟨ts, hfill, htokens⟩ := ih hrest
      exact ⟨a ++ ts, by simp [literals, fill_some, hfill], by simp [tokens, ha, htokens]⟩

theorem gaps_blank (d : Dialect) (sql : Sql) : gaps d (sql.map blank) = gaps d sql := by
  induction sql with
  | nil => rfl
  | cons p rest ih =>
    cases p <;> simp [gaps, blank, ih]

theorem head?_blank (d : Dialect) (p : Piece) :
    ((blank p).render d).toList.head? = (p.render d).toList.head? := by
  cases p <;> simp [blank, Piece.render, literal, enclose]

theorem endsBefore_blank (d : Dialect) (p : Piece) (c : Char) :
    (after d ((blank p).render d)).endsBefore c = (after d (p.render d)).endsBefore c := by
  cases p <;> simp [blank, Piece.render, after, run_literal, Reader.endsBefore]

theorem separated_blank (d : Dialect) (sql : Sql) :
    separated d (sql.map blank) = separated d sql := by
  induction sql with
  | nil => rfl
  | cons p rest ih =>
    cases rest with
    | nil => rfl
    | cons q rest =>
      simp only [List.map_cons, separated, head?_blank, endsBefore_blank] at ih ⊢
      rw [ih]

/-- Texts of one shape are read as the same tokens but for the literals. -/
theorem readsAs_of_shape {sql shape : Sql} {around : List (Option Token)}
    (hshape : sql.map blank = shape.map blank) (hseparated : separated d shape = true)
    (hgaps : gaps d shape = some around) : ReadsAs d (render d sql) around (literals sql) := by
  rw [← gaps_blank, ← hshape, gaps_blank] at hgaps
  rw [← separated_blank, ← hshape, separated_blank] at hseparated
  obtain ⟨ts, hfill, htokens⟩ := tokens_of_gaps hgaps
  exact ⟨ts, hfill, (lex_render hseparated).trans htokens⟩

/-- Questions of one shape are read as the same tokens but for the literals. -/
theorem exists_readsAs {ι : Type} (sql : ι → Sql) (shape : Sql) {carried : ι → List String}
    (hshape : ∀ i, (sql i).map blank = shape.map blank)
    (hcarried : ∀ i, literals (sql i) = carried i)
    (hread : separated d shape = true ∧ (gaps d shape).isSome = true) :
    ∃ around, ∀ i, ReadsAs d (render d (sql i)) around (carried i) := by
  obtain ⟨hseparated, hsome⟩ := hread
  obtain ⟨around, hgaps⟩ := Option.isSome_iff_exists.mp hsome
  exact ⟨around, fun i => hcarried i ▸ readsAs_of_shape (hshape i) hseparated hgaps⟩

end Sql

/-! ## Questions to a catalog -/

namespace SchemaObject

/-- The object without its names. -/
def blank : SchemaObject → SchemaObject
  | table _ => table ""
  | column _ _ => column "" ""
  | index _ _ => index "" ""
  | constraint _ _ => constraint "" ""

/-- The texts that a question after the object carries.  SQLite is asked with patterns for the name
of a constraint. -/
def asked (d : Dialect) : SchemaObject → List String
  | table t => [t]
  | column t n | index t n => [t, n]
  | constraint t n => if d = .sqlite then t :: Lookup.constraintPatterns n else [t, n]

theorem literals_asked (d : Dialect) (o : SchemaObject) :
    Sql.literals ((CountQuery.object o).pieces d) = o.asked d := by
  cases d <;> cases o <;> rfl

theorem pieces_blank (d : Dialect) (o : SchemaObject) :
    ((CountQuery.object o).pieces d).map Sql.blank =
      ((CountQuery.object o.blank).pieces d).map Sql.blank := by
  cases d <;> cases o <;>
    simp [CountQuery.pieces, Lookup.sqliteObject, Lookup.schemaObject, Lookup.matching,
      Lookup.mentionsConstraint, Lookup.constraintPatterns, blank, Sql.blank]

theorem separated_pieces (d : Dialect) (o : SchemaObject) :
    Sql.separated d ((CountQuery.object o.blank).pieces d) = true ∧
      (Sql.gaps d ((CountQuery.object o.blank).pieces d)).isSome = true := by
  cases d <;> cases o <;> simp only [blank] <;> decide +kernel

end SchemaObject
section Lookups
open Sql

/-- Questions after objects of one kind differ in the names alone. -/
theorem object_readsAs (d : Dialect) (k : SchemaObject) : ∃ around, ∀ o : SchemaObject,
    o.blank = k.blank → ReadsAs d ((CountQuery.object o).text d) around (o.asked d) := by
  obtain ⟨around, hreads⟩ := exists_readsAs
    (fun o : { o : SchemaObject // o.blank = k.blank } => (CountQuery.object o.1).pieces d)
    ((CountQuery.object k.blank).pieces d) (fun o => by rw [o.1.pieces_blank, o.2])
    (fun o => o.1.literals_asked d) (k.separated_pieces d)
  exact ⟨around, fun o ho => hreads ⟨o, ho⟩⟩

theorem primaryKey_readsAs (d : Dialect) :
    ∃ around, ∀ table, ReadsAs d ((CountQuery.primaryKey table).text d) around [table] := by
  refine exists_readsAs (Lookup.primaryKey d) (Lookup.primaryKey d "") (fun table => ?_)
    (fun table => ?_) ?_
  · cases d <;> rfl
  · cases d <;> rfl
  · cases d <;> decide +kernel

theorem columns_readsAs (d : Dialect) :
    ∃ around, ∀ table, ReadsAs d ((ListQuery.columns table).text d) around [table] := by
  refine exists_readsAs (Lookup.columns d) (Lookup.columns d "") (fun table => ?_)
    (fun table => ?_) ?_
  · cases d <;> rfl
  · cases d <;> rfl
  · cases d <;> decide +kernel

theorem indexTables_readsAs (d : Dialect) :
    ∃ around, ∀ index, ReadsAs d ((ListQuery.indexTables index).text d) around [index] := by
  refine exists_readsAs (Lookup.indexTables d) (Lookup.indexTables d "") (fun index => ?_)
    (fun index => ?_) ?_
  · cases d <;> rfl
  · cases d <;> rfl
  · cases d <;> decide +kernel

end Lookups

/-! ## Statements about constraints -/

namespace Sql

/-- A word that ends with a blank or a symbol is read apart from what follows. -/
theorem lex_word {w : String} {a : List Token} (hw : lex d w = some a ∧ after d w = .between)
    (rest : Sql) : lex d (render d (.word w :: rest)) = (lex d (render d rest)).map (a ++ ·) := by
  rw [render_cons, Piece.render, lex_append, hw.1]
  · rfl
  · intro c _
    rw [hw.2]
    rfl

/-- A name is read apart from a word that follows and does not start with a quote. -/
theorem lex_name_word (s : String) {w : String} (hw : w.toList.head?.any (· ≠ d.nameQuote) = true)
    (rest : Sql) : lex d (render d (.name s :: .word w :: rest)) =
      (lex d (render d (.word w :: rest))).map (.name s :: ·) := by
  rw [render_cons, Piece.render]
  refine lex_quotedName_append s fun hquote => ?_
  rw [render_cons, Piece.render, String.toList_append] at hquote
  cases hlist : w.toList with
  | nil => simp [hlist] at hw
  | cons c cs =>
    rw [hlist] at hw hquote
    cases hquote
    simp at hw

/-- The tokens of names of columns, separated by commas, between parentheses. -/
def columnTokens (columns : List String) : List Token :=
  .symbol '(' :: (columns.map Token.name).intersperse (.symbol ',') ++ [.symbol ')']

/-- Names of columns are read up to the parenthesis behind them. -/
theorem lex_listed (columns : List String) :
    lex d (render d (commaSeparated (columns.map fun c => [.name c]) ++ [.word ")"])) =
      some ((columns.map Token.name).intersperse (.symbol ',') ++ [.symbol ')']) := by
  have hcomma : lex d ", " = some [.symbol ','] ∧ after d ", " = .between := by
    cases d <;> decide +kernel
  have hclose : lex d ")" = some [.symbol ')'] := by cases d <;> decide +kernel
  induction columns with
  | nil => simpa [commaSeparated, Piece.render] using hclose
  | cons c rest ih =>
    cases rest with
    | nil =>
      rw [List.map_cons, List.map_nil, commaSeparated, List.singleton_append,
        lex_name_word c (by cases d <;> decide +kernel), render_cons, render_nil,
        String.append_empty, Piece.render, hclose]
      rfl
    | cons c' rest =>
      have hcons : commaSeparated ((c :: c' :: rest).map fun c => [Piece.name c]) =
          .name c :: .word ", " :: commaSeparated ((c' :: rest).map fun c => [.name c]) := rfl
      rw [hcons, List.cons_append, List.cons_append,
        lex_name_word c (by cases d <;> decide +kernel), lex_word hcomma, ih]
      rfl

theorem lex_columnList (columns : List String) :
    lex d (render d (columnList columns)) = some (columnTokens columns) := by
  have hopen : lex d "(" = some [.symbol '('] ∧ after d "(" = .between := by
    cases d <;> decide +kernel
  rw [columnList, List.cons_append, lex_word hopen, lex_listed]
  rfl

end Sql

section Constraints
open Sql

/-- The tokens of the keywords. -/
def ConstraintKind.tokens : ConstraintKind → List Token
  | primaryKey => [.word "PRIMARY", .word "KEY"]
  | unique => [.word "UNIQUE"]

/-- The tokens of a statement that adds the constraint. -/
def Constraint.additionTokens (c : Constraint) : List Token :=
  [.word "ALTER", .word "TABLE", .name c.table, .word "ADD", .word "CONSTRAINT", .name c.name] ++
    c.kind.tokens ++ columnTokens c.columns

/-- The tokens of a statement that drops a constraint. -/
def removalTokens (d : Dialect) (table name : String) (kind : ConstraintKind) : List Token :=
  [.word "ALTER", .word "TABLE", .name table, .word "DROP"] ++
    match d, kind with
    | .mysql, .primaryKey => [.word "PRIMARY", .word "KEY"]
    | .mysql, .unique => [.word "INDEX", .name name]
    | _, _ => [.word "CONSTRAINT", .name name]

theorem alterTable_reads (d : Dialect) :
    lex d "ALTER TABLE " = some [.word "ALTER", .word "TABLE"] ∧
      after d "ALTER TABLE " = .between := by
  cases d <;> decide +kernel

theorem addConstraint_reads (d : Dialect) (c : Constraint) :
    lex d ((Statement.addConstraint c).text d) = some c.additionTokens := by
  have hadd : lex d " ADD CONSTRAINT " = some [.word "ADD", .word "CONSTRAINT"] ∧
      after d " ADD CONSTRAINT " = .between := by cases d <;> decide +kernel
  have hkind : lex d (" " ++ c.kind.keywords ++ " ") = some c.kind.tokens ∧
      after d (" " ++ c.kind.keywords ++ " ") = .between := by
    cases d <;> cases c.kind <;> decide +kernel
  have hfront : (" " ++ c.kind.keywords ++ " ").toList.head?.any (· ≠ d.nameQuote) = true := by
    cases d <;> cases c.kind <;> decide +kernel
  rw [Statement.text, Statement.pieces, List.cons_append, lex_word (alterTable_reads d),
    List.cons_append, List.cons_append, lex_name_word _ (by cases d <;> decide +kernel),
    lex_word hadd, List.cons_append, List.cons_append, lex_name_word _ hfront, lex_word hkind,
    List.nil_append, lex_columnList]
  simp [Constraint.additionTokens]

section Dropping

variable {table w : String} {a : List Token}

/-- The rest of a statement that alters a table, without a name in it. -/
theorem alter_reads (hw : lex d w = some a) (hfront : w.toList.head?.any (· ≠ d.nameQuote) = true) :
    lex d (render d [.word "ALTER TABLE ", .name table, .word w]) =
      some ([.word "ALTER", .word "TABLE", .name table] ++ a) := by
  rw [lex_word (alterTable_reads d), lex_name_word _ hfront, render_cons, render_nil,
    String.append_empty, Piece.render, hw]
  rfl

/-- The rest of a statement that alters a table, with a name at its end. -/
theorem alter_name_reads (name : String) (hw : lex d w = some a ∧ after d w = .between)
    (hfront : w.toList.head?.any (· ≠ d.nameQuote) = true) :
    lex d (render d [.word "ALTER TABLE ", .name table, .word w, .name name]) =
      some ([.word "ALTER", .word "TABLE", .name table] ++ (a ++ [.name name])) := by
  rw [lex_word (alterTable_reads d), lex_name_word _ hfront, lex_word hw, render_cons,
    render_nil, String.append_empty, Piece.render, lex_quotedName]
  simp

end Dropping

theorem dropConstraint_reads (d : Dialect) (table name : String) (kind : ConstraintKind) :
    lex d ((Statement.dropConstraint table name kind).text d) =
      some (removalTokens d table name kind) := by
  cases d with
  | mysql =>
    cases kind with
    | primaryKey =>
      exact alter_reads (w := " DROP PRIMARY KEY")
        (a := [.word "DROP", .word "PRIMARY", .word "KEY"]) (by decide +kernel) (by decide +kernel)
    | unique =>
      exact alter_name_reads (w := " DROP INDEX ") (a := [.word "DROP", .word "INDEX"]) name
        (by decide +kernel) (by decide +kernel)
  | sqlite | postgres =>
    exact alter_name_reads (w := " DROP CONSTRAINT ") (a := [.word "DROP", .word "CONSTRAINT"]) name
      (by decide +kernel) (by decide +kernel)

/-! ## No name changes the structure of a text -/

/-- Texts that a database of the dialect is sent are read with every name as one token, and with all
other tokens as if there were no names. -/
structure NamesStayQuoted (d : Dialect) : Prop where
  /-- A literal is one string, unless another quote follows. -/
  literal : ∀ (s rest : String), rest.toList.head? ≠ some '\'' →
    lex d (Sql.literal d s ++ rest) = (lex d rest).map (.string s :: ·)
  /-- A quoted name is one name, unless another quote follows. -/
  quotedName : ∀ (s rest : String), rest.toList.head? ≠ some d.nameQuote →
    lex d (Sql.quotedName d s ++ rest) = (lex d rest).map (.name s :: ·)
  /-- Questions after objects of one kind are read alike but for the strings that they carry. -/
  object : ∀ k : SchemaObject, ∃ around, ∀ o : SchemaObject, o.blank = k.blank →
    ReadsAs d ((CountQuery.object o).text d) around (o.asked d)
  primaryKey : ∃ around, ∀ table, ReadsAs d ((CountQuery.primaryKey table).text d) around [table]
  columns : ∃ around, ∀ table, ReadsAs d ((ListQuery.columns table).text d) around [table]
  indexTables : ∃ around, ∀ index, ReadsAs d ((ListQuery.indexTables index).text d) around [index]
  /-- A constraint is added by one statement, with the names that it is stored under. -/
  addConstraint : ∀ (c : Constraint) (l : List Statement),
    (Change.addConstraint c).build d = .ok l → l.map (fun st => lex d (st.text d)) =
      [some { c with name := c.storedName d }.additionTokens]
  /-- A constraint is dropped by one statement, whatever is given as its name. -/
  dropConstraint : ∀ (table name : String) (kind : ConstraintKind) (l : List Statement),
    (Change.dropConstraint table name kind).build d = .ok l →
      l.map (fun st => lex d (st.text d)) = [some (removalTokens d table (d.fit name) kind)]

/-- **No name changes the structure of a text**, whatever quotes and backslashes it contains. -/
theorem names_stay_quoted (d : Dialect) : NamesStayQuoted d where
  literal s rest h := lex_literal_append s h
  quotedName s rest h := lex_quotedName_append s h
  object := object_readsAs d
  primaryKey := primaryKey_readsAs d
  columns := columns_readsAs d
  indexTables := indexTables_readsAs d
  addConstraint c l hbuild := by
    obtain ⟨-, -, rfl⟩ := Change.build_eq_ok.mp hbuild
    exact congrArg (fun ts => [ts]) (addConstraint_reads d _)
  dropConstraint table name kind l hbuild := by
    obtain ⟨-, -, rfl⟩ := Change.build_eq_ok.mp hbuild
    exact congrArg (fun ts => [ts]) (dropConstraint_reads d table _ kind)

/-- A name that tries to leave its quotes on MySQL: backslashes before quotes, and a statement. -/
theorem hostile_names_stay_quoted :
    (Change.dropConstraint "users" "a`b\\'; DROP TABLE users; --" .unique).build .mysql =
        .ok [.dropConstraint "users" "a`b\\'; DROP TABLE users; --" .unique] ∧
      ([Statement.dropConstraint "users" "a`b\\'; DROP TABLE users; --" .unique].map fun st =>
        lex .mysql (st.text .mysql)) = [some [.word "ALTER", .word "TABLE", .name "users",
          .word "DROP", .word "INDEX", .name "a`b\\'; DROP TABLE users; --"]] ∧
      ")".toList.head? ≠ some '\'' ∧
      lex .mysql (Sql.literal .mysql "\\' OR 1 = 1 --" ++ ")") =
        some [.string "\\' OR 1 = 1 --", .symbol ')'] := by
  have hbuild : (Change.dropConstraint "users" "a`b\\'; DROP TABLE users; --" .unique).build
      .mysql = .ok [.dropConstraint "users" "a`b\\'; DROP TABLE users; --" .unique] := by rfl
  have hquote : ")".toList.head? ≠ some '\'' := by decide +kernel
  have hrest : lex .mysql ")" = some [.symbol ')'] := by decide +kernel
  refine ⟨hbuild, (names_stay_quoted .mysql).dropConstraint _ _ _ _ hbuild, hquote, ?_⟩
  rw [(names_stay_quoted .mysql).literal _ _ hquote, hrest]
  rfl

end Constraints

end SchemaMigration
