import SchemaMigration.Proofs.Checks
import SchemaMigration.Proofs.LegibleColumns

/-!
# Statements tell what they are for

Two tables that are created by the same text are the same, but for default values that a database
reads alike; so are two indexes, and two changes of a column (`texts_tell`).
-/
namespace SchemaMigration

variable {d : Dialect}

/-! ## Primary keys -/

namespace PrimaryKey

/-- The columns of the key have names without special characters. -/
def Plain (key : PrimaryKey) : Prop :=
  ∀ k ∈ key.columns, ∀ c ∈ k.toList, Name.isPart c = true

/-- The keywords in front of the name. -/
def opening : Dialect → String
  | .mysql => "PRIMARY KEY "
  | _ => "CONSTRAINT "

/-- The keywords behind the name. -/
def middle : Dialect → String
  | .mysql => " "
  | _ => " PRIMARY KEY "

theorem definition_eq (key : PrimaryKey) : key.definition d =
    [.word (opening d), .plainName key.name, .word (middle d)] ++ Sql.columnList key.columns := by
  cases d <;> rfl

/-- What is written of the key up to its columns. -/
def front (d : Dialect) (key : PrimaryKey) : List Char :=
  (opening d).toList ++ (Sql.enclose d.nameQuote key.name.toList ++ (middle d).toList)

theorem chars_definition (key : PrimaryKey) (x : List Char) : Sql.chars d (key.definition d) ++ x =
    key.front d ++ (Sql.chars d (Sql.columnList key.columns) ++ x) := by
  rw [definition_eq]
  simp [front, Sql.pieceChars, Piece.render, Sql.plainName]

theorem name_of_front {key key' : PrimaryKey} (h : key.front d = key'.front d) :
    key.name = key'.name := by
  have henclosed := List.append_cancel_right (List.append_cancel_left h)
  exact String.toList_inj.mp (List.append_cancel_right (List.cons.inj henclosed).2)

/-- **The definition of a key at the end of a table tells the key.**  The name of a key is not
checked, so it is told from the end, up to the last parenthesis that opens. -/
theorem definition_legible {key key' : PrimaryKey} (hkey : key.Plain) (hkey' : key'.Plain)
    (h : Sql.chars d (key.definition d) ++ [' ', ')'] =
      Sql.chars d (key'.definition d) ++ [' ', ')']) : key = key' := by
  have hlist : ∀ key : PrimaryKey, Sql.chars d (Sql.columnList key.columns) ++ [' ', ')'] =
      '(' :: (Sql.chars d (Sql.commaSeparated (key.columns.map fun k => [.name k])) ++
        [')', ' ', ')']) := fun key => by simp [Sql.columnList]
  have hinside : ∀ {key : PrimaryKey}, key.Plain →
      '(' ∉ Sql.chars d (Sql.commaSeparated (key.columns.map fun k => [.name k])) ++
        [')', ' ', ')'] := fun hkey => by simp [Sql.parenthesis_not_mem hkey]
  rw [chars_definition, chars_definition, hlist, hlist] at h
  obtain ⟨hfront, hback⟩ := Sql.split_last (hinside hkey) (hinside hkey') h
  have hlists : Sql.chars d (Sql.columnList key.columns) ++ [' ', ')'] =
      Sql.chars d (Sql.columnList key'.columns) ++ [' ', ')'] := by rw [hlist, hlist, hback]
  obtain ⟨hcolumns, -⟩ := Sql.columnList_legible PrimaryKey.columns trivial trivial hlists
  cases key
  cases key'
  rw [mk.injEq]
  exact ⟨name_of_front hfront, hcolumns⟩

end PrimaryKey

/-! ## Tables -/

namespace Statement

/-- The key as the last entry of a table. -/
def keyClause (d : Dialect) (key : Option PrimaryKey) : Sql :=
  match key with
  | some key => .word ", " :: key.definition d
  | none => []

theorem pieces_createTable (table : String) {columns : List Column} (hne : columns ≠ [])
    (key : Option PrimaryKey) : (createTable table columns key).pieces d =
      [.word "CREATE TABLE ", .name table, .word " ( "] ++
        (Sql.commaSeparated (columns.map (·.definition d)) ++
          (keyClause d key ++ [.word " )"])) := by
  have hparts : columns.map (·.definition d) ≠ [] := fun hnil => hne (List.map_eq_nil_iff.mp hnil)
  cases key with
  | none => simp [pieces, keyClause]
  | some key => simp [pieces, keyClause, Sql.commaSeparated_concat hparts]

theorem text_eq_iff {s s' : Statement} :
    s.text d = s'.text d ↔ Sql.chars d (s.pieces d) = Sql.chars d (s'.pieces d) := by
  rw [text, text, ← Sql.toList_render, ← Sql.toList_render, String.toList_inj]

/-- A key does not look like one more column. -/
theorem over_keyClause (key : Option PrimaryKey) :
    Column.Ends (Sql.chars d (keyClause d key) ++ [' ', ')']) ∧
      Sql.Over d.nameQuote (Sql.chars d (keyClause d key) ++ [' ', ')']) := by
  cases key with
  | none =>
    refine ⟨⟨?_, ?_⟩, ?_⟩
    · simp [keyClause, Sql.Apart]
    · simp [keyClause]
    · cases d <;> simp [keyClause, Sql.Over, Dialect.nameQuote]
  | some key =>
    have hcons : Sql.chars d (keyClause d (some key)) ++ [' ', ')'] =
        ',' :: ' ' :: (Sql.chars d (key.definition d) ++ [' ', ')']) := by simp [keyClause]
    rw [hcons, PrimaryKey.chars_definition, PrimaryKey.front]
    refine ⟨⟨?_, ?_⟩, ?_⟩
    · simp [Sql.Apart]
    · simp
    · cases d <;> simp [Sql.Over, Dialect.nameQuote, PrimaryKey.opening]

/-- A key at the end of a table can be told from none. -/
theorem keyClause_legible {key key' : Option PrimaryKey} (hkey : ∀ k ∈ key, k.Plain)
    (hkey' : ∀ k ∈ key', k.Plain) (h : Sql.chars d (keyClause d key) ++ [' ', ')'] =
      Sql.chars d (keyClause d key') ++ [' ', ')']) : key = key' := by
  cases key with
  | none =>
    cases key' with
    | none => rfl
    | some key' => simp [keyClause] at h
  | some key =>
    cases key' with
    | none => simp [keyClause] at h
    | some key' =>
      simp only [keyClause, Sql.chars_cons, List.append_assoc] at h
      rw [PrimaryKey.definition_legible (hkey key rfl) (hkey' key' rfl)
        (List.append_cancel_left h)]

/-- **The text of a new table tells the table**, but for default values that are read alike. -/
theorem createTable_legible {table table' : String} {columns columns' : List Column}
    {key key' : Option PrimaryKey} (hne : columns ≠ []) (hne' : columns' ≠ [])
    (hkey : ∀ k ∈ key, k.Plain) (hkey' : ∀ k ∈ key', k.Plain)
    (h : (createTable table columns key).text d = (createTable table' columns' key').text d) :
    table = table' ∧ columns.map (·.asRead d) = columns'.map (·.asRead d) ∧ key = key' := by
  have hcolumns := (Column.definition_legible (d := d)).listed (q := d.nameQuote)
    (fun c => Sql.chars_name_cons c.name _) (fun x => by simp [Column.Ends, Sql.Apart])
  have hclose : Sql.pieceChars d (.word " )") = [' ', ')'] := by simp
  rw [text_eq_iff, pieces_createTable _ hne, pieces_createTable _ hne'] at h
  simp only [Sql.chars_append, Sql.chars_cons, Sql.chars_nil, List.append_nil, List.append_assoc,
    hclose] at h
  obtain ⟨rfl, hrest⟩ := Sql.name_word_legible (by simp) (List.append_cancel_left h)
  obtain ⟨hcolumns, hrest⟩ := hcolumns (over_keyClause key) (over_keyClause key') hrest
  exact ⟨rfl, hcolumns, keyClause_legible hkey hkey' hrest⟩

/-- **The text of a new index tells the index.** -/
theorem createIndex_legible {i i' : Index} (hname : ∀ c ∈ i.name.toList, Name.isPart c = true)
    (hname' : ∀ c ∈ i'.name.toList, Name.isPart c = true)
    (h : (createIndex i).text d = (createIndex i').text d) : i = i' := by
  have hunique := Sql.choice_legible (d := d) Index.unique "CREATE UNIQUE INDEX " "CREATE INDEX "
    (by simp)
  have hpieces : ∀ i : Index, Sql.chars d ((createIndex i).pieces d) =
      Sql.chars d [.word (if i.unique then "CREATE UNIQUE INDEX " else "CREATE INDEX ")] ++
        Sql.chars d ([.plainName i.name, .word " ON ", .name i.table, .word " "] ++
          Sql.columnList i.columns) := fun i => by
    rw [← Sql.chars_append]
    rfl
  rw [text_eq_iff, hpieces, hpieces] at h
  obtain ⟨hunique, hrest⟩ := hunique trivial trivial h
  simp only [Sql.chars_append, Sql.chars_cons, Sql.chars_nil, List.append_nil, List.append_assoc,
    ← Sql.chars_name_eq hname, ← Sql.chars_name_eq hname'] at hrest
  obtain ⟨hnames, hrest⟩ := Sql.name_word_legible (by simp) hrest
  obtain ⟨htable, hrest⟩ := Sql.name_word_legible (by simp) hrest
  obtain ⟨hcolumns, -⟩ := Sql.columnList_legible Index.columns (x := []) (y := []) trivial trivial
    (congrArg (· ++ []) hrest)
  cases i
  cases i'
  rw [Index.mk.injEq]
  exact ⟨htable, hnames, hcolumns, hunique⟩

/-- **The text of a change of a column tells table and column.** -/
theorem alterColumn_legible {table table' : String} {c c' : Column}
    (h : (alterColumn table c).text d = (alterColumn table' c').text d) :
    table = table' ∧ c.asRead d = c'.asRead d := by
  rw [text_eq_iff, pieces, pieces] at h
  simp only [Sql.chars_append, Sql.chars_cons, Sql.chars_nil, List.append_nil,
    List.append_assoc] at h
  obtain ⟨rfl, hrest⟩ := Sql.name_word_legible (by simp) (List.append_cancel_left h)
  obtain ⟨hread, -⟩ := Column.alteration_legible (d := d) (x := []) (y := []) rfl rfl
    (congrArg (· ++ []) hrest)
  exact ⟨rfl, hread⟩

/-- **Tables that are read alike are created by the same text.** -/
theorem createTable_text_congr (table : String) {columns columns' : List Column}
    (key : Option PrimaryKey) (h : columns.map (·.asRead d) = columns'.map (·.asRead d)) :
    (createTable table columns key).text d = (createTable table columns' key).text d := by
  have hread : ∀ columns : List Column, (columns.map (·.definition d)).map (Sql.chars d) =
      (columns.map (·.asRead d)).map fun c => Sql.chars d (c.definition d) := by
    intro columns
    simp [Column.chars_definition_asRead, Function.comp_def]
  simp only [text_eq_iff, pieces, Sql.chars_append, Sql.chars_commaSeparated, List.map_append,
    hread, h]

theorem alterColumn_text_congr (table : String) {c c' : Column} (h : c.asRead d = c'.asRead d) :
    (alterColumn table c).text d = (alterColumn table c').text d := by
  rw [text_eq_iff, pieces, pieces, Sql.chars_append, Sql.chars_append,
    ← Column.chars_alteration_asRead c, h, Column.chars_alteration_asRead]

end Statement

namespace Table

/-- The primary key as it stands in the statement, if there is one. -/
def key? (d : Dialect) (t : Table) : Option PrimaryKey :=
  if t.primaryKey = [] then none else some ⟨t.storedKeyName d, t.primaryKey⟩

theorem plain_of_check {t : Table} (h : t.check d = .ok ()) : ∀ k ∈ t.key? d, k.Plain := by
  intro key hkey name hname
  have hcheck : t.checkKey [] t.primaryKey = .ok () :=
    (check_bind_eq_ok.mp (check_bind_eq_ok.mp h).2).2
  have hcolumns : key.columns = t.primaryKey := by
    unfold key? at hkey
    split at hkey
    · cases hkey
    · cases hkey
      rfl
  obtain ⟨c, hc, rfl⟩ := exists_of_checkKey hcheck name (hcolumns ▸ hname)
  exact Name.isPart_of_check (check_columns h c hc)

theorem key?_eq_iff {t t' : Table} : t.key? d = t'.key? d ↔ t.primaryKey = t'.primaryKey ∧
    (t.primaryKey ≠ [] → t.storedKeyName d = t'.storedKeyName d) := by
  unfold key?
  by_cases hnone : t.primaryKey = []
  · by_cases hnone' : t'.primaryKey = []
    · simp [hnone, hnone']
    · simp [hnone, hnone', Ne.symm hnone']
  · by_cases hnone' : t'.primaryKey = []
    · simp [hnone, hnone']
    · simp [hnone, hnone', and_comm]

end Table

/-! ## Texts and descriptions -/

/-- The change is carried out by these texts. -/
def Change.Writes (d : Dialect) (x : Change) (texts : List String) : Prop :=
  ∃ l, x.build d = .ok l ∧ l.map (·.text d) = texts

/-- What is changed can be told from the texts that carry a change out, and nothing else can: they
are the same for changes that differ only in how default values are read. -/
structure TextsTell (d : Dialect) : Prop where
  table : ∀ {t t' : Table} {texts texts' : List String}, (Change.createTable t).Writes d texts →
    (Change.createTable t').Writes d texts' → (texts = texts' ↔ t.name = t'.name ∧
      t.columns.map (·.asRead d) = t'.columns.map (·.asRead d) ∧ t.primaryKey = t'.primaryKey ∧
      (t.primaryKey ≠ [] → t.storedKeyName d = t'.storedKeyName d))
  index : ∀ {i i' : Index} {texts texts' : List String}, (Change.createIndex i).Writes d texts →
    (Change.createIndex i').Writes d texts' → (texts = texts' ↔ i.table = i'.table ∧
      i.storedName d = i'.storedName d ∧ i.columns = i'.columns ∧ i.unique = i'.unique)
  column : ∀ {table table' : String} {c c' : Column} {texts texts' : List String},
    (Change.alterColumnType table c).Writes d texts →
      (Change.alterColumnType table' c').Writes d texts' →
        (texts = texts' ↔ table = table' ∧ c.asRead d = c'.asRead d)
  /-- Only a default text with a zero character may be read as another one. -/
  defaultText : ∀ s : String, (d = .postgres → '\x00' ∉ s.toList) → Sql.asRead d s = s

/-- **The text of a change tells what is changed.** -/
theorem texts_tell (d : Dialect) : TextsTell d where
  table := by
    rintro t t' texts texts' ⟨l, hbuild, rfl⟩ ⟨l', hbuild', rfl⟩
    obtain ⟨hcheck, -, rfl⟩ := Change.build_eq_ok.mp hbuild
    obtain ⟨hcheck', -, rfl⟩ := Change.build_eq_ok.mp hbuild'
    constructor
    · intro htexts
      have htext : (Statement.createTable t.name t.columns (t.key? d)).text d =
          (Statement.createTable t'.name t'.columns (t'.key? d)).text d :=
        (List.cons.inj htexts).1
      obtain ⟨hname, hcolumns, hkey⟩ := Statement.createTable_legible
        (Table.columns_ne_nil hcheck) (Table.columns_ne_nil hcheck')
        (Table.plain_of_check hcheck) (Table.plain_of_check hcheck') htext
      exact ⟨hname, hcolumns, Table.key?_eq_iff.mp hkey⟩
    · rintro ⟨hname, hcolumns, hkey⟩
      have htext : (Statement.createTable t.name t.columns (t.key? d)).text d =
          (Statement.createTable t'.name t'.columns (t'.key? d)).text d := by
        rw [hname, Table.key?_eq_iff.mpr hkey]
        exact Statement.createTable_text_congr _ _ hcolumns
      exact congrArg (fun text => [text]) htext
  index := by
    rintro i i' texts texts' ⟨l, hbuild, rfl⟩ ⟨l', hbuild', rfl⟩
    obtain ⟨hcheck, -, rfl⟩ := Change.build_eq_ok.mp hbuild
    obtain ⟨hcheck', -, rfl⟩ := Change.build_eq_ok.mp hbuild'
    constructor
    · intro htexts
      exact Index.mk.inj <| Statement.createIndex_legible (Index.isPart_storedName hcheck)
        (Index.isPart_storedName hcheck') (List.cons.inj htexts).1
    · intro hsame
      have hindex : { i with name := i.storedName d } = { i' with name := i'.storedName d } :=
        Index.mk.injEq .. ▸ hsame
      simp only [Change.statements, hindex]
  column := by
    rintro table table' c c' texts texts' ⟨l, hbuild, rfl⟩ ⟨l', hbuild', rfl⟩
    obtain ⟨-, -, rfl⟩ := Change.build_eq_ok.mp hbuild
    obtain ⟨-, -, rfl⟩ := Change.build_eq_ok.mp hbuild'
    constructor
    · exact fun htexts => Statement.alterColumn_legible (List.cons.inj htexts).1
    · rintro ⟨rfl, hread⟩
      exact congrArg (fun text => [text]) (Statement.alterColumn_text_congr table hread)
  defaultText _ h := Sql.asRead_eq_self h

/-! Two default texts that PostgreSQL is given in the same words: a zero character with two digits
behind it, and the control character whose escape they look like. -/

/-- A table of notes, with a text that each of them has at first. -/
def notes (body : String) : Table :=
  { name := "notes"
    columns := [{ name := "body", type := .varchar 10, default := some (.text body) }] }

theorem writes_zero_notes : (Change.createTable (notes "\x0001")).Writes .postgres
    ["CREATE TABLE \"notes\" ( \"body\" VARCHAR(10) DEFAULT E'\\001' )"] :=
  ⟨_, rfl, by decide +kernel⟩

theorem writes_control_notes : (Change.createTable (notes "\x01")).Writes .postgres
    ["CREATE TABLE \"notes\" ( \"body\" VARCHAR(10) DEFAULT E'\\001' )"] :=
  ⟨_, rfl, by decide +kernel⟩

/-- The texts agree, so the columns are read alike. -/
theorem notes_read_alike :
    (Change.createTable (notes "\x0001")).Writes .postgres
        ["CREATE TABLE \"notes\" ( \"body\" VARCHAR(10) DEFAULT E'\\001' )"] ∧
      (Change.createTable (notes "\x01")).Writes .postgres
        ["CREATE TABLE \"notes\" ( \"body\" VARCHAR(10) DEFAULT E'\\001' )"] ∧
      (notes "\x0001").columns.map (·.asRead .postgres) =
        (notes "\x01").columns.map (·.asRead .postgres) :=
  ⟨writes_zero_notes, writes_control_notes,
    (((texts_tell .postgres).table writes_zero_notes writes_control_notes).mp rfl).2.1⟩

/-- Yet they are not the same. -/
theorem notes_written_alike :
    (∃ texts, (Change.createTable (notes "\x0001")).Writes .postgres texts ∧
      (Change.createTable (notes "\x01")).Writes .postgres texts) ∧
      (notes "\x0001").columns ≠ (notes "\x01").columns :=
  ⟨⟨_, writes_zero_notes, writes_control_notes⟩, by decide +kernel⟩

end SchemaMigration
