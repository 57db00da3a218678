import SchemaMigration.SchemaObject
import SchemaMigration.Statement
import SchemaMigration.Text.Lowercase

/-!
# Lookups

Questions to a database that change nothing: which objects its catalog holds, and which versions
its history records.  Names are compared without regard to case.
-/
namespace SchemaMigration

/-- A question that is answered by a number. -/
inductive CountQuery
  /-- How many objects of this description the catalog holds. -/
  | object (o : SchemaObject)
  /-- How large the primary key of a table is, or how many there are. -/
  | primaryKey (table : String)
  /-- A question in the words of a step. -/
  | verbatim (text : String)
  deriving DecidableEq

/-- A question that is answered by texts. -/
inductive ListQuery
  /-- The columns of a table in order, in lower case. -/
  | columns (table : String)
  /-- The tables that have an index of this name, in lower case. -/
  | indexTables (index : String)
  /-- The completed versions in a history table. -/
  | completedVersions (history : String)
  /-- A question in the words of a step. -/
  | verbatim (text : String)
  deriving DecidableEq

namespace Lookup

/-- The column holds the name in any case. -/
def matching (column name : String) : Sql :=
  [.word ("LOWER(" ++ column ++ ") = LOWER("), .literal name, .word ")"]

/-- Restricts a question to the schema in use; `column` holds the schema of each entry. -/
def inSchema (d : Dialect) (column : String) : Piece :=
  match d with
  | .mysql => .word (column ++ " = DATABASE()")
  | _ => .word (column ++ " = current_schema()")

/-- The character with a backslash in front where `LIKE` would give it a meaning. -/
def escapeLike (c : Char) : List Char :=
  if c = '\\' ∨ c = '%' ∨ c = '_' then ['\\', c] else [c]

/-- The text with a backslash in front of a mark, wherever it stands. -/
def escapeMark (mark : Char) (s : List Char) : List Char :=
  s.flatMap fun c => if c = mark then ['\\', c] else [c]

/-- Escaping the marks one after the other comes to the same, if the backslash is the first. -/
theorem flatMap_escapeLike (s : List Char) :
    s.flatMap escapeLike = escapeMark '_' (escapeMark '%' (escapeMark '\\' s)) := by
  simp only [escapeMark, List.flatMap_assoc]
  refine congrArg (s.flatMap ·) (funext fun c => ?_)
  by_cases hescape : c = '\\'
  · subst hescape
    rfl
  by_cases hrun : c = '%'
  · subst hrun
    rfl
  by_cases hone : c = '_'
  · subst hone
    rfl
  · simp [escapeLike, hescape, hrun, hone]

/-- The `LIKE` patterns of the definitions that mention a constraint: the name stands between
either kind of quotes, or without quotes before a blank. -/
def constraintPatterns (name : String) : List String :=
  let escaped := String.ofList ((Text.lower name).toList.flatMap escapeLike)
  ["%constraint \"" ++ escaped ++ "\"%", "%constraint `" ++ escaped ++ "`%",
    "%constraint " ++ escaped ++ " %"]

/-- The condition that a definition mentions the constraint. -/
def mentionsConstraint (name : String) : Sql :=
  (((constraintPatterns name).map fun p =>
    [Piece.word "LOWER(sql) LIKE ", .literal p, .word " ESCAPE '\\'"]).intersperse
      [.word " OR "]).flatten

/-- The question after an object on SQLite, which keeps the definitions themselves. -/
def sqliteObject : SchemaObject → Sql
  | .table t =>
    [.word "SELECT COUNT(*) FROM sqlite_master WHERE type = 'table' AND "] ++ matching "name" t
  | .column t n =>
    [.word "SELECT COUNT(*) FROM pragma_table_info(", .literal t, .word ") WHERE "] ++
      matching "name" n
  | .index t n =>
    [.word "SELECT COUNT(*) FROM sqlite_master WHERE type = 'index' AND "] ++
      matching "tbl_name" t ++ [.word " AND "] ++ matching "name" n
  | .constraint t n =>
    [.word "SELECT COUNT(*) FROM sqlite_master WHERE type = 'table' AND "] ++
      matching "name" t ++ [.word " AND ("] ++ mentionsConstraint n ++ [.word ")"]

/-- The question after an object in the information schema. -/
def schemaObject (d : Dialect) : SchemaObject → Sql
  | .table t =>
    [.word "SELECT COUNT(*) FROM information_schema.tables WHERE ", inSchema d "table_schema",
      .word " AND "] ++ matching "table_name" t
  | .column t n =>
    [.word "SELECT COUNT(*) FROM information_schema.columns WHERE ", inSchema d "table_schema",
      .word " AND "] ++ matching "table_name" t ++ [.word " AND "] ++ matching "column_name" n
  | .index t n =>
    match d with
    | .mysql =>
      [.word "SELECT COUNT(*) FROM information_schema.statistics WHERE ",
        inSchema d "table_schema", .word " AND "] ++ matching "table_name" t ++
        [.word " AND "] ++ matching "index_name" n
    | _ =>
      [.word "SELECT COUNT(*) FROM pg_indexes WHERE ", inSchema d "schemaname", .word " AND "] ++
        matching "tablename" t ++ [.word " AND "] ++ matching "indexname" n
  | .constraint t n =>
    [.word "SELECT COUNT(*) FROM information_schema.table_constraints WHERE ",
      inSchema d "table_schema", .word " AND "] ++ matching "table_name" t ++
      [.word " AND "] ++ matching "constraint_name" n

/-- The question after the primary key of a table. -/
def primaryKey (d : Dialect) (table : String) : Sql :=
  match d with
  | .sqlite =>
    [.word "SELECT COUNT(*) FROM pragma_table_info(", .literal table, .word ") WHERE pk > 0"]
  | _ =>
    [.word "SELECT COUNT(*) FROM information_schema.table_constraints WHERE ",
      inSchema d "table_schema", .word " AND "] ++ matching "table_name" table ++
      [.word " AND constraint_type = 'PRIMARY KEY'"]

/-- The question after the columns of a table. -/
def columns (d : Dialect) (table : String) : Sql :=
  match d with
  | .sqlite =>
    [.word "SELECT LOWER(name) FROM pragma_table_info(", .literal table,
      .word ") ORDER BY cid"]
  | .mysql =>
    [.word "SELECT CAST(LOWER(column_name) AS CHAR) FROM information_schema.columns WHERE ",
      inSchema d "table_schema", .word " AND "] ++ matching "table_name" table ++
      [.word " ORDER BY ordinal_position"]
  | .postgres =>
    [.word "SELECT LOWER(column_name::text) FROM information_schema.columns WHERE ",
      inSchema d "table_schema", .word " AND "] ++ matching "table_name" table ++
      [.word " ORDER BY ordinal_position"]

/-- The question after the tables that have an index of the name. -/
def indexTables (d : Dialect) (index : String) : Sql :=
  match d with
  | .sqlite =>
    [.word "SELECT DISTINCT LOWER(tbl_name) FROM sqlite_master WHERE type = 'index' AND "] ++
      matching "name" index
  | .mysql =>
    [.word "SELECT DISTINCT CAST(LOWER(table_name) AS CHAR) ",
      .word "FROM information_schema.statistics WHERE ", inSchema d "table_schema",
      .word " AND "] ++ matching "index_name" index
  | .postgres =>
    [.word "SELECT DISTINCT LOWER(tablename::text) FROM pg_indexes WHERE ",
      inSchema d "schemaname", .word " AND "] ++ matching "indexname" index

/-- The question after the completed versions in a history table. -/
def completedVersions (history : String) : Sql :=
  [.word "SELECT ", .name History.versionColumn, .word " FROM ", .name history, .word " WHERE ",
    .name History.statusColumn, .word " = ", .value History.succeeded]

end Lookup

namespace CountQuery

/-- The question in pieces. -/
def pieces (d : Dialect) : CountQuery → Sql
  | object o =>
    match d with
    | .sqlite => Lookup.sqliteObject o
    | _ => Lookup.schemaObject d o
  | primaryKey table => Lookup.primaryKey d table
  | verbatim text => [.word text]

/-- The text of the question. -/
def text (d : Dialect) (q : CountQuery) : String :=
  Sql.render d (q.pieces d)

end CountQuery

namespace ListQuery

/-- The question in pieces. -/
def pieces (d : Dialect) : ListQuery → Sql
  | columns table => Lookup.columns d table
  | indexTables index => Lookup.indexTables d index
  | completedVersions history => Lookup.completedVersions history
  | verbatim text => [.word text]

/-- The text of the question. -/
def text (d : Dialect) (q : ListQuery) : String :=
  Sql.render d (q.pieces d)

end ListQuery
end SchemaMigration
