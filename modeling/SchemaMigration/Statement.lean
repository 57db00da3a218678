import SchemaMigration.Sql.Piece
import SchemaMigration.Table
import SchemaMigration.Version

/-!
# Statements

What is sent to a database to be carried out.  A statement holds checked names, as they will be
stored; its text in a dialect is computed from it and nothing else.
-/
namespace SchemaMigration

/-- The primary key that a table is created with. -/
structure PrimaryKey where
  name : String
  columns : List String
  deriving DecidableEq

/-- A statement that is carried out, as opposed to a question. -/
inductive Statement
  | createTable (table : String) (columns : List Column) (key : Option PrimaryKey)
  | dropTable (table : String)
  | createIndex (index : Index)
  | dropIndex (table name : String)
  | addColumns (table : String) (columns : List Column)
  | dropColumns (table : String) (columns : List String)
  | alterColumn (table : String) (column : Column)
  | addConstraint (constraint : Constraint)
  | dropConstraint (table name : String) (kind : ConstraintKind)
  /-- Records in a history table that a version is completed. -/
  | recordVersion (history : String) (version : Version)
  /-- A statement in the words of a step. -/
  | verbatim (text : String)
  deriving DecidableEq

namespace History

/-- The column of a history table with the version of a row. -/
def versionColumn : String := "version"

/-- The column with the status of a version. -/
def statusColumn : String := "status"

/-- The column with the time at which a version was completed. -/
def completedAtColumn : String := "completed_at"

/-- The status of a completed version. -/
def succeeded : String := "SUCCEEDED"

end History

namespace DefaultValue

/-- The value in SQL. -/
def sql : DefaultValue → Sql
  | bool true => [.word "TRUE"]
  | bool false => [.word "FALSE"]
  | integer value => [.word (toString value)]
  | text value => [.value value]

end DefaultValue

namespace Column

/-- The default clause of a column. -/
def defaultClause (c : Column) : Sql :=
  match c.default with
  | some value => .word " DEFAULT " :: value.sql
  | none => []

/-- The definition of a column in a new table. -/
def definition (d : Dialect) (c : Column) : Sql :=
  [.name c.name, .word (" " ++ c.type.native d)] ++
    (if c.nullable then [] else [.word " NOT NULL"]) ++ c.defaultClause

/-- The clauses that change an existing column.  MySQL repeats the whole definition; PostgreSQL
changes type, nullability and default one by one. -/
def alteration (d : Dialect) (c : Column) : Sql :=
  match d with
  | .postgres =>
    Sql.commaSeparated <|
      [[.word "ALTER COLUMN ", .name c.name, .word (" TYPE " ++ c.type.native d)],
        [.word "ALTER COLUMN ", .name c.name,
          .word (if c.nullable then " DROP NOT NULL" else " SET NOT NULL")]] ++
      (match c.default with
        | some value =>
          [[Piece.word "ALTER COLUMN ", .name c.name, .word " SET DEFAULT "] ++ value.sql]
        | none => [])
  | _ =>
    [.word "MODIFY COLUMN ", .name c.name, .word (" " ++ c.type.native d),
      .word (if c.nullable then " NULL" else " NOT NULL")] ++ c.defaultClause

end Column

namespace PrimaryKey

/-- The key as the last entry of a new table. -/
def definition (d : Dialect) (key : PrimaryKey) : Sql :=
  (match d with
    | .mysql => [.word "PRIMARY KEY ", .plainName key.name, .word " "]
    | _ => [.word "CONSTRAINT ", .plainName key.name, .word " PRIMARY KEY "]) ++
    Sql.columnList key.columns

end PrimaryKey

namespace ConstraintKind

/-- The keywords of the kind. -/
def keywords : ConstraintKind → String
  | primaryKey => "PRIMARY KEY"
  | unique => "UNIQUE"

end ConstraintKind

namespace Statement

/-- The statement in pieces. -/
def pieces (d : Dialect) : Statement → Sql
  | createTable table columns key =>
    [.word "CREATE TABLE ", .name table, .word " ( "] ++
      Sql.commaSeparated (columns.map (·.definition d) ++ key.toList.map (·.definition d)) ++
      [.word " )"]
  | dropTable table => [.word "DROP TABLE ", .name table]
  | createIndex i =>
    [.word (if i.unique then "CREATE UNIQUE INDEX " else "CREATE INDEX "), .plainName i.name,
      .word " ON ", .name i.table, .word " "] ++ Sql.columnList i.columns
  | dropIndex table name =>
    [.word "DROP INDEX ", .plainName name] ++
      (match d with
        | .mysql => [.word " ON ", .name table]
        | _ => [])
  | addColumns table columns =>
    [.word "ALTER TABLE ", .name table, .word " "] ++
      Sql.commaSeparated (columns.map fun c => .word "ADD COLUMN " :: c.definition d)
  | dropColumns table columns =>
    [.word "ALTER TABLE ", .name table, .word " "] ++
      Sql.commaSeparated (columns.map fun c => [.word "DROP COLUMN ", .name c])
  | alterColumn table c => [.word "ALTER TABLE ", .name table, .word " "] ++ c.alteration d
  | addConstraint c =>
    [.word "ALTER TABLE ", .name c.table, .word " ADD CONSTRAINT ", .name c.name,
      .word (" " ++ c.kind.keywords ++ " ")] ++ Sql.columnList c.columns
  | dropConstraint table name kind =>
    [.word "ALTER TABLE ", .name table] ++
      (match d, kind with
        | .mysql, .primaryKey => [.word " DROP PRIMARY KEY"]
        | .mysql, .unique => [.word " DROP INDEX ", .name name]
        | _, _ => [.word " DROP CONSTRAINT ", .name name])
  | recordVersion history version =>
    [.word "INSERT INTO ", .name history, .word " "] ++
      Sql.columnList
        [History.versionColumn, History.statusColumn, History.completedAtColumn] ++
      [.word " VALUES (", .value version.text, .word ", ", .value History.succeeded,
        .word ", <now>)"]
  | verbatim text => [.word text]

/-- The text of the statement.  The time of completion stands as `<now>` and is filled in when the
statement is sent. -/
def text (d : Dialect) (s : Statement) : String :=
  Sql.render d (s.pieces d)

end Statement
end SchemaMigration
