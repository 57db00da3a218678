import SchemaMigration.Name
import SchemaMigration.Text.Shown

/-!
# Columns

A column has a logical type, which every dialect has a native type for, may be nullable, and may
have a default value.
-/
namespace SchemaMigration

/-- A type of values, independent of the dialect. -/
inductive ColumnType
  | boolean
  | integer
  | bigInteger
  | varchar (size : Nat)
  | clob
  | blob
  | timestamp
  | decimal (precision scale : Nat)
  deriving DecidableEq

namespace ColumnType

/-- The longest text that a `varchar` may be declared for. -/
def maxVarcharSize : Nat := 4000

/-- The most digits that a `decimal` may be declared for. -/
def maxDecimalPrecision : Nat := 38

/-- The type as messages show it. -/
def describe : ColumnType → String
  | boolean => "Boolean"
  | integer => "Integer"
  | bigInteger => "BigInteger"
  | varchar size => "Varchar(" ++ toString size ++ ")"
  | clob => "Clob"
  | blob => "Blob"
  | timestamp => "Timestamp"
  | decimal precision scale =>
    "Decimal \x7b precision: " ++ toString precision ++ ", scale: " ++ toString scale ++ " \x7d"

/-- The native type of a dialect, as it stands in a column definition. -/
def native (d : Dialect) : ColumnType → String
  | boolean => match d with
    | .mysql => "TINYINT(1)"
    | _ => "BOOLEAN"
  | integer => match d with
    | .mysql => "INT"
    | _ => "INTEGER"
  | bigInteger => "BIGINT"
  | varchar size => "VARCHAR(" ++ toString size ++ ")"
  | clob => match d with
    | .mysql => "LONGTEXT"
    | _ => "TEXT"
  | blob => match d with
    | .sqlite => "BLOB"
    | .mysql => "LONGBLOB"
    | .postgres => "BYTEA"
  | timestamp => match d with
    | .mysql => "DATETIME"
    | _ => "TIMESTAMP"
  | decimal precision scale =>
    let arguments := "(" ++ toString precision ++ "," ++ toString scale ++ ")"
    match d with
    | .postgres => "NUMERIC" ++ arguments
    | _ => "DECIMAL" ++ arguments

end ColumnType

/-- The value that a column has where a row gives none. -/
inductive DefaultValue
  | bool (value : Bool)
  | integer (value : Int)
  | text (value : String)
  deriving DecidableEq

namespace DefaultValue

/-- The value as messages show it. -/
def describe : DefaultValue → String
  | bool true => "Bool(true)"
  | bool false => "Bool(false)"
  | integer value => "Integer(" ++ toString value ++ ")"
  | text value => "Text(" ++ Text.shown value ++ ")"

/-- Whether values of the type can have this default. -/
def fits : DefaultValue → ColumnType → Bool
  | bool _, .boolean => true
  | integer _, .integer => true
  | integer _, .bigInteger => true
  | text _, .varchar _ => true
  | _, _ => false

end DefaultValue

/-- A column of a table. -/
structure Column where
  name : String
  type : ColumnType
  nullable : Bool := true
  default : Option DefaultValue := none
  deriving DecidableEq

namespace Column

/-- The column without null values. -/
def required (c : Column) : Column :=
  { c with nullable := false }

end Column
end SchemaMigration
