/-!
# Objects of a schema

What a catalog is asked about, and what conflicts are about.
-/
namespace SchemaMigration

/-- Something that exists in a schema or not. -/
inductive SchemaObject
  | table (table : String)
  | column (table name : String)
  | index (table name : String)
  | constraint (table name : String)
  deriving DecidableEq

namespace SchemaObject

/-- The object as messages show it. -/
def describe : SchemaObject → String
  | table t => "table " ++ t
  | column t n => "column " ++ t ++ "." ++ n
  | index t n => "index " ++ n ++ " on " ++ t
  | constraint t n => "constraint " ++ n ++ " on " ++ t

/-- The table that the object is or belongs to. -/
def owner : SchemaObject → String
  | table t | column t _ | index t _ | constraint t _ => t

end SchemaObject
end SchemaMigration
