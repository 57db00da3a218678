/-!
# SQL dialects

The three kinds of database that a schema can be brought up to date on, and what sets them apart:
how long a name may be, how names are quoted, and which alterations they carry out.
-/
namespace SchemaMigration

/-- A kind of SQL database. -/
inductive Dialect
  | sqlite
  | mysql
  | postgres
  deriving DecidableEq

namespace Dialect

/-- The name used in messages. -/
def name : Dialect → String
  | sqlite => "sqlite"
  | mysql => "mysql"
  | postgres => "postgresql"

/-- The short name used in reports that are read by other programs. -/
def tag : Dialect → String
  | sqlite => "sqlite"
  | mysql => "mysql"
  | postgres => "postgres"

/-- How long a name may be.  The names that pass the checks are ASCII, where bytes and characters
agree. -/
def nameLimit : Dialect → Nat
  | sqlite => 128
  | mysql => 64
  | postgres => 63

/-- The mark on both sides of a quoted name. -/
def nameQuote : Dialect → Char
  | mysql => '`'
  | _ => '"'

/-- Whether the type of an existing column can be changed. -/
def altersColumnTypes : Dialect → Bool
  | sqlite => false
  | _ => true

/-- Whether constraints can be added to and dropped from an existing table. -/
def altersConstraints : Dialect → Bool
  | sqlite => false
  | _ => true

/-- Whether one `ALTER TABLE` can carry several changes. -/
def combinesAlterations : Dialect → Bool
  | sqlite => false
  | _ => true

/-- Whether an index name can be used only once in a schema, not once for each table. -/
def sharesIndexNames : Dialect → Bool
  | mysql => false
  | _ => true

/-- The part of a name that fits. -/
def fit (d : Dialect) (s : String) : String :=
  String.ofList (s.toList.take d.nameLimit)

/-- The dialect that a text names.  Case does not matter, and PostgreSQL has a short form. -/
def ofText? (s : String) : Option Dialect :=
  match s with
  | "sqlite" => some sqlite
  | "mysql" => some mysql
  | "postgresql" => some postgres
  | "postgres" => some postgres
  | _ => none

/-- The dialect of a connection, from the name that its driver goes by. -/
def ofDriverName? (s : String) : Option Dialect :=
  match s with
  | "SQLite" => some sqlite
  | "MySQL" => some mysql
  | "PostgreSQL" => some postgres
  | _ => none

theorem toList_fit (d : Dialect) (s : String) : (d.fit s).toList = s.toList.take d.nameLimit := by
  simp [fit]

theorem fit_fit (d : Dialect) (s : String) : d.fit (d.fit s) = d.fit s := by
  simp [fit, List.take_take]

/-- Something is left of every name but the empty one. -/
theorem fit_eq_empty_iff {d : Dialect} {s : String} : d.fit s = "" ↔ s = "" := by
  have hlimit : d.nameLimit ≠ 0 := by cases d <;> decide
  rw [← String.toList_eq_nil_iff, toList_fit, List.take_eq_nil_iff, String.toList_eq_nil_iff]
  simp [hlimit]

end Dialect
end SchemaMigration
