import SchemaMigration.Column

/-!
# Flaws of descriptions

Why the description of a table, a column, an index or a constraint is refused.  Each cause is a
constructor, and the wording stands in one place.
-/
namespace SchemaMigration

/-- What a list of columns belongs to. -/
inductive Owner
  | table (name : String)
  | index (name : String)
  | constraint (name : String)
  deriving DecidableEq

/-- The owner as messages show it. -/
def Owner.describe : Owner → String
  | table name => "table '" ++ name ++ "'"
  | index name => "index '" ++ name ++ "'"
  | constraint name => "constraint '" ++ name ++ "'"

/-- Why a description is refused. -/
inductive Flaw
  /-- A name of the given kind breaks the rules for names. -/
  | badName (kind name : String) (flaw : NameFlaw)
  | varcharSize (column : String) (size : Nat)
  | decimalShape (column : String) (precision scale : Nat)
  | defaultMismatch (column : String) (value : DefaultValue) (type : ColumnType)
  | defaultTooLong (column : String) (size : Nat)
  | noColumns (owner : Owner)
  | duplicateColumn (owner : Owner) (column : String)
  | keyListedTwice (table column : String)
  | keyUndeclared (table column : String)
  | keyNullable (table column : String)
  /-- A column added to a table that may have rows needs a value for them. -/
  | addedWithoutValue (table column : String)
  /-- A complaint in the words of a step. -/
  | stated (text : String)
  deriving DecidableEq

namespace Flaw

/-- The complaint in words. -/
def message : Flaw → String
  | badName kind name flaw => flaw.message kind name
  | varcharSize column size =>
    "column '" ++ column ++ "': varchar size " ++ toString size ++ " is outside 1..="
      ++ toString ColumnType.maxVarcharSize
  | decimalShape column precision scale =>
    "column '" ++ column ++ "': decimal(" ++ toString precision ++ "," ++ toString scale
      ++ ") needs precision in 1..=" ++ toString ColumnType.maxDecimalPrecision
      ++ " and scale <= precision"
  | defaultMismatch column value type =>
    "column '" ++ column ++ "': default " ++ value.describe ++ " does not fit " ++ type.describe
  | defaultTooLong column size =>
    "column '" ++ column ++ "': default is longer than varchar(" ++ toString size ++ ")"
  | noColumns owner => owner.describe ++ ": at least one column is required"
  | duplicateColumn owner column => owner.describe ++ ": duplicate column '" ++ column ++ "'"
  | keyListedTwice table column =>
    (Owner.table table).describe ++ ": primary key column '" ++ column ++ "' listed twice"
  | keyUndeclared table column =>
    (Owner.table table).describe ++ ": primary key column '" ++ column ++ "' is not declared"
  | keyNullable table column =>
    (Owner.table table).describe ++ ": primary key column '" ++ column ++ "' must not be nullable"
  | addedWithoutValue table column =>
    (Owner.table table).describe ++ ": added column '" ++ column
      ++ "' must be nullable or have a default"
  | stated text => text

end Flaw

namespace Name

/-- Checks a name of the given kind. -/
def require (d : Dialect) (kind name : String) : Except Flaw Unit :=
  (check d name).mapError (Flaw.badName kind name)

/-- Checks a derived name of the given kind. -/
def requireDerived (kind name : String) : Except Flaw Unit :=
  (checkDerived name).mapError (Flaw.badName kind name)

/-- Checks the columns that something other than a table refers to or drops: at least one, good
names, none twice. -/
def requireColumns (d : Dialect) (owner : Owner) : List String → Except Flaw Unit
  | [] => .error (.noColumns owner)
  | columns => go [] columns
where
  go (seen : List String) : List String → Except Flaw Unit
    | [] => .ok ()
    | c :: rest => do
      require d "column" c
      if c ∈ seen then throw (.duplicateColumn owner c)
      go (c :: seen) rest

end Name

namespace Column

/-- Checks the limits of the type. -/
def checkType (c : Column) : Except Flaw Unit :=
  match c.type with
  | .varchar size =>
    if size = 0 ∨ ColumnType.maxVarcharSize < size then .error (.varcharSize c.name size)
    else .ok ()
  | .decimal precision scale =>
    if precision = 0 ∨ ColumnType.maxDecimalPrecision < precision ∨ precision < scale then
      .error (.decimalShape c.name precision scale)
    else .ok ()
  | _ => .ok ()

/-- Checks that the default value, if there is one, belongs to the type. -/
def checkDefault (c : Column) : Except Flaw Unit :=
  match c.default with
  | none => .ok ()
  | some value =>
    if value.fits c.type then
      match c.type, value with
      | .varchar size, .text text =>
        if size < text.length then .error (.defaultTooLong c.name size) else .ok ()
      | _, _ => .ok ()
    else .error (.defaultMismatch c.name value c.type)

/-- Checks the description of a column. -/
def check (d : Dialect) (c : Column) : Except Flaw Unit := do
  Name.require d "column" c.name
  c.checkType
  c.checkDefault

/-- Checks the columns that a table is created with or gains: at least one, all good, none
twice. -/
def checkAll (d : Dialect) (table : String) : List Column → Except Flaw Unit
  | [] => .error (.noColumns (.table table))
  | columns => go [] columns
where
  go (seen : List String) : List Column → Except Flaw Unit
    | [] => .ok ()
    | c :: rest => do
      c.check d
      if c.name ∈ seen then throw (.duplicateColumn (.table table) c.name)
      go (c.name :: seen) rest

end Column
end SchemaMigration
