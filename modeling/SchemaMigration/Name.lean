import SchemaMigration.Dialect

/-!
# Names of tables, columns, indexes and constraints

A name that is written by hand has to be lower-case ASCII, start with a letter and fit.  The names
of indexes and constraints are often derived from other names: they may start with any allowed
character, and one that is too long is cut instead of refused.
-/
namespace SchemaMigration

/-- What is wrong with a name. -/
inductive NameFlaw
  | missing
  | badStart
  | badCharacter (c : Char)
  | tooLong (d : Dialect)
  deriving DecidableEq

namespace Name

/-- The characters that names are made of. -/
def isPart (c : Char) : Bool :=
  c.isLower || c.isDigit || c = '_'

/-- The first character that no name may have. -/
def firstStranger? (s : String) : Option Char :=
  s.toList.find? fun c => !isPart c

/-- Checks a name that is used as it is. -/
def check (d : Dialect) (s : String) : Except NameFlaw Unit :=
  match s.toList with
  | [] => .error .missing
  | first :: _ =>
    if !first.isLower then .error .badStart
    else
      match firstStranger? s with
      | some c => .error (.badCharacter c)
      | none => if d.nameLimit < s.utf8ByteSize then .error (.tooLong d) else .ok ()

/-- Checks a name that may still be cut. -/
def checkDerived (s : String) : Except NameFlaw Unit :=
  match s.toList with
  | [] => .error .missing
  | _ :: _ =>
    match firstStranger? s with
    | some c => .error (.badCharacter c)
    | none => .ok ()

end Name

/-- The complaint about `name`, which names something of the given kind. -/
def NameFlaw.message (kind name : String) : NameFlaw → String
  | missing => kind ++ " name must not be empty"
  | badStart => kind ++ " name '" ++ name ++ "' must start with a lowercase ASCII letter"
  | badCharacter c =>
    kind ++ " name '" ++ name ++ "' contains '" ++ c.toString ++ "', only [a-z0-9_] is allowed"
  | tooLong d =>
    kind ++ " name '" ++ name ++ "' is longer than " ++ toString d.nameLimit ++ " characters on "
      ++ d.name

end SchemaMigration
