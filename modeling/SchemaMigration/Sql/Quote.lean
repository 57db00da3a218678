import SchemaMigration.Dialect

/-!
# Quotation in SQL

Three ways to put a text between quotes: as a name, as a string that a catalog is asked with, and
as a default value.  The first two double the quotes inside; in the strings of MySQL a backslash
escapes the next character, so it is doubled as well.  Default values follow the fuller escapes that
MySQL and PostgreSQL offer for control characters.
-/
namespace SchemaMigration
namespace Sql

/-- The text with every mark `q` written twice. -/
def double (q : Char) (s : List Char) : List Char :=
  s.flatMap fun c => if c = q then [q, q] else [c]

/-- The text between two marks. -/
def enclose (q : Char) (s : List Char) : List Char :=
  q :: s ++ [q]

/-- A name between quotes. -/
def quotedName (d : Dialect) (s : String) : String :=
  String.ofList (enclose d.nameQuote (double d.nameQuote s.toList))

/-- A name between quotes, written as it is.  The name has to be free of quotes. -/
def plainName (d : Dialect) (s : String) : String :=
  String.ofList (enclose d.nameQuote s.toList)

/-- The inside of a string literal. -/
def escapeLiteral (d : Dialect) (s : List Char) : List Char :=
  let s := double '\'' s
  match d with
  | .mysql => double '\\' s
  | _ => s

/-- A string literal. -/
def literal (d : Dialect) (s : String) : String :=
  String.ofList (enclose '\'' (escapeLiteral d s.toList))

/-- A character of a default value on MySQL. -/
def escapeMySql (c : Char) : List Char :=
  match c with
  | '\\' => ['\\', '\\']
  | '"' => ['\\', '"']
  | '\'' => ['\\', '\'']
  | '\x00' => ['\\', '0']
  | '\x08' => ['\\', 'b']
  | '\t' => ['\\', 't']
  | '\x1a' => ['\\', 'z']
  | '\n' => ['\\', 'n']
  | '\r' => ['\\', 'r']
  | c => [c]

/-- Three octal digits. -/
def octal (n : Nat) : List Char :=
  [n / 64 % 8, n / 8 % 8, n % 8].map Nat.digitChar

/-- A character of a default value on PostgreSQL. -/
def escapePostgres (c : Char) : List Char :=
  match c with
  | '\\' => ['\\', '\\']
  | '\'' => ['\\', '\'']
  | '\x00' => ['\\', '0']
  | '\x08' => ['\\', 'b']
  | '\x0c' => ['\\', 'f']
  | '\n' => ['\\', 'n']
  | '\r' => ['\\', 'r']
  | '\t' => ['\\', 't']
  | c => if c.toNat < 0x20 || c.toNat = 0x7f then '\\' :: octal c.toNat else [c]

/-- A text as a default value.  PostgreSQL marks a string with escapes by a leading `E`. -/
def textValue (d : Dialect) (s : String) : String :=
  match d with
  | .sqlite => String.ofList (enclose '\'' (double '\'' s.toList))
  | .mysql => String.ofList (enclose '\'' (s.toList.flatMap escapeMySql))
  | .postgres =>
    let escaped := s.toList.flatMap escapePostgres
    if '\\' ∈ escaped then String.ofList ('E' :: enclose '\'' escaped)
    else String.ofList (enclose '\'' escaped)

end Sql
end SchemaMigration
