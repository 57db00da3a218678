import SchemaMigration.Sql.Piece

/-!
# Reading SQL

How a database takes a text apart into tokens, as far as quotes are concerned.  A quote inside a
quoted token is written twice; in the strings of MySQL a backslash also takes the meaning from the
character after it.  Reading goes character by character (`Reader.step`), and the end of a quoted
token shows only in the next character, or at the end of the text (`Reader.flush`).
-/
namespace SchemaMigration
namespace Sql

/-- A token of SQL. -/
inductive Token
  /-- A keyword, a number or a name without quotes. -/
  | word (text : String)
  | symbol (c : Char)
  | string (value : String)
  | name (value : String)
  deriving DecidableEq

/-- What stands between quotes. -/
inductive Quoted
  | string
  | name
  deriving DecidableEq

namespace Quoted

/-- What the quote opens, if it is one. -/
def ofMark? (d : Dialect) (c : Char) : Option Quoted :=
  match d, c with
  | _, '\'' => some string
  | .mysql, '"' => some string
  | _, '"' => some name
  | .postgres, '`' => none
  | _, '`' => some name
  | _, _ => none

/-- Whether a backslash takes the meaning from the next character. -/
def escapes (d : Dialect) (kind : Quoted) : Bool :=
  decide (d = .mysql ∧ kind = string)

/-- The token with this inside. -/
def token : Quoted → List Char → Token
  | string, s => .string (String.ofList s)
  | name, s => .name (String.ofList s)

end Quoted

/-- Where a reader stands.  What it has read of a token so far is kept from back to front. -/
inductive Reader
  | between
  | word (read : List Char)
  | quoted (kind : Quoted) (mark : Char) (read : List Char)
  /-- Behind a backslash. -/
  | escaped (kind : Quoted) (mark : Char) (read : List Char)
  /-- Behind a quote, which is the last one unless another one follows. -/
  | closing (kind : Quoted) (mark : Char) (read : List Char)
  deriving DecidableEq

namespace Reader

/-- The characters that words are made of. -/
def isWordPart (c : Char) : Bool :=
  c.isAlphanum || c = '_'

/-- The first character after a token. -/
def start (d : Dialect) (c : Char) : List Token × Reader :=
  match Quoted.ofMark? d c with
  | some kind => ([], quoted kind c [])
  | none =>
    if isWordPart c then ([], word [c])
    else if c.isWhitespace then ([], between)
    else ([.symbol c], between)

/-- One more character: the tokens that are known now, and where the reader stands. -/
def step (d : Dialect) : Reader → Char → List Token × Reader
  | between, c => start d c
  | word read, c =>
    if isWordPart c then ([], word (c :: read))
    else
      let (tokens, next) := start d c
      (.word (String.ofList read.reverse) :: tokens, next)
  | quoted kind mark read, c =>
    if kind.escapes d && c = '\\' then ([], escaped kind mark read)
    else if c = mark then ([], closing kind mark read)
    else ([], quoted kind mark (c :: read))
  | escaped kind mark read, c => ([], quoted kind mark (c :: read))
  | closing kind mark read, c =>
    if c = mark then ([], quoted kind mark (c :: read))
    else
      let (tokens, next) := start d c
      (kind.token read.reverse :: tokens, next)

/-- One character after the other. -/
def run (d : Dialect) : Reader → List Char → List Token × Reader
  | r, [] => ([], r)
  | r, c :: rest =>
    let (tokens, next) := r.step d c
    let (others, last) := run d next rest
    (tokens ++ others, last)

/-- The token that ends where the text does.  A quoted token without its last quote is none. -/
def flush : Reader → Option (List Token)
  | between => some []
  | word read => some [.word (String.ofList read.reverse)]
  | closing kind _ read => some [kind.token read.reverse]
  | quoted _ _ _ | escaped _ _ _ => none

/-- Whether a token that may end here ends before the character. -/
def endsBefore : Reader → Char → Bool
  | between, _ => true
  | word _, c => !isWordPart c
  | closing _ mark _, c => c ≠ mark
  | quoted _ _ _, _ | escaped _ _ _, _ => false

end Reader

/-- The tokens of a text, unless it breaks off inside quotes. -/
def lex (d : Dialect) (s : String) : Option (List Token) :=
  let (tokens, last) := Reader.between.run d s.toList
  last.flush.map (tokens ++ ·)

end Sql
end SchemaMigration
