import SchemaMigration.Error

/-!
# Database URLs

Where a database is, as far as the command line has to know: which kind of database it is, and
whether it lives in memory, in a file or on a server.  A server is found under the name of a host
and, where one is given, the number of a socket.
-/
namespace SchemaMigration

/-- Where a database is. -/
inductive Location
  /-- A new SQLite database in memory. -/
  | memory
  /-- A file with a SQLite database. -/
  | file
  | server
  deriving DecidableEq

/-- Why a URL leads to no database. -/
inductive UrlFlaw
  | unknownScheme (scheme : String)
  | badSocket
  deriving DecidableEq

/-- The complaint in words. -/
def UrlFlaw.message : UrlFlaw → String
  | unknownScheme scheme =>
    "unsupported database url scheme '" ++ scheme ++ "', expected sqlite, mysql or postgres"
  | badSocket => (DriverError.configuration "invalid port number").message

namespace DatabaseUrl

/-- The part before the first colon, in lower case; nothing if there is no colon. -/
def scheme (url : String) : String :=
  if ':' ∈ url.toList then
    String.ofList ((url.toList.takeWhile (· ≠ ':')).map Char.toLower)
  else ""

/-- The text without a leading part, as often as it leads. -/
def stripLeading (lead s : List Char) : List Char :=
  if _h : lead ≠ [] ∧ lead <+: s then stripLeading lead (s.drop lead.length) else s
termination_by s.length
decreasing_by
  have := _h.2.length_le
  have := List.length_pos_iff.2 _h.1
  simp only [List.length_drop]
  omega

/-- Where a SQLite database is.  What follows a question mark are settings of the connection. -/
def sqliteLocation (url : String) : Location :=
  let path := stripLeading "sqlite:".toList (stripLeading "sqlite://".toList url.toList)
  if path.takeWhile (· ≠ '?') = ":memory:".toList then .memory else .file

/-- The part after the last occurrence of a character; all of it if there is none. -/
def afterLast (c : Char) (s : List Char) : List Char :=
  (s.reverse.takeWhile (· ≠ c)).reverse

/-- The digits of the socket: what follows the last colon of the host, which stands between two
slashes and the path.  They may be left out. -/
def socketDigits (url : String) : List Char :=
  match url.toList.dropWhile (· ≠ ':') with
  | ':' :: '/' :: '/' :: rest =>
    let host := afterLast '@' (rest.takeWhile fun c => c ≠ '/' ∧ c ≠ '?' ∧ c ≠ '#')
    if ':' ∈ host then afterLast ':' host else []
  | _ => []

/-- A server listens at a number below 65536. -/
def requireSocket (digits : List Char) : Except UrlFlaw Location :=
  match Version.readDigits .zero digits with
  | .ok n => if n.number < 65536 then .ok .server else .error .badSocket
  | .error _ => .error .badSocket

/-- The dialect and the place of a database. -/
def locate (url : String) : Except UrlFlaw (Dialect × Location) :=
  match scheme url with
  | "sqlite" => .ok (.sqlite, sqliteLocation url)
  | "mysql" | "mariadb" => (requireSocket (socketDigits url)).map fun place => (.mysql, place)
  | "postgres" | "postgresql" =>
    (requireSocket (socketDigits url)).map fun place => (.postgres, place)
  | other => .error (.unknownScheme other)

end DatabaseUrl
end SchemaMigration
