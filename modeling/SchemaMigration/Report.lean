import SchemaMigration.Upgrade

/-!
# Reports

How far a database has come, written for people and for other programs.
-/
namespace SchemaMigration
namespace StatusReport

/-- Versions in a row, or a dash if there are none. -/
def inRow : List Version → String
  | [] => "-"
  | versions => ", ".intercalate (versions.map (·.text))

/-- The report for people. -/
def text (r : StatusReport) : String :=
  "dialect:   " ++ r.dialect.name ++ "\n" ++
  "latest:    " ++ inRow r.latest.toList ++ "\n" ++
  "completed: " ++ inRow r.completed ++ "\n" ++
  "pending:   " ++ inRow r.pending ++ "\n"

/-- Versions as an array, one on each line. -/
def array : List Version → String
  | [] => "[]"
  | versions =>
    "[\n" ++ ",\n".intercalate (versions.map fun v => "    " ++ v.text) ++ "\n  ]"

/-- The report for programs: an object with one field on each line. -/
def json (r : StatusReport) : String :=
  let latest := match r.latest with
    | some v => v.text
    | none => "null"
  "\x7b\n" ++
  "  \"dialect\": \"" ++ r.dialect.tag ++ "\",\n" ++
  "  \"completed\": " ++ array r.completed ++ ",\n" ++
  "  \"pending\": " ++ array r.pending ++ ",\n" ++
  "  \"latest\": " ++ latest ++ "\n\x7d\n"

end StatusReport
end SchemaMigration
