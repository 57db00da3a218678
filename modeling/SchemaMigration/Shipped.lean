import SchemaMigration.Guarded
import SchemaMigration.Registry

/-!
# Shipped steps

The schema that comes with the command line: users, and the tokens that protect their sessions.
-/
namespace SchemaMigration
namespace Shipped

/-- The table of users. -/
def usersTable : String := "users"

/-- The index on the mail addresses of users. -/
def usersEmailIndex : String := "users_email"

/-- The table of tokens. -/
def tokensTable : String := "xsrf_tokens"

/-- The index on the users that tokens belong to. -/
def tokensUserIndex : String := "xsrf_tokens_user_uuid"

/-- The key of a token. -/
def idColumn : String := "id"

/-- The user that a token belongs to. -/
def userColumn : String := "user_uuid"

/-- When a row was created. -/
def createdAtColumn : String := "created_at"

/-- When a row was last changed. -/
def updatedAtColumn : String := "updated_at"

/-- When a user was last seen. -/
def lastConnectionColumn : String := "last_connection_date"

/-- Users, as the first step creates their table. -/
def users : Table :=
  ({ name := usersTable } : Table)
    |>.withKeyColumn { name := "uuid", type := .varchar 40 }
    |>.withColumn { name := "login", type := .varchar 255, nullable := false }
    |>.withColumn { name := "name", type := .varchar 200 }
    |>.withColumn { name := "email", type := .varchar 100 }
    |>.withColumn
      { name := "active", type := .boolean, nullable := false, default := some (.bool true) }
    |>.withColumn { name := createdAtColumn, type := .bigInteger, nullable := false }
    |>.withColumn { name := updatedAtColumn, type := .bigInteger, nullable := false }

/-- Tokens, as the third step creates their table. -/
def tokens : Table :=
  ({ name := tokensTable } : Table)
    |>.withKeyColumn { name := idColumn, type := .varchar 40 }
    |>.withColumn { name := userColumn, type := .varchar 40, nullable := false }
    |>.withColumn { name := createdAtColumn, type := .bigInteger, nullable := false }
    |>.withColumn { name := updatedAtColumn, type := .bigInteger, nullable := false }

/-- The step that makes sure of one change. -/
def step (n : Nat) (description : String) (change : Change)
    (h : n < 0x10000000000000000 := by decide) : Step where
  version := ⟨n, h⟩
  description := description
  body d := do let _ ← change.ensure d

/-- The shipped steps. -/
def steps : List Step := [
  step 1 "Create table users" (.createTable users),
  step 2 "Create index users_email on users"
    (.createIndex { table := usersTable, name := usersEmailIndex, columns := ["email"] }),
  step 3 "Create table xsrf_tokens" (.createTable tokens),
  step 4 "Create index xsrf_tokens_user_uuid on xsrf_tokens"
    (.createIndex { table := tokensTable, name := tokensUserIndex, columns := [userColumn] }),
  step 5 "Add column last_connection_date to users"
    (.addColumns usersTable [{ name := lastConnectionColumn, type := .bigInteger }])]

/-- The registry of the shipped steps. -/
def registry : Except MigrationError Registry :=
  Registry.ofSteps steps

end Shipped
end SchemaMigration
