import SchemaMigration.World

/-!
# Scripts

A server whose answers are laid down beforehand.  Each request takes the next reply, whatever it
asks; a reply of the wrong kind, or none, counts as the plainest answer: the statement succeeds, the
number is 0, the list is empty.
-/
namespace SchemaMigration

/-- A prepared answer. -/
inductive Reply
  | failure (e : DriverError)
  | number (n : Int)
  /-- The question has no row as its answer. -/
  | noRow
  | texts (l : List String)
  | success
  deriving DecidableEq

/-- The answers that are still to come, to requests and to requests for a connection. -/
structure Script where
  replies : List Reply
  connections : List (Except DriverError Unit) := []

namespace Script

/-- Takes the next reply. -/
def next (s : Script) : Reply × Script :=
  match s.replies with
  | [] => (.success, s)
  | r :: rest => (r, { s with replies := rest })

/-- The server that reads its answers off a script. -/
def server : Server Script where
  connect s :=
    match s.connections with
    | [] => (.ok (), s)
    | r :: rest => (r, { s with connections := rest })
  execute _ s :=
    match s.next with
    | (.failure e, s) => (.error e, s)
    | (_, s) => (.ok (), s)
  count _ s :=
    match s.next with
    | (.failure e, s) => (.error e, s)
    | (.noRow, s) => (.error .rowNotFound, s)
    | (.number n, s) => (.ok n, s)
    | (_, s) => (.ok 0, s)
  list _ s :=
    match s.next with
    | (.failure e, s) => (.error e, s)
    | (.texts l, s) => (.ok l, s)
    | (_, s) => (.ok [], s)

end Script
end SchemaMigration
