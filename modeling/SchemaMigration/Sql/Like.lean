/-!
# Patterns

What a database makes of a pattern behind `LIKE`.  A percent sign stands for any characters and an
underscore for one; behind the character that is named as the escape, both stand for themselves, and
so does the escape.
-/
namespace SchemaMigration
namespace Sql
namespace Like

/-- What a pattern asks for at one place. -/
inductive Mark
  /-- Any number of characters. -/
  | run
  /-- Any character. -/
  | one
  | exactly (c : Char)
  deriving DecidableEq

/-- What a character asks for that does not follow the escape. -/
def Mark.of (c : Char) : Mark :=
  if c = '%' then run
  else if c = '_' then one
  else exactly c

/-- The marks of a pattern, unless this breaks off behind the escape. -/
def read (escape : Char) : List Char → Option (List Mark)
  | [] => some []
  | [c] => if c = escape then none else some [.of c]
  | c :: next :: rest =>
    if c = escape then (read escape rest).map (.exactly next :: ·)
    else (read escape (next :: rest)).map (.of c :: ·)

/-- Whether what is left of a text passes a test, after some of it or none has been left out. -/
def passesSomewhere (test : List Char → Bool) : List Char → Bool
  | [] => test []
  | c :: rest => test (c :: rest) || passesSomewhere test rest

/-- Whether a text is what the marks ask for, one after the other.  For a run of characters, each
place where it could end is tried. -/
def accepts : List Mark → List Char → Bool
  | [], text => text.isEmpty
  | .run :: marks, text => passesSomewhere (accepts marks) text
  | .one :: marks, _ :: text => accepts marks text
  | .exactly c :: marks, first :: text => decide (first = c) && accepts marks text
  | .one :: _, [] | .exactly _ :: _, [] => false

/-- Whether the text is like the pattern.  Nothing is like a pattern that breaks off, or with an
escape that is not one character. -/
def holds (text pattern escape : String) : Bool :=
  match escape.toList with
  | [e] => (read e pattern.toList).any (accepts · text.toList)
  | _ => false

end Like
end Sql
end SchemaMigration
