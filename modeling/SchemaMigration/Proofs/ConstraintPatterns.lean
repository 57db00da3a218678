import Mathlib.Data.List.Infix
import SchemaMigration.Proofs.Quotation
import SchemaMigration.Sql.Like

/-!
# Looking for a constraint by patterns

SQLite keeps no list of constraints, so a constraint is looked for in the definition of its table,
with a pattern for each way in which its name may be written there.  The name is escaped: each of
its characters stands for itself in the patterns, whatever it is (`Sql.Like.read_escaped`).  A
definition is like one of them exactly if it contains the name as a constraint of that spelling
(`constraint_lookup_exact`).
-/
namespace SchemaMigration

namespace Sql
namespace Like

variable {marks : List Mark} {text s : List Char}

/-! ## Reading patterns -/

/-- An escaped character is read as itself. -/
theorem read_escapeLike (c : Char) (rest : List Char) :
    read '\\' (Lookup.escapeLike c ++ rest) = (read '\\' rest).map (.exactly c :: ·) := by
  by_cases hmark : c = '\\' ∨ c = '%' ∨ c = '_'
  · rw [Lookup.escapeLike, if_pos hmark]
    rfl
  · rw [Lookup.escapeLike, if_neg hmark]
    push Not at hmark
    obtain ⟨hescape, hrun, hone⟩ := hmark
    have hof : Mark.of c = .exactly c := by rw [Mark.of, if_neg hrun, if_neg hone]
    cases rest with
    | nil => simp [read, hescape, hof]
    | cons next rest => simp [read, hescape, hof]

/-- **An escaped text is read as itself**, character by character. -/
theorem read_escaped (s rest : List Char) :
    read '\\' (s.flatMap Lookup.escapeLike ++ rest) =
      (read '\\' rest).map (s.map .exactly ++ ·) := by
  induction s with
  | nil => simp
  | cons c s ih =>
    rw [List.flatMap_cons, List.append_assoc, read_escapeLike, ih, Option.map_map]
    rfl

/-- The pattern for all that contains a text. -/
theorem read_anywhere (s : List Char) :
    read '\\' ('%' :: s.flatMap Lookup.escapeLike ++ ['%']) =
      some (.run :: s.map .exactly ++ [.run]) := by
  have hrun : ∀ rest, read '\\' ('%' :: rest) = (read '\\' rest).map (.run :: ·) := by
    intro rest
    cases rest with
    | nil => rfl
    | cons next rest => rfl
  rw [List.cons_append, hrun, read_escaped]
  rfl

/-! ## What patterns accept -/

theorem passesSomewhere_iff {test : List Char → Bool} : passesSomewhere test text = true ↔
    ∃ before after, text = before ++ after ∧ test after = true := by
  induction text with
  | nil => simp [passesSomewhere]
  | cons c rest ih =>
    rw [passesSomewhere, Bool.or_eq_true, ih]
    constructor
    · rintro (hhere | ⟨before, after, rfl, hthere⟩)
      · exact ⟨[], c :: rest, rfl, hhere⟩
      · exact ⟨c :: before, after, rfl, hthere⟩
    · rintro ⟨before, after, htext, hpasses⟩
      cases before with
      | nil =>
        rw [List.nil_append] at htext
        exact .inl (htext ▸ hpasses)
      | cons c' before =>
        obtain ⟨-, rfl⟩ := List.cons.inj htext
        exact .inr ⟨before, after, rfl, hpasses⟩

theorem accepts_run : accepts (.run :: marks) text = true ↔
    ∃ before after, text = before ++ after ∧ accepts marks after = true := by
  rw [accepts]
  exact passesSomewhere_iff

theorem accepts_exactly : accepts (s.map .exactly ++ marks) text = true ↔
    ∃ after, text = s ++ after ∧ accepts marks after = true := by
  induction s generalizing text with
  | nil => simp
  | cons c s ih =>
    cases text with
    | nil => simp [accepts]
    | cons first text =>
      simp only [List.map_cons, List.cons_append, accepts, Bool.and_eq_true, decide_eq_true_eq, ih,
        List.cons.injEq]
      constructor
      · rintro ⟨rfl, after, rfl, haccepts⟩
        exact ⟨after, ⟨rfl, rfl⟩, haccepts⟩
      · rintro ⟨after, ⟨rfl, rfl⟩, haccepts⟩
        exact ⟨rfl, after, rfl, haccepts⟩

/-- **A text between two runs is looked for anywhere.** -/
theorem accepts_anywhere : accepts (.run :: s.map .exactly ++ [.run]) text = true ↔
    s <:+: text := by
  have hlast : ∀ rest : List Char, accepts [.run] rest = true := fun rest =>
    accepts_run.mpr ⟨rest, [], (List.append_nil rest).symm, rfl⟩
  rw [List.cons_append, accepts_run]
  constructor
  · rintro ⟨before, rest, rfl, hrest⟩
    obtain ⟨after, rfl, -⟩ := accepts_exactly.mp hrest
    exact ⟨before, after, List.append_assoc before s after⟩
  · rintro ⟨before, after, rfl⟩
    exact ⟨before, s ++ after, List.append_assoc before s after,
      accepts_exactly.mpr ⟨after, rfl, hlast after⟩⟩

theorem holds_of_read {definition pattern : String}
    (h : read '\\' pattern.toList = some marks) :
    holds definition pattern "\\" = accepts marks definition.toList := by
  have hescape : "\\".toList = ['\\'] := rfl
  simp only [holds, hescape, h, Option.any_some]

end Like
end Sql

namespace Lookup
open Sql

/-- What a definition contains that mentions the constraint, in lower case: its name between either
kind of quotes, or without quotes before a blank. -/
def constraintSpellings (name : String) : List String :=
  let name := Text.lower name
  ["constraint \"" ++ name ++ "\"", "constraint `" ++ name ++ "`", "constraint " ++ name ++ " "]

/-- A condition on a definition in lower case. -/
structure LikeCondition where
  pattern : String
  escape : String
  deriving DecidableEq

namespace LikeCondition

/-- The condition as it is read. -/
def tokens (k : LikeCondition) : List Token :=
  [.word "LOWER", .symbol '(', .word "sql", .symbol ')', .word "LIKE", .string k.pattern,
    .word "ESCAPE", .string k.escape]

/-- One of the conditions, as it is read. -/
def anyOf (ks : List LikeCondition) : List Token :=
  ((ks.map tokens).intersperse [.word "OR"]).flatten

def Holds (k : LikeCondition) (definition : String) : Prop :=
  Like.holds definition k.pattern k.escape = true

end LikeCondition

/-- The question after a constraint on SQLite, as it is read: how many tables there are of the name
with a definition of which one of the conditions holds. -/
def constraintTokens (table : String) (ks : List LikeCondition) : List Token :=
  [.word "SELECT", .word "COUNT", .symbol '(', .symbol '*', .symbol ')', .word "FROM",
    .word "sqlite_master", .word "WHERE", .word "type", .symbol '=', .string "table",
    .word "AND", .word "LOWER", .symbol '(', .word "name", .symbol ')', .symbol '=',
    .word "LOWER", .symbol '(', .string table, .symbol ')', .word "AND", .symbol '('] ++
    LikeCondition.anyOf ks ++ [.symbol ')']

/-- The conditions are told apart from the rest whatever the names are. -/
theorem constraint_reads (table name : String) :
    lex .sqlite ((CountQuery.object (.constraint table name)).text .sqlite) =
      some (constraintTokens table ((constraintPatterns name).map fun p => ⟨p, "\\"⟩)) := by
  -- without names all strings are empty but two, and those with names are put in their places
  generalize haround : ((constraintTokens "" (List.replicate 3 ⟨"", "\\"⟩)).map fun t =>
    if t = .string "" then none else some t) = around
  have hgaps : gaps .sqlite ((CountQuery.object (.constraint "" "")).pieces .sqlite) =
      some around := by
    rw [← haround]
    decide +kernel
  have hfilled : fill around ((SchemaObject.constraint table name).asked .sqlite) =
      some (constraintTokens table ((constraintPatterns name).map fun p => ⟨p, "\\"⟩)) := by
    rw [← haround]
    rfl
  obtain ⟨ts, hfill, hlex⟩ := readsAs_of_shape
    ((SchemaObject.constraint table name).pieces_blank .sqlite)
    ((SchemaObject.constraint table name).separated_pieces .sqlite).1 hgaps
  rw [SchemaObject.literals_asked, hfilled] at hfill
  cases hfill
  exact hlex

/-- The patterns ask for the spellings, escaped, anywhere. -/
theorem constraintPatterns_eq (name : String) :
    constraintPatterns name = (constraintSpellings name).map fun s =>
      String.ofList ('%' :: s.toList.flatMap escapeLike ++ ['%']) := by
  have hplain : ∀ before after : String, before.toList.flatMap escapeLike = before.toList →
      after.toList.flatMap escapeLike = after.toList → ∀ name : String,
      "%" ++ before ++ String.ofList (name.toList.flatMap escapeLike) ++ (after ++ "%") =
        String.ofList ('%' :: (before ++ name ++ after).toList.flatMap escapeLike ++ ['%']) := by
    intro before after hbefore hafter name
    apply String.toList_injective
    simp [List.flatMap_append, hbefore, hafter]
  simp only [constraintPatterns, constraintSpellings, List.map_cons, List.map_nil]
  rw [← hplain "constraint \"" "\"" (by decide) (by decide),
    ← hplain "constraint `" "`" (by decide) (by decide),
    ← hplain "constraint " " " (by decide) (by decide)]
  rfl

/-- The pattern for a spelling is read without breaking off. -/
theorem read_pattern (s : String) :
    Like.read '\\' (String.ofList ('%' :: s.toList.flatMap escapeLike ++ ['%'])).toList =
      some (.run :: s.toList.map .exactly ++ [.run]) := by
  rw [String.toList_ofList]
  exact Like.read_anywhere s.toList

/-- One of the patterns is like a definition that has a spelling in it. -/
theorem holds_patterns_iff (name definition : String) :
    (∃ k ∈ (constraintPatterns name).map fun p => (⟨p, "\\"⟩ : LikeCondition),
      k.Holds definition) ↔
      ∃ s ∈ constraintSpellings name, s.toList <:+: definition.toList := by
  have hholds : ∀ s : String, LikeCondition.Holds
      ⟨String.ofList ('%' :: s.toList.flatMap escapeLike ++ ['%']), "\\"⟩ definition ↔
        s.toList <:+: definition.toList := by
    intro s
    rw [LikeCondition.Holds, Like.holds_of_read (read_pattern s)]
    exact Like.accepts_anywhere
  rw [constraintPatterns_eq, List.map_map]
  simp only [List.mem_map, Function.comp, exists_exists_and_eq_and, hholds]

/-- **A constraint is found exactly where it is mentioned**, whatever its name.  The question that
SQLite is asked is read as one of three conditions; no pattern breaks off, and in none of them does
a character of the name stand for anything but itself; and one of the conditions holds of a
definition exactly if this contains a spelling of the constraint. -/
theorem constraint_lookup_exact (table name : String) : ∃ ks : List LikeCondition,
    lex .sqlite ((CountQuery.object (.constraint table name)).text .sqlite) =
        some (constraintTokens table ks) ∧
      (ks.map fun k => (k.escape, Like.read '\\' k.pattern.toList)) =
        (constraintSpellings name).map (fun s =>
          ("\\", some (.run :: s.toList.map .exactly ++ [.run]))) ∧
      ∀ definition : String, (∃ k ∈ ks, k.Holds definition) ↔
        ∃ s ∈ constraintSpellings name, s.toList <:+: definition.toList := by
  refine ⟨(constraintPatterns name).map fun p => ⟨p, "\\"⟩, constraint_reads table name, ?_,
    holds_patterns_iff name⟩
  rw [constraintPatterns_eq, List.map_map, List.map_map]
  refine List.map_congr_left fun s _ => ?_
  simp only [Function.comp, read_pattern]

end Lookup
end SchemaMigration
