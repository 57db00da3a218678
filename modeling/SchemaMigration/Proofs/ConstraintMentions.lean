import SchemaMigration.Proofs.ConstraintPatterns
import SchemaMigration.Proofs.LegibleStatements

/-!
# What the text of a new table mentions

A text mentions a constraint if one of its spellings stands anywhere in it (`Lookup.Mentions`).  No
spelling has a parenthesis, a comma or a single quote, so a mention stands between two of these
(`Lookup.mentions_around`), and what SQLite is sent for a new table can be looked at part by part.

All spellings begin alike, with a word and a blank (`Lookup.opening`).  Names have no blanks, and
the words of a column are others, so a column mentions a constraint only in its default text
(`Column.mentions_definition`).  A key mentions the constraint that it is called by
(`PrimaryKey.mentions_definition`), and that is all (`Statement.mentions_createTable`).
-/
namespace SchemaMigration

/-! ## Texts in parts -/

namespace Text

variable {s a b u : List Char} {x : Char}

/-- A character that a text does not have keeps it on one side. -/
theorem infix_around (hx : x ∉ s) : s <:+: a ++ x :: b ↔ s <:+: a ∨ s <:+: b := by
  constructor
  · rintro ⟨before, after, h⟩
    rcases List.append_eq_append_iff.mp h with ⟨z, rfl, -⟩ | ⟨z, hz, hb⟩
    · exact .inl ⟨before, z, rfl⟩
    · cases z with
      | nil => exact .inl ⟨before, [], by simpa using hz⟩
      | cons y z =>
        obtain ⟨rfl, rfl⟩ := List.cons.inj hb
        rcases List.append_eq_append_iff.mp hz with ⟨v, -, hs⟩ | ⟨v, -, hv⟩
        · exact (hx (hs ▸ List.mem_append_right v List.mem_cons_self)).elim
        · cases v with
          | nil =>
            rw [List.nil_append] at hv
            exact (hx (hv ▸ List.mem_cons_self)).elim
          | cons y v =>
            obtain ⟨-, rfl⟩ := List.cons.inj hv
            exact .inr ⟨v, after, rfl⟩
  · rintro (h | h)
    · exact h.trans (List.prefix_append _ _).isInfix
    · exact h.trans (List.suffix_append_of_suffix (List.suffix_cons _ _)).isInfix

/-- Characters that a text does not have can be left out where it is not found. -/
theorem not_infix_insert (hu : ∀ c ∈ u, c ∉ s) (h : ¬ s <:+: a ++ b) :
    ¬ s <:+: a ++ (u ++ b) := by
  induction u generalizing a with
  | nil => exact h
  | cons c u ih =>
    obtain ⟨hc, hrest⟩ := List.forall_mem_cons.mp hu
    rw [List.cons_append, infix_around hc]
    rintro (hleft | hright)
    · exact h (hleft.trans (List.prefix_append _ _).isInfix)
    · exact ih (a := []) hrest (fun hb => h (hb.trans (List.suffix_append _ _).isInfix)) hright

end Text

/-- The name has no other characters than names are made of. -/
def Name.Plain (name : String) : Prop :=
  ∀ c ∈ name.toList, isPart c = true

/-! ## Mentioning a constraint -/

namespace Lookup
open Sql

/-- What every spelling of a constraint begins with. -/
def opening : List Char :=
  ['c', 'o', 'n', 's', 't', 'r', 'a', 'i', 'n', 't', ' ']

/-- The text has a spelling of the constraint in it. -/
def Mentions (name : String) (text : List Char) : Prop :=
  ∃ s ∈ constraintSpellings name, s.toList <:+: text

variable {name : String} {a b text u : List Char} {x : Char}

/-- What follows: the name between either kind of quotes, or before a blank. -/
def endings (name : List Char) : List (List Char) :=
  [enclose '"' name, enclose '`' name, name ++ [' ']]

theorem toList_constraintSpellings (hname : Name.Plain name) :
    (constraintSpellings name).map String.toList =
      (endings name.toList).map (opening ++ ·) := by
  have hlower : Text.lower name = name :=
    Text.lower_eq_self fun c hc => Name.ascii_of_isPart (hname c hc)
  have hdouble : "constraint \"".toList = opening ++ ['"'] := by decide
  have hgrave : "constraint `".toList = opening ++ ['`'] := by decide
  simp only [constraintSpellings, hlower, endings, enclose, List.map_cons, List.map_nil,
    String.toList_append, hdouble, hgrave, List.append_assoc, List.cons_append, List.nil_append]
  rfl

/-- A mention is the opening with one of the endings. -/
theorem mentions_iff (hname : Name.Plain name) :
    Mentions name text ↔ ∃ e ∈ endings name.toList, opening ++ e <:+: text := by
  have hall : Mentions name text ↔
      ∃ z ∈ (constraintSpellings name).map String.toList, z <:+: text := by
    simp only [Mentions, List.mem_map, exists_exists_and_eq_and]
  rw [hall, toList_constraintSpellings hname]
  simp only [List.mem_map, exists_exists_and_eq_and]

theorem opening_of_mentions (hname : Name.Plain name) (h : Mentions name text) :
    opening <:+: text := by
  obtain ⟨e, -, hin⟩ := (mentions_iff hname).mp h
  exact (List.prefix_append _ _).isInfix.trans hin

/-- A name has no blanks, so no mention begins in it. -/
theorem opening_behind_name {n : String} (hn : Name.Plain n) :
    opening <:+: n.toList ++ '"' :: b ↔ opening <:+: b := by
  have hquote : '"' ∉ opening := by decide
  rw [Text.infix_around hquote]
  exact or_iff_right fun hin => Bool.false_ne_true (hn ' ' (hin.subset (by decide)))

theorem opening_around_name {n : String} (hn : Name.Plain n) :
    opening <:+: a ++ '"' :: (n.toList ++ '"' :: b) ↔ opening <:+: a ∨ opening <:+: b := by
  have hquote : '"' ∉ opening := by decide
  rw [Text.infix_around hquote, opening_behind_name hn]

/-- The characters that no spelling of a constraint has. -/
def isBarrier (x : Char) : Bool :=
  x ∈ ['(', ')', ',', '\'']

theorem not_mem_spelling (hname : Name.Plain name) (hx : isBarrier x = true) :
    ∀ e ∈ endings name.toList, x ∉ opening ++ e := by
  have hbarriers : ∀ x ∈ ['(', ')', ',', '\''], Name.isPart x = false ∧
      x ∉ opening ++ ['"', '`', ' '] := List.forall_iff_forall_mem.mp (by decide)
  obtain ⟨hpart, hrest⟩ := hbarriers x (of_decide_eq_true hx)
  have hnot : x ∉ name.toList := fun hmem =>
    Bool.false_ne_true (hpart.symm.trans (hname x hmem))
  simp only [List.mem_append, List.mem_cons, List.not_mem_nil, or_false, not_or] at hrest
  simp [endings, enclose, hnot, hrest]

/-- A mention stands on one side of a barrier. -/
theorem mentions_around (hname : Name.Plain name) (hx : isBarrier x = true) :
    Mentions name (a ++ x :: b) ↔ Mentions name a ∨ Mentions name b := by
  rw [mentions_iff hname, mentions_iff hname, mentions_iff hname, ← exists_or]
  refine exists_congr fun e => ?_
  rw [← and_or_left]
  exact and_congr_right fun he => Text.infix_around (not_mem_spelling hname hx e he)

theorem not_mentions_nil (hname : Name.Plain name) : ¬ Mentions name [] := fun h => by
  cases List.infix_nil.mp (opening_of_mentions hname h)

/-- Nothing is mentioned behind a part: there is a blank at most. -/
theorem not_mentions_last {last : String} (hname : Name.Plain name) (hlast : last ∈ ["", " "]) :
    ¬ Mentions name last.toList := by
  have hlacks : ∀ last ∈ ["", " "], ¬ opening <:+: last.toList := by decide
  exact fun h => hlacks last hlast (opening_of_mentions hname h)

/-- Doubled quotes make no difference. -/
theorem mentions_double (hname : Name.Plain name) (a text : List Char) :
    Mentions name (a ++ double '\'' text) ↔ Mentions name (a ++ text) := by
  have hquote : isBarrier '\'' = true := rfl
  induction text generalizing a with
  | nil => rfl
  | cons c text ih =>
    by_cases hc : c = '\''
    · have hrest : Mentions name (double '\'' text) ↔ Mentions name text := ih []
      have hempty : Mentions name ('\'' :: double '\'' text) ↔ Mentions name text := by
        rw [← List.nil_append ('\'' :: double '\'' text), mentions_around hname hquote, hrest]
        exact or_iff_right (not_mentions_nil hname)
      have hdouble : double '\'' (c :: text) = '\'' :: '\'' :: double '\'' text := by
        rw [double, List.flatMap_cons, if_pos hc]
        rfl
      rw [hdouble, hc, mentions_around hname hquote, mentions_around hname hquote, hempty]
    · have hdouble : double '\'' (c :: text) = [c] ++ double '\'' text := by
        rw [double, List.flatMap_cons, if_neg hc]
        rfl
      have hrest := ih (a ++ [c])
      rw [List.append_assoc, List.append_assoc] at hrest
      rw [hdouble]
      exact hrest

end Lookup

/-! ## What is written of a table -/

namespace Sql
open Lookup

/-- What SQLite makes of a text in lower case: only the letters of ASCII change. -/
def folded (sql : Sql) : List Char :=
  (chars .sqlite sql).map Char.toLower

@[simp] theorem folded_nil : folded [] = [] := rfl

@[simp] theorem folded_cons (p : Piece) (rest : Sql) :
    folded (p :: rest) = (pieceChars .sqlite p).map Char.toLower ++ folded rest := by
  rw [folded, chars_cons, List.map_append, folded]

@[simp] theorem folded_append (s t : Sql) : folded (s ++ t) = folded s ++ folded t := by
  rw [folded, chars_append, List.map_append, folded, folded]

theorem toLower_of_plain {n : String} (hn : Name.Plain n) :
    n.toList.map Char.toLower = n.toList := by
  rw [← String.toList_map, Name.toLower_of_isPart hn]

/-- A name without special characters is written as it is, between quotes. -/
theorem folded_plainName {n : String} (hn : Name.Plain n) (rest : Sql) :
    folded (.plainName n :: rest) = '"' :: (n.toList ++ '"' :: folded rest) := by
  rw [folded_cons, pieceChars, Piece.render, plainName, String.toList_ofList, enclose,
    List.map_append, List.map_cons, toLower_of_plain hn]
  simp [Dialect.nameQuote]

theorem folded_name {n : String} (hn : Name.Plain n) (rest : Sql) :
    folded (.name n :: rest) = '"' :: (n.toList ++ '"' :: folded rest) := by
  rw [folded_cons, chars_name_eq hn, ← folded_cons, folded_plainName hn]

/-- No other character becomes a quote in lower case. -/
theorem toLower_eq_quote_iff {c : Char} : c.toLower = '\'' ↔ c = '\'' := by
  by_cases hupper : c.val ≥ 'A'.val ∧ c.val ≤ 'Z'.val
  · have hlower : c.toLower.val = c.val + ('a'.val - 'A'.val) :=
      congrArg Char.val (dif_pos hupper)
    have hfirst : 65 ≤ c.val.toNat := UInt32.le_iff_toNat_le.mp hupper.1
    have hlast : c.val.toNat ≤ 90 := UInt32.le_iff_toNat_le.mp hupper.2
    constructor
    · intro he
      have hsum : 39 = (c.val.toNat + 32) % 2 ^ 32 := by
        rw [he] at hlower
        exact (congrArg UInt32.toNat hlower).trans (UInt32.toNat_add _ _)
      omega
    · rintro rfl
      exact absurd hfirst (by decide)
  · rw [show c.toLower = c from dif_neg hupper]

/-- In lower case as many quotes are to be doubled. -/
theorem double_toLower (s : List Char) :
    (double '\'' s).map Char.toLower = double '\'' (s.map Char.toLower) := by
  rw [double, double, List.map_flatMap, List.flatMap_map]
  refine List.flatMap_congr fun c _ => ?_
  by_cases hc : c = '\''
  · rw [if_pos hc, if_pos (toLower_eq_quote_iff.mpr hc)]
    rfl
  · rw [if_neg hc, if_neg (mt toLower_eq_quote_iff.mp hc)]
    rfl

end Sql

/-! ## Columns -/

namespace Column
open Lookup Sql

/-- The words that a column is written with behind its name, in lower case: that of the type, and
one for a default value, of which the last two are without a number or a text behind them. -/
def typeWords : List String :=
  [" boolean", " integer", " bigint", " varchar", " text", " blob", " timestamp", " decimal"]

def nullWords : List String := ["", " not null"]

def defaultWords : List String := ["", " default ", " default true", " default false"]

/-- None of them makes a mention begin, whatever they are put together to. -/
theorem opening_not_in_words : ∀ t ∈ typeWords, ∀ n ∈ nullWords, ∀ v ∈ defaultWords,
    ∀ last ∈ ["", " "], ¬ opening <:+:
      t.toList ++ (n.toList ++ (v.toList ++ last.toList)) := by
  decide +kernel

/-- Sizes and numbers have no character of the opening. -/
theorem toLower_not_mem_opening {c : Char} (h : c.isDigit = true ∨ c ∈ ['(', ')', ',', '-']) :
    c.toLower ∉ opening := by
  have hpunctuation : ∀ c ∈ ['(', ')', ',', '-'], c.toLower ∉ opening :=
    List.forall_iff_forall_mem.mp (by decide)
  have hdigits : ∀ c ∈ opening, c.isDigit = false := List.forall_iff_forall_mem.mp (by decide)
  rcases h with hdigit | hmark
  · have hpart : Name.isPart c = true := by simp [Name.isPart, hdigit]
    have hsame : c.toLower = c := dif_neg (of_decide_eq_false (Name.ascii_of_isPart hpart).2)
    rw [hsame]
    exact fun hmem => Bool.false_ne_true ((hdigits c hmem).symm.trans hdigit)
  · exact hpunctuation c hmark

/-- The characters make no mention begin. -/
def Idle (u : List Char) : Prop :=
  ∀ c ∈ u, c.isDigit = true ∨ c ∈ ['(', ')', ',', '-']

theorem Idle.not_mem_opening {u : List Char} (hu : Idle u) :
    ∀ c ∈ u.map Char.toLower, c ∉ opening := by
  intro c hc
  obtain ⟨c', hc', rfl⟩ := List.mem_map.mp hc
  exact toLower_not_mem_opening (hu c' hc')

theorem idle_arguments (t : ColumnType) : Idle (t.arguments .sqlite) := by
  have hnat : ∀ n : Nat, ∀ c ∈ (toString n).toList, c.isDigit = true := Sql.isDigit_toString
  intro c hc
  cases t with
  | varchar size =>
    simp only [ColumnType.arguments, List.cons_append, List.mem_cons, List.mem_append,
      List.not_mem_nil, or_false] at hc
    rcases hc with rfl | hc | rfl
    · exact .inr (by decide)
    · exact .inl (hnat size c hc)
    · exact .inr (by decide)
  | decimal precision scale =>
    simp only [ColumnType.arguments, List.cons_append, List.append_assoc, List.mem_cons,
      List.mem_append, List.not_mem_nil, or_false] at hc
    rcases hc with rfl | hc | rfl | hc | rfl
    · exact .inr (by decide)
    · exact .inl (hnat precision c hc)
    · exact .inr (by decide)
    · exact .inl (hnat scale c hc)
    · exact .inr (by decide)
  | _ => cases hc

theorem idle_integer (i : Int) : Idle (toString i).toList := by
  intro c hc
  cases i with
  | ofNat n => exact .inl (Sql.isDigit_toString n c hc)
  | negSucc n =>
    rw [DefaultValue.toList_negSucc] at hc
    rcases List.mem_cons.mp hc with rfl | hc
    · exact .inr (by decide)
    · exact .inl (Sql.isDigit_toString (n + 1) c hc)

/-- A type is written as one of the words, and then maybe its sizes. -/
theorem folded_type (t : ColumnType) : ∃ w ∈ typeWords, ∃ u : List Char, Idle u ∧
    (" " ++ t.native .sqlite).toList.map Char.toLower = w.toList ++ u.map Char.toLower := by
  have hword : (" " ++ t.keyword .sqlite).toList.map Char.toLower ∈
      typeWords.map String.toList := by
    cases t <;> simp only [ColumnType.keyword, ColumnType.native] <;> decide +kernel
  obtain ⟨w, hw, hchars⟩ := List.mem_map.mp hword
  refine ⟨w, hw, t.arguments .sqlite, idle_arguments t, ?_⟩
  rw [hchars, String.toList_append, String.toList_append, List.map_append, List.map_append,
    ColumnType.toList_native, List.map_append, List.append_assoc]

theorem folded_nullness (k : Column) : ∃ w ∈ nullWords,
    folded (if k.nullable then [] else [.word " NOT NULL"]) = w.toList := by
  cases k.nullable with
  | true => exact ⟨"", by decide, rfl⟩
  | false => exact ⟨" not null", by decide, by decide +kernel⟩

theorem folded_default (sql : Sql) :
    folded (.word " DEFAULT " :: sql) = " default ".toList ++ folded sql := by
  have hword : " DEFAULT ".toList.map Char.toLower = " default ".toList := by decide
  rw [folded_cons, chars_word, hword]

/-- The default clause without a text, by the word and the number that it is written with. -/
theorem folded_defaultClause {k : Column} (hk : ∀ value, k.default ≠ some (.text value)) :
    ∃ w ∈ defaultWords, ∃ u : List Char, Idle u ∧
      folded k.defaultClause = w.toList ++ u.map Char.toLower := by
  unfold defaultClause
  cases hdefault : k.default with
  | none => exact ⟨"", by decide, [], List.forall_mem_nil _, rfl⟩
  | some value =>
    cases value with
    | text value => exact (hk value hdefault).elim
    | bool value =>
      cases value with
      | true => exact ⟨" default true", by decide, [], List.forall_mem_nil _, by decide +kernel⟩
      | false => exact ⟨" default false", by decide, [], List.forall_mem_nil _, by decide +kernel⟩
    | integer i =>
      refine ⟨" default ", by decide, (toString i).toList, idle_integer i, ?_⟩
      rw [folded_default]
      simp [DefaultValue.sql]

/-- A default text stands between quotes. -/
theorem folded_defaultClause_text {k : Column} {value : String}
    (hk : k.default = some (.text value)) : folded k.defaultClause =
      " default ".toList ++ '\'' :: (double '\'' (value.toList.map Char.toLower) ++ ['\'']) := by
  simp only [defaultClause, hk, DefaultValue.sql, folded_cons, folded_nil,
    pieceChars, Piece.render, textValue, String.toList_ofList, enclose, List.cons_append,
    List.map_cons, List.map_append, double_toLower, List.append_nil]
  rfl

/-- What stands in front of a default clause, and that no mention begins there or in the clause, if
that has no text. -/
theorem folded_definition {k : Column} (hk : Name.Plain k.name) : ∃ front,
    folded (k.definition .sqlite) = front ++ folded k.defaultClause ∧
    ∀ v ∈ defaultWords, ∀ u, Idle u → ∀ last ∈ ["", " "],
      ¬ opening <:+: ' ' :: front ++ (v.toList ++ (u.map Char.toLower ++ last.toList)) := by
  obtain ⟨t, ht, sizes, hsizes, htype⟩ := folded_type k.type
  obtain ⟨w, hw, hnull⟩ := folded_nullness k
  refine ⟨'"' :: (k.name.toList ++ '"' :: (t.toList ++ (sizes.map Char.toLower ++ w.toList))),
    ?_, fun v hv u hu last hlast => ?_⟩
  · rw [definition, folded_append, folded_append, folded_name hk, folded_cons, chars_word, htype,
      folded_nil, hnull]
    simp
  · have hplain := opening_not_in_words t ht w hw v hv last hlast
    have hnumber : ¬ opening <:+: t.toList ++ (w.toList ++ (v.toList ++ (u.map Char.toLower ++
        last.toList))) := by
      rw [← List.append_assoc, ← List.append_assoc] at hplain ⊢
      exact Text.not_infix_insert hu.not_mem_opening hplain
    have hrest := Text.not_infix_insert hsizes.not_mem_opening hnumber
    simp only [List.cons_append, List.append_assoc]
    rw [← List.singleton_append, opening_around_name hk]
    rintro (hblank | hin)
    · exact absurd hblank (by decide)
    · exact hrest hin

variable {k : Column} {name last : String}

/-- Of a column with a default text the text is all that matters: it stands between two barriers,
and nothing is mentioned outside. -/
theorem mentions_definition_text (hname : Name.Plain name) (hk : Name.Plain k.name)
    (hlast : last ∈ ["", " "]) {value : String} (hvalue : k.default = some (.text value)) :
    Mentions name (' ' :: folded (k.definition .sqlite) ++ last.toList) ↔
      Mentions name (value.toList.map Char.toLower) := by
  obtain ⟨front, hdefinition, hfront⟩ := folded_definition hk
  have hbefore : ¬ Mentions name (' ' :: front ++ " default ".toList) := fun h => by
    refine hfront " default " (by decide) [] (List.forall_mem_nil _) "" (by decide) ?_
    simpa using opening_of_mentions hname h
  have hquote : isBarrier '\'' = true := rfl
  have hsplit : ' ' :: folded (k.definition .sqlite) ++ last.toList =
      (' ' :: front ++ " default ".toList) ++
        '\'' :: (double '\'' (value.toList.map Char.toLower) ++ '\'' :: last.toList) := by
    rw [hdefinition, folded_defaultClause_text hvalue]
    simp only [List.cons_append, List.append_assoc, List.nil_append]
  rw [hsplit, mentions_around hname hquote, mentions_around hname hquote, or_iff_right hbefore,
    or_iff_left (not_mentions_last hname hlast)]
  exact mentions_double hname [] _

theorem not_mentions_definition (hname : Name.Plain name) (hk : Name.Plain k.name)
    (hlast : last ∈ ["", " "]) (htext : ∀ value, k.default ≠ some (.text value)) :
    ¬ Mentions name (' ' :: folded (k.definition .sqlite) ++ last.toList) := by
  obtain ⟨front, hdefinition, hfront⟩ := folded_definition hk
  obtain ⟨v, hv, u, hu, hdefault⟩ := folded_defaultClause htext
  intro h
  refine hfront v hv u hu last hlast ?_
  rw [hdefinition, hdefault] at h
  simpa using opening_of_mentions hname h

/-- **A column mentions a constraint only in its default text.** -/
theorem mentions_definition (hname : Name.Plain name) (hk : Name.Plain k.name)
    (hlast : last ∈ ["", " "]) :
    Mentions name (' ' :: folded (k.definition .sqlite) ++ last.toList) ↔
      ∃ value, k.default = some (.text value) ∧
        Mentions name (value.toList.map Char.toLower) := by
  by_cases htext : ∃ value, k.default = some (.text value)
  · obtain ⟨value, hvalue⟩ := htext
    rw [mentions_definition_text hname hk hlast hvalue]
    simp only [hvalue, Option.some.injEq, DefaultValue.text.injEq, exists_eq_left']
  · push Not at htext
    refine iff_of_false (not_mentions_definition hname hk hlast htext) ?_
    rintro ⟨value, hvalue, -⟩
    exact htext value hvalue

end Column

/-! ## Keys -/

namespace Lookup
open Sql

variable {name : String} {a b text e : List Char}

theorem Mentions.mono (h : Mentions name text) {longer : List Char} (hin : text <:+: longer) :
    Mentions name longer := by
  obtain ⟨s, hs, hmem⟩ := h
  exact ⟨s, hs, hmem.trans hin⟩

/-- A list mentions a constraint if one of its parts does, as long as what follows the list makes
no difference behind any of them. -/
theorem mentions_listed (hname : Name.Plain name) {parts : List Sql} (hne : parts ≠ [])
    (last : String) (hlast : ∀ part ∈ parts, Mentions name (' ' :: folded part ++ last.toList) →
      Mentions name (' ' :: folded part)) :
    Mentions name (' ' :: folded (commaSeparated parts) ++ last.toList) ↔
      ∃ part ∈ parts, Mentions name (' ' :: folded part) := by
  fun_induction commaSeparated parts with
  | case1 => exact (hne rfl).elim
  | case2 part =>
    have hmem := List.mem_singleton_self part
    refine ⟨fun h => ⟨part, hmem, hlast part hmem h⟩, ?_⟩
    rintro ⟨part', hpart, h⟩
    cases List.mem_singleton.mp hpart
    exact h.mono (List.prefix_append _ _).isInfix
  | case3 part rest hrest ih =>
    have hsplit : ' ' :: folded (part ++ .word ", " :: commaSeparated rest) ++ last.toList =
        ' ' :: folded part ++ ',' :: (' ' :: folded (commaSeparated rest) ++ last.toList) := by
      rw [folded_append, folded_cons, chars_word]
      simp
    obtain ⟨hpart, hothers⟩ := List.forall_mem_cons.mp hlast
    rw [hsplit, mentions_around hname rfl, ih (by simpa using hrest) hothers]
    simp only [List.mem_cons, exists_eq_or_imp]

/-- A suffix without a character stands behind it. -/
theorem suffix_of_not_mem {s : List Char} {x : Char} (hx : x ∉ s) (h : s <:+ a ++ x :: b) :
    s <:+ b := by
  have hb : x :: b <:+ a ++ x :: b := List.suffix_append _ _
  rcases List.suffix_or_suffix_of_suffix h hb with hs | hs
  · rcases List.suffix_cons_iff.mp hs with rfl | hs
    · exact (hx List.mem_cons_self).elim
    · exact hs
  · exact (hx (hs.subset List.mem_cons_self)).elim

/-- Behind an opening and a quote follows an ending that begins with the quote. -/
theorem prefix_of_opening {y : List Char} (hy : ¬ opening <:+: y)
    (h : opening ++ e <:+: ' ' :: opening ++ '"' :: y) : e <+: '"' :: y := by
  obtain ⟨before, after, hchars⟩ := h
  have hstart : ∀ z, ' ' :: opening ≠ opening ++ z := by
    intro z h
    exact absurd (congrArg List.head? h) (by simp [opening])
  rw [← List.append_assoc, List.append_assoc (before ++ opening)] at hchars
  rcases List.append_eq_append_iff.mp hchars with ⟨z, hz, he⟩ | ⟨z, hz, he⟩
  · -- the opening stands within the first one, so it is that
    cases before with
    | nil => exact (hstart z hz).elim
    | cons c before =>
      have hlength := congrArg List.length hz
      simp only [List.cons_append, List.length_cons, List.length_append] at hlength
      have hnil : z = [] := List.length_eq_zero_iff.mp (by omega)
      exact ⟨after, by rw [he, hnil, List.nil_append]⟩
  · cases z with
    | nil => exact ⟨after, by simpa using he.symm⟩
    | cons c z =>
      -- the opening has no quote, so it stands behind the first one
      obtain ⟨rfl, rfl⟩ := List.cons.inj he
      have hsuffix : opening <:+ ' ' :: opening ++ '"' :: z := ⟨before, hz⟩
      have hbehind : opening <:+ z := suffix_of_not_mem (by decide) hsuffix
      exact (hy (hbehind.isInfix.trans (List.prefix_append z _).isInfix)).elim

/-- **A key mentions the constraint that it is called by, and no other.** -/
theorem mentions_key_front {key : String} (hname : Name.Plain name) (hkey : Name.Plain key) :
    Mentions name (' ' :: opening ++ '"' :: (key.toList ++ '"' :: " primary key ".toList)) ↔
      name = key := by
  have hquote : ∀ z : List Char, ∀ c ∈ ('"' :: z).head?, Name.isPart c = false := by
    intro z c hc
    cases hc
    rfl
  have hrest : ¬ opening <:+: key.toList ++ '"' :: " primary key ".toList := by
    rw [opening_behind_name hkey]
    decide
  rw [mentions_iff hname]
  constructor
  · rintro ⟨e, he, hin⟩
    obtain ⟨after, hchars⟩ := prefix_of_opening hrest hin
    simp only [endings, List.mem_cons, List.not_mem_nil, or_false] at he
    rcases he with rfl | rfl | rfl
    · simp only [enclose, List.cons_append, List.append_assoc, List.nil_append, List.cons.injEq,
        true_and] at hchars
      exact String.toList_inj.mp (span_legible hname hkey (hquote _) (hquote _) hchars).1
    · cases hchars
    · cases hn : name.toList with
      | nil =>
        rw [hn] at hchars
        cases hchars
      | cons c rest =>
        rw [hn, List.cons_append, List.cons_append] at hchars
        obtain ⟨rfl, -⟩ := List.cons.inj hchars
        exact (Bool.false_ne_true (hname '"' (hn ▸ List.mem_cons_self))).elim
  · rintro rfl
    refine ⟨enclose '"' name.toList, List.mem_cons_self, [' '], " primary key ".toList, ?_⟩
    simp [enclose]

end Lookup

namespace PrimaryKey
open Lookup Sql

/-- The names of columns mention no constraint. -/
theorem not_mentions_columns {name : String} {columns : List String} (hname : Name.Plain name)
    (hcolumns : ∀ k ∈ columns, Name.Plain k) :
    ¬ Mentions name (folded (commaSeparated (columns.map fun k => [.name k]))) := by
  intro h
  by_cases hne : columns.map (fun k => [Piece.name k]) = []
  · rw [hne] at h
    exact not_mentions_nil hname h
  have hlisted := mentions_listed hname hne "" fun part _ hpart => by simpa using hpart
  have hmention : Mentions name
      (' ' :: folded (commaSeparated (columns.map fun k => [.name k])) ++ "".toList) :=
    h.mono ⟨[' '], [], by simp⟩
  obtain ⟨part, hpart, hin⟩ := hlisted.mp hmention
  obtain ⟨k, hk, rfl⟩ := List.mem_map.mp hpart
  have hopening := opening_of_mentions hname hin
  rw [folded_name (hcolumns k hk), ← List.singleton_append,
    opening_around_name (hcolumns k hk)] at hopening
  rcases hopening with hblank | hnil
  · exact absurd hblank (by decide)
  · exact absurd hnil (by decide)

/-- **A key mentions the constraint that it is called by, and no other.** -/
theorem mentions_definition {key : PrimaryKey} {name last : String} (hname : Name.Plain name)
    (hkey : Name.Plain key.name) (hcolumns : ∀ k ∈ key.columns, Name.Plain k)
    (hlast : last ∈ ["", " "]) :
    Mentions name (' ' :: folded (key.definition .sqlite) ++ last.toList) ↔ name = key.name := by
  have hopening : (PrimaryKey.opening .sqlite).toList.map Char.toLower = Lookup.opening := by
    decide
  have hmiddle : (middle .sqlite).toList.map Char.toLower = " primary key ".toList := by decide
  have hsplit : ' ' :: folded (key.definition .sqlite) ++ last.toList =
      (' ' :: Lookup.opening ++ '"' :: (key.name.toList ++ '"' :: " primary key ".toList)) ++
        '(' :: (folded (commaSeparated (key.columns.map fun k => [.name k])) ++
          ')' :: last.toList) := by
    rw [definition_eq, folded_append, folded_cons, folded_plainName hkey, folded_cons, chars_word,
      chars_word, hopening, hmiddle, columnList, folded_append, folded_cons]
    simp
  rw [hsplit, mentions_around (x := '(') hname rfl, mentions_around (x := ')') hname rfl,
    mentions_key_front hname hkey]
  exact or_iff_left fun h =>
    h.elim (not_mentions_columns hname hcolumns) (not_mentions_last hname hlast)

end PrimaryKey

/-! ## Tables -/

namespace Statement
open Lookup Sql

variable {table name : String} {columns : List Column} {key : Option PrimaryKey}

/-- What is written of a new table: its columns and its key, in parentheses. -/
theorem folded_createTable (htable : Name.Plain table) :
    ((createTable table columns key).text .sqlite).toList.map Char.toLower =
      ("create table ".toList ++ '"' :: (table.toList ++ '"' :: [' '])) ++
        '(' :: ((' ' :: folded (commaSeparated (columns.map (·.definition .sqlite) ++
          key.toList.map (·.definition .sqlite))) ++ " ".toList) ++ ')' :: []) := by
  have hcreate : "CREATE TABLE ".toList.map Char.toLower = "create table ".toList := by decide
  have hopen : " ( ".toList.map Char.toLower = [' ', '(', ' '] := by decide
  have hclose : " )".toList.map Char.toLower = [' ', ')'] := by decide
  rw [text, toList_render]
  change folded ([.word "CREATE TABLE ", .name table, .word " ( "] ++ commaSeparated
    (columns.map (·.definition .sqlite) ++ key.toList.map (·.definition .sqlite)) ++
    [.word " )"]) = _
  rw [folded_append, folded_append, folded_cons, folded_name htable, folded_cons, folded_cons,
    chars_word, chars_word, chars_word, hcreate, hopen, hclose]
  simp

theorem not_mentions_front (hname : Name.Plain name) (htable : Name.Plain table) :
    ¬ Mentions name ("create table ".toList ++ '"' :: (table.toList ++ '"' :: [' '])) := by
  intro h
  have hopening := opening_of_mentions hname h
  rw [opening_around_name htable] at hopening
  rcases hopening with hwords | hblank
  · exact absurd hwords (by decide)
  · exact absurd hblank (by decide)

/-- The parts of a table mention what its columns and its key mention. -/
theorem mentions_parts (hname : Name.Plain name) (hne : columns ≠ [])
    (hcolumns : ∀ k ∈ columns, Name.Plain k.name)
    (hkey : ∀ k ∈ key, Name.Plain k.name ∧ ∀ n ∈ k.columns, Name.Plain n) :
    Mentions name (' ' :: folded (commaSeparated (columns.map (·.definition .sqlite) ++
        key.toList.map (·.definition .sqlite))) ++ " ".toList) ↔
      (∃ k ∈ key, name = k.name) ∨ ∃ k ∈ columns, ∃ value, k.default = some (.text value) ∧
        Mentions name (value.toList.map Char.toLower) := by
  have hcolumn : ∀ k ∈ columns, ∀ last ∈ ["", " "],
      (Mentions name (' ' :: folded (k.definition .sqlite) ++ last.toList) ↔
        ∃ value, k.default = some (.text value) ∧
          Mentions name (value.toList.map Char.toLower)) := fun k hk last hlast =>
    Column.mentions_definition hname (hcolumns k hk) hlast
  have hkeys : ∀ k ∈ key, ∀ last ∈ ["", " "],
      (Mentions name (' ' :: folded (k.definition .sqlite) ++ last.toList) ↔ name = k.name) :=
    fun k hk last hlast =>
      PrimaryKey.mentions_definition hname (hkey k hk).1 (hkey k hk).2 hlast
  -- the blank behind the last part makes no difference
  have hlast : ∀ part ∈ columns.map (·.definition .sqlite) ++ key.toList.map (·.definition .sqlite),
      Mentions name (' ' :: folded part ++ " ".toList) → Mentions name (' ' :: folded part) := by
    intro part hpart h
    rcases List.mem_append.mp hpart with hpart | hpart
    · obtain ⟨k, hk, rfl⟩ := List.mem_map.mp hpart
      simpa using (hcolumn k hk "" (by decide)).mpr ((hcolumn k hk " " (by decide)).mp h)
    · obtain ⟨k, hk, rfl⟩ := List.mem_map.mp hpart
      rw [Option.mem_toList] at hk
      simpa using (hkeys k hk "" (by decide)).mpr ((hkeys k hk " " (by decide)).mp h)
  rw [mentions_listed hname (List.append_ne_nil_of_left_ne_nil (by simpa using hne) _) " " hlast]
  simp only [List.mem_append, List.mem_map, Option.mem_toList, or_and_right, exists_or,
    exists_exists_and_eq_and]
  rw [or_comm]
  refine or_congr (exists_congr fun k => and_congr_right fun hk => ?_)
    (exists_congr fun k => and_congr_right fun hk => ?_)
  · simpa using hkeys k hk "" (by decide)
  · simpa using hcolumn k hk "" (by decide)

/-- **What is mentioned in the text of a new table**: the constraint that its key is called by, and
what the default texts of its columns mention. -/
theorem mentions_createTable (hname : Name.Plain name) (htable : Name.Plain table)
    (hne : columns ≠ []) (hcolumns : ∀ k ∈ columns, Name.Plain k.name)
    (hkey : ∀ k ∈ key, Name.Plain k.name ∧ ∀ n ∈ k.columns, Name.Plain n) :
    Mentions name (((createTable table columns key).text .sqlite).toList.map Char.toLower) ↔
      (∃ k ∈ key, name = k.name) ∨ ∃ k ∈ columns, ∃ value, k.default = some (.text value) ∧
        Mentions name (value.toList.map Char.toLower) := by
  rw [folded_createTable htable, mentions_around (x := '(') hname rfl,
    mentions_around (x := ')') hname rfl, or_iff_right (not_mentions_front hname htable),
    or_iff_left (not_mentions_nil hname)]
  exact mentions_parts hname hne hcolumns hkey

end Statement

end SchemaMigration
