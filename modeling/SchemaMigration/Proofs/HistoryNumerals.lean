import Mathlib.Data.Nat.Digits.Defs
import SchemaMigration.Proofs.Escapes
import SchemaMigration.Proofs.HistoryRows
import SchemaMigration.Proofs.Quotation

/-!
# Numerals in the history

A version is recorded as a text and read back from one.  Which texts are read is said here without
the reader: blanks, a plus sign or none, digits, and blanks, as long as the number is in range
(`Version.Spells`).  The reader accepts these and nothing else (`Version.read_eq_ok_iff`).

So a history is read exactly if all of its rows spell versions, as the set of those, and otherwise
its first row that does not is blamed; and what is recorded spells the version that was completed
(`history_exact`).
-/
namespace SchemaMigration

namespace Text

/-- Trimming takes blanks off the two ends and nothing else. -/
theorem exists_trim (s : List Char) : ∃ before after, s = before ++ trim s ++ after ∧
    ∀ c ∈ before ++ after, isBlank c = true := by
  have hback := List.takeWhile_append_dropWhile (p := isBlank) (l := (s.dropWhile isBlank).reverse)
  refine ⟨s.takeWhile isBlank, ((s.dropWhile isBlank).reverse.takeWhile isBlank).reverse, ?_, ?_⟩
  · rw [trim, List.append_assoc, ← List.reverse_append, hback, List.reverse_reverse,
      List.takeWhile_append_dropWhile]
  · intro c hc
    rcases List.mem_append.mp hc with hc | hc
    · exact List.mem_takeWhile_imp hc
    · exact List.mem_takeWhile_imp (List.mem_reverse.mp hc)

theorem dropWhile_blanks {before s : List Char} (hbefore : ∀ c ∈ before, isBlank c = true)
    (hs : ∀ c ∈ s.head?, isBlank c = false) : (before ++ s).dropWhile isBlank = s := by
  rw [List.dropWhile_append_of_pos hbefore]
  cases s with
  | nil => rfl
  | cons c s => exact List.dropWhile_cons_of_neg (by simp [hs c rfl])

/-- What is no blank is all that is left of a text with blanks around it. -/
theorem trim_blanks {before s after : List Char} (hblank : ∀ c ∈ before ++ after, isBlank c = true)
    (hne : s ≠ []) (hs : ∀ c ∈ s, isBlank c = false) : trim (before ++ s ++ after) = s := by
  have hhead : ∀ c ∈ (s ++ after).head?, isBlank c = false := by
    intro c hc
    rw [List.head?_append_of_ne_nil _ hne] at hc
    exact hs c (List.mem_of_mem_head? hc)
  have hlast : ∀ c ∈ s.reverse.head?, isBlank c = false := fun c hc =>
    hs c (List.mem_reverse.mp (List.mem_of_mem_head? hc))
  rw [trim, List.append_assoc,
    dropWhile_blanks (fun c hc => hblank c (List.mem_append_left _ hc)) hhead, List.reverse_append,
    dropWhile_blanks (fun c hc => hblank c (List.mem_append_right _ (List.mem_reverse.mp hc)))
      hlast, List.reverse_reverse]

end Text

namespace Version

/-- The characters are digits, with a plus sign in front or not, and stand for the number. -/
def Numeral (s : List Char) (n : Nat) : Prop :=
  ∃ sign digits, s = sign ++ digits ∧ (sign = [] ∨ sign = ['+']) ∧ digits ≠ [] ∧
    (∀ c ∈ digits, c.isDigit = true) ∧ Nat.ofDigitChars 10 digits 0 = n

/-- The text is a numeral of the number, with blanks around it or not. -/
def Spells (row : String) (n : Nat) : Prop :=
  ∃ before s after, row.toList = before ++ s ++ after ∧
    (∀ c ∈ before ++ after, Text.isBlank c = true) ∧ Numeral s n

/-- The text spells a number in the range of versions. -/
def SpellsAny (row : String) : Prop :=
  ∃ n < 2 ^ 64, Spells row n

variable {l : List Char} {row : String} {v : Version}

/-- Digits are read as the number that they stand for, and nothing else is. -/
theorem readDigits_eq_ok_iff {sofar : Version} : readDigits sofar l = .ok v ↔
    (∀ c ∈ l, c.isDigit = true) ∧ Nat.ofDigitChars 10 l sofar.number = v.number := by
  refine ⟨fun h => ?_, fun ⟨hl, hv⟩ => readDigits_eq_ok hl sofar v hv⟩
  induction l generalizing sofar with
  | nil =>
    cases h
    exact ⟨fun _ hc => (List.not_mem_nil hc).elim, Nat.ofDigitChars_nil⟩
  | cons c l ih =>
    rw [readDigits] at h
    split at h
    · next hdigit =>
      simp only at h
      split at h
      · obtain ⟨hl, hv⟩ := ih h
        refine ⟨List.forall_mem_cons.mpr ⟨hdigit, hl⟩, ?_⟩
        rw [Nat.ofDigitChars_cons, Nat.mul_comm]
        exact hv
      · cases h
    · cases h

theorem readNumeral_plus {digits : List Char} (hne : digits ≠ []) :
    readNumeral ('+' :: digits) = readDigits zero digits := by
  cases digits with
  | nil => exact (hne rfl).elim
  | cons c digits => rfl

theorem readNumeral_eq_ok_iff : readNumeral l = .ok v ↔ Numeral l v.number := by
  constructor
  · intro h
    unfold readNumeral at h
    split at h
    · cases h
    · cases h
    · next digits hne =>
      obtain ⟨hdigits, hv⟩ := readDigits_eq_ok_iff.mp h
      exact ⟨['+'], digits, rfl, .inr rfl, fun hnil => hne (by rw [hnil]), hdigits, hv⟩
    · next hne _ _ =>
      obtain ⟨hdigits, hv⟩ := readDigits_eq_ok_iff.mp h
      exact ⟨[], l, rfl, .inl rfl, fun hnil => hne hnil, hdigits, hv⟩
  · rintro ⟨sign, digits, rfl, rfl | rfl, hne, hdigits, hv⟩
    · rw [List.nil_append, readNumeral_eq_readDigits hne hdigits]
      exact readDigits_eq_ok_iff.mpr ⟨hdigits, hv⟩
    · rw [List.singleton_append, readNumeral_plus hne]
      exact readDigits_eq_ok_iff.mpr ⟨hdigits, hv⟩

theorem Numeral.not_blank {n : Nat} (h : Numeral l n) :
    l ≠ [] ∧ ∀ c ∈ l, Text.isBlank c = false := by
  obtain ⟨sign, digits, rfl, hsign, hne, hdigits, -⟩ := h
  refine ⟨List.append_ne_nil_of_right_ne_nil _ hne, fun c hc => ?_⟩
  rcases List.mem_append.mp hc with hc | hc
  · rcases hsign with rfl | rfl
    · exact (List.not_mem_nil hc).elim
    · cases List.mem_singleton.mp hc
      rfl
  · exact isBlank_of_isDigit (hdigits c hc)

/-- **A text is read as a version exactly if it spells it.** -/
theorem read_eq_ok_iff : read row = .ok v ↔ Spells row v.number := by
  rw [read, readNumeral_eq_ok_iff]
  constructor
  · intro h
    obtain ⟨before, after, hrow, hblank⟩ := Text.exists_trim row.toList
    exact ⟨before, _, after, hrow, hblank, h⟩
  · rintro ⟨before, s, after, hrow, hblank, h⟩
    rw [hrow, Text.trim_blanks hblank h.not_blank.1 h.not_blank.2]
    exact h

theorem spellsAny_iff : SpellsAny row ↔ ∃ v, read row = .ok v := by
  constructor
  · rintro ⟨n, hn, h⟩
    exact ⟨⟨n, hn⟩, read_eq_ok_iff.mpr h⟩
  · rintro ⟨v, h⟩
    exact ⟨v.number, v.inRange, read_eq_ok_iff.mp h⟩

theorem isDigit_text (v : Version) : ∀ c ∈ v.text.toList, c.isDigit = true := by
  rw [text, Nat.toString_eq_repr, Nat.toList_repr]
  exact fun c hc => Nat.isDigit_of_mem_toDigits (by decide) (by decide) hc

/-- The text of a version has twenty characters at most. -/
theorem length_text_le (v : Version) : v.text.length ≤ 20 := by
  rw [← String.length_toList, text, Nat.toString_eq_repr, Nat.toList_repr]
  exact Nat.toDigits_length 10 v.number 20 (by decide) (Nat.lt_trans v.inRange (by decide))

end Version

/-! ## Reading rows -/

namespace History

variable {table : String} {rows : List String}

/-- Rows are read if each of them spells a version.  Otherwise the first that does not is blamed. -/
theorem readRows_cases (table : String) (rows : List String) :
    (∃ vs, readRows table rows = .ok vs ∧ (∀ row ∈ rows, Version.SpellsAny row) ∧
      ∀ v, v ∈ vs ↔ ∃ row ∈ rows, Version.Spells row v.number) ∨
    ∃ before row after flaw, rows = before ++ row :: after ∧
      (∀ b ∈ before, Version.SpellsAny b) ∧ ¬ Version.SpellsAny row ∧
      readRows table rows = .error (.invalidHistory (.unreadable table row flaw)) := by
  induction rows with
  | nil => exact .inl ⟨[], rfl, by simp, by simp⟩
  | cons row rest ih =>
    rw [readRows]
    cases hread : Version.read row with
    | error flaw =>
      refine .inr ⟨[], row, rest, flaw, rfl, by simp, fun hany => ?_, rfl⟩
      obtain ⟨v, hv⟩ := Version.spellsAny_iff.mp hany
      rw [hread] at hv
      cases hv
    | ok v =>
      have hany : Version.SpellsAny row := Version.spellsAny_iff.mpr ⟨v, hread⟩
      have hspells : ∀ u : Version, Version.Spells row u.number ↔ u = v := fun u => by
        rw [← Version.read_eq_ok_iff, hread, Except.ok.injEq, eq_comm]
      rcases ih with ⟨vs, hvs, hall, hmem⟩ | ⟨before, bad, after, flaw, rfl, hbefore, hbad, he⟩
      · refine .inl ⟨v :: vs, by rw [hvs]; rfl, List.forall_mem_cons.mpr ⟨hany, hall⟩, fun u => ?_⟩
        simp only [List.mem_cons, exists_eq_or_imp, hmem, hspells]
      · exact .inr ⟨row :: before, bad, after, flaw, rfl,
          List.forall_mem_cons.mpr ⟨hany, hbefore⟩, hbad, by rw [he]; rfl⟩

/-- What the rows of a history table are read as. -/
structure ReadsRows (table : String) (rows : List String) (r : Except MigrationError VersionSet) :
    Prop where
  /-- There is a result exactly if every row spells a version. -/
  succeeds : (∃ s, r = .ok s) ↔ ∀ row ∈ rows, Version.SpellsAny row
  /-- It is the set of the versions that are spelled. -/
  members : ∀ s, r = .ok s → ∀ v, v ∈ s ↔ ∃ row ∈ rows, Version.Spells row v.number
  /-- Otherwise the first row that spells none is quoted. -/
  fails : ∀ e, r = .error e → ∃ before row after flaw, rows = before ++ row :: after ∧
    (∀ b ∈ before, Version.SpellsAny b) ∧ ¬ Version.SpellsAny row ∧
    e = .invalidHistory (.unreadable table row flaw) ∧
    e.message = "invalid history record: " ++ ("table '" ++ table ++ "': version '" ++ row ++
      "' is not a version number: " ++ flaw.message)

theorem readRows_reads (table : String) (rows : List String) :
    ReadsRows table rows ((readRows table rows).map VersionSet.ofList) := by
  rcases readRows_cases table rows with ⟨vs, hvs, hall, hmem⟩ | ⟨before, row, after, flaw, hrows,
    hbefore, hbad, he⟩
  · rw [hvs]
    refine ⟨iff_of_true ⟨_, rfl⟩ hall, ?_, nofun⟩
    rintro s ⟨⟩ v
    rw [VersionSet.mem_ofList, hmem]
  · rw [he]
    refine ⟨iff_of_false nofun fun hall => ?_, nofun, ?_⟩
    · exact hbad (hall row (by rw [hrows]; simp))
    · intro e herror
      have hquoted : MigrationError.invalidHistory (.unreadable table row flaw) = e :=
        Except.error.inj herror
      exact ⟨before, row, after, flaw, hrows, hbefore, hbad, hquoted.symm, hquoted ▸ rfl⟩

/-- The order of the rows does not matter, nor how often and in which way a version is spelled. -/
theorem ReadsRows.eq_of_spelled {others : List String} {s t : VersionSet}
    (hs : ReadsRows table rows (.ok s)) (ht : ReadsRows table others (.ok t))
    (h : ∀ n, (∃ row ∈ rows, Version.Spells row n) ↔ ∃ row ∈ others, Version.Spells row n) :
    s = t :=
  VersionSet.ext fun v => by rw [hs.members s rfl, ht.members t rfl, h]

/-- The history table is there, and these are its rows. -/
def Stores {σ : Type} (srv : Server σ) (table : String) (s : σ) (rows : List String) : Prop :=
  ∃ n s', srv.count (.object (.table table)) s = (.ok n, s') ∧ 0 < n ∧
    (srv.list (.completedVersions table) s').1 = .ok rows

/-- **The completed versions are what the rows are read as.** -/
theorem completed_readsRows {σ : Type} {srv : Server σ} {w : World σ}
    (hrows : Stores srv table w.server rows) (span : Option Span) :
    ReadsRows table rows (World.outcome ((completed table).run srv span w)) := by
  obtain ⟨n, s', hcount, hn, hlist⟩ := hrows
  obtain ⟨xs, r, w', hrun, hpath, -⟩ := (completed table).run_performs srv span w
  have hgives := hrun.leads.gives
  rw [hrun.eq, World.outcome_ended]
  -- the answers of the server leave one of the ways in which reading can go
  cases completed_reading.mp hpath with
  | unanswered e => simp [Server.Gives, Server.reply, Exchange.entry, hcount] at hgives
  | @absent m hm =>
    obtain rfl : n = m := by simpa [Server.Gives, Server.reply, Exchange.entry, hcount] using hgives
    omega
  | unread hm e =>
    simp [Server.Gives, Server.reply, Server.next, Exchange.entry, hcount, hlist] at hgives
  | read hm l =>
    obtain ⟨-, rfl⟩ : n = _ ∧ rows = l := by
      simpa [Server.Gives, Server.reply, Server.next, Exchange.entry, hcount, hlist] using hgives
    exact readRows_reads table rows

/-! ## Recording -/

/-- Digits need no escapes, so as a default value they are written like any other string. -/
theorem textValue_digits {d : Dialect} {s : String} (h : ∀ c ∈ s.toList, c.isDigit = true) :
    Sql.textValue d s = Sql.literal d s := by
  have hplain : ∀ {c}, c ∈ s.toList → c ≠ '\'' ∧ c ≠ '\\' := by
    intro c hc
    constructor <;> rintro rfl <;> cases h _ hc
  have hquote : '\'' ∉ s.toList := fun hc => (hplain hc).1 rfl
  have hslash : '\\' ∉ s.toList := fun hc => (hplain hc).2 rfl
  have hself : ∀ unit : Char → List Char, (∀ c, c.isDigit = true → unit c = [c]) →
      s.toList.flatMap unit = s.toList := fun unit hunit => by
    rw [List.flatMap_congr fun c hc => hunit c (h c hc), List.flatMap_singleton']
  cases d with
  | sqlite => rfl
  | mysql =>
    have hdigit : ∀ c : Char, c.isDigit = true → Sql.escapeMySql c = [c] := by
      intro c hc
      unfold Sql.escapeMySql
      split <;> first | rfl | cases hc
    simp only [Sql.textValue, Sql.literal, Sql.escapeLiteral, hself _ hdigit,
      Sql.double_eq_self hquote, Sql.double_eq_self hslash]
  | postgres =>
    simp only [Sql.textValue, Sql.literal, Sql.escapeLiteral,
      hself _ fun c hc => Sql.escapePostgres_digit hc, if_neg hslash, Sql.double_eq_self hquote]

/-- The statement that records a version, as it is read: one row with the text of the version. -/
def recordTokens (table : String) (v : Version) : List Sql.Token :=
  [.word "INSERT", .word "INTO", .name table] ++
    Sql.columnTokens [versionColumn, statusColumn, completedAtColumn] ++
    [.word "VALUES", .symbol '(', .string v.text, .symbol ',', .string succeeded, .symbol ',',
      .symbol '<', .word "now", .symbol '>', .symbol ')']

/-- What stands between the table and the version, which is the same for every version. -/
def recordColumns (d : Dialect) : String :=
  Sql.render d (.word " " :: Sql.columnList [versionColumn, statusColumn, completedAtColumn] ++
    [.word " VALUES ("])

/-- What stands behind the version. -/
def recordRest (d : Dialect) : String :=
  Sql.render d [.word ", ", .value succeeded, .word ", <now>)"]

theorem recordVersion_text (d : Dialect) (table : String) (v : Version) :
    (Statement.recordVersion table v).text d = Sql.render d [.word "INSERT INTO ", .name table,
      .word (recordColumns d), .literal v.text, .word (recordRest d)] := by
  simp [Statement.text, Statement.pieces, recordColumns, recordRest, Piece.render,
    textValue_digits v.isDigit_text, String.append_assoc]

/-- **The record of a version is read as its text**, whatever the table is called. -/
theorem recordVersion_reads (d : Dialect) (table : String) (v : Version) :
    Sql.lex d ((Statement.recordVersion table v).text d) = some (recordTokens table v) := by
  have hinto : Sql.lex d "INSERT INTO " = some [.word "INSERT", .word "INTO"] ∧
      Sql.after d "INSERT INTO " = .between := by cases d <;> decide +kernel
  have hcolumns : Sql.lex d (recordColumns d) =
        some (Sql.columnTokens [versionColumn, statusColumn, completedAtColumn] ++
          [.word "VALUES", .symbol '(']) ∧
      Sql.after d (recordColumns d) = .between := by cases d <;> decide +kernel
  have hrest : Sql.lex d (recordRest d) = some [.symbol ',', .string succeeded, .symbol ',',
        .symbol '<', .word "now", .symbol '>', .symbol ')'] ∧
      (recordRest d).toList.head? ≠ some '\'' := by cases d <;> decide +kernel
  rw [recordVersion_text, Sql.lex_word hinto,
    Sql.lex_name_word _ (by cases d <;> decide +kernel), Sql.lex_word hcolumns, Sql.render_cons,
    Sql.render_cons, Sql.render_nil, String.append_empty, Piece.render, Piece.render,
    Sql.lex_literal_append _ hrest.2, hrest.1]
  rfl

/-! ## The round trip -/

/-- Versions survive being recorded and read. -/
structure Exact (table : String) : Prop where
  /-- The rows of the history table decide what the completed versions are. -/
  reads : ∀ {σ : Type} (srv : Server σ) (span : Option Span) (w : World σ) (rows : List String),
    Stores srv table w.server rows →
      ReadsRows table rows (World.outcome ((completed table).run srv span w))
  /-- Rows that spell the same numbers have the same result. -/
  spelled : ∀ {rows others : List String} {s t : VersionSet}, ReadsRows table rows (.ok s) →
    ReadsRows table others (.ok t) →
    (∀ n, (∃ row ∈ rows, Version.Spells row n) ↔ ∃ row ∈ others, Version.Spells row n) → s = t
  /-- To record a version, one statement is sent, which stores the text of the version. -/
  records : ∀ {σ : Type} (d : Dialect) (srv : Server σ) (span : Option Span) (w : World σ)
    (v : Version), Sql.lex d ((Statement.recordVersion table v).text d) =
        some (recordTokens table v) ∧
      srv.exchanges w (World.leftBy ((record table v).run srv span w)) =
        [.execute (.recordVersion table v) (srv.execute (.recordVersion table v) w.server).1]
  /-- This text is read as that version, and no other version has it. -/
  text : ∀ v, Version.read v.text = .ok v ∧ ∀ u : Version, u.text = v.text → u = v
  /-- It fits into the column that it is stored in. -/
  fits : ∃ k ∈ (History.table table).columns, k.name = versionColumn ∧ k.type = .varchar 40 ∧
    ∀ v : Version, v.text.length ≤ 20

end History

/-- **The history is read exactly, and versions survive the round trip through it.** -/
theorem history_exact (table : String) : History.Exact table where
  reads srv span w rows hrows := History.completed_readsRows hrows span
  spelled hs ht h := hs.eq_of_spelled ht h
  records d srv span w v := by
    refine ⟨History.recordVersion_reads d table v, ?_⟩
    obtain ⟨xs, r, w', hrun, hpath, -⟩ := (History.record table v).run_performs srv span w
    obtain ⟨a, rfl, -⟩ := Program.Path.of_send hpath
    have hanswer := hrun.leads.gives.1
    rw [hrun.eq, World.leftBy_ended, hrun.leads.exchanges]
    cases hanswer
    rfl
  text v := ⟨v.read_text, fun _ => Version.text_injective⟩
  fits := ⟨_, List.mem_cons_self, rfl, rfl, Version.length_text_le⟩

end SchemaMigration
