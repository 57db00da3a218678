import SchemaMigration.Proofs.Legible

/-!
# Columns can be told

The definition of a column in a new table tells the column (`Column.definition_legible`), and so
does the change of an existing one (`Column.alteration_legible`), but for a default value that is
read like another one (`Column.asRead`).  Columns that are read alike are written alike.
-/
namespace SchemaMigration

variable {d : Dialect}

/-! ## Definitions of columns -/

namespace Column

/-- The column with its default value as it is read from a statement. -/
def asRead (d : Dialect) (c : Column) : Column :=
  { c with default := c.default.map (·.asRead d) }

theorem asRead_eq {c c' : Column} (hname : c.name = c'.name) (htype : c.type = c'.type)
    (hnull : c.nullable = c'.nullable)
    (hdefault : c.default.map (·.asRead d) = c'.default.map (·.asRead d)) :
    c.asRead d = c'.asRead d := by
  cases c
  cases c'
  rw [asRead, asRead, mk.injEq]
  exact ⟨hname, htype, hnull, hdefault⟩

/-- What may follow a definition: nothing, a comma, or a closing parenthesis behind a blank. -/
def Ends (x : List Char) : Prop :=
  Sql.Apart x ∧ ∀ c z, x = ' ' :: c :: z → c = ')'

theorem native_legible (front : String) :
    Sql.Legible d (fun c : Column => [.word (front ++ c.type.native d)]) type Sql.Apart := by
  intro c c' x y hx hy h
  simp only [Sql.chars_cons, Sql.chars_nil, Sql.chars_word, String.toList_append, List.append_nil,
    List.append_assoc] at h
  exact ColumnType.native_legible hx hy (List.append_cancel_left h)

theorem defaultClause_some {c : Column} {v : DefaultValue} (hv : c.default = some v)
    (x : List Char) : Sql.chars d c.defaultClause ++ x =
      ' ' :: 'D' :: ("EFAULT ".toList ++ (Sql.chars d v.sql ++ x)) := by
  simp [defaultClause, hv]

theorem defaultClause_none {c : Column} (hc : c.default = none)
    (x : List Char) : Sql.chars d c.defaultClause ++ x = x := by
  simp [defaultClause, hc]

/-- A default clause can be told from none, and so can its value. -/
theorem defaultClause_legible :
    Sql.Legible d defaultClause (fun c => c.default.map (·.asRead d)) Ends := by
  intro c c' x y hx hy h
  cases hc : c.default with
  | none =>
    cases hc' : c'.default with
    | none =>
      rw [defaultClause_none hc, defaultClause_none hc'] at h
      exact ⟨by simp only [hc, hc'], h⟩
    | some v' =>
      rw [defaultClause_none hc, defaultClause_some hc'] at h
      cases hx.2 _ _ h
  | some v =>
    rw [defaultClause_some hc] at h
    cases hc' : c'.default with
    | none =>
      rw [defaultClause_none hc'] at h
      cases hy.2 _ _ h.symm
    | some v' =>
      rw [defaultClause_some hc'] at h
      obtain ⟨hread, hxy⟩ := DefaultValue.sql_legible hx.1 hy.1
        (List.append_cancel_left (List.cons.inj (List.cons.inj h).2).2)
      exact ⟨by simp only [hc, hc', Option.map_some, hread], hxy⟩

theorem nullness_legible :
    Sql.Legible d (fun c : Column => if c.nullable then [] else [.word " NOT NULL"]) nullable
      fun x => ∀ z, x ≠ ' ' :: 'N' :: z := by
  intro c c' x y hx hy h
  cases hc : c.nullable <;> cases hc' : c'.nullable <;> simp [hc, hc'] at h
  · exact ⟨rfl, h⟩
  · exact (hy _ h.symm).elim
  · exact (hx _ h).elim
  · exact ⟨rfl, h⟩

theorem not_null_defaultClause (c : Column) {x : List Char} (hx : Ends x) :
    ∀ z, Sql.chars d c.defaultClause ++ x ≠ ' ' :: 'N' :: z := by
  intro z h
  cases hc : c.default with
  | none =>
    rw [defaultClause_none hc] at h
    cases hx.2 _ _ h
  | some v =>
    rw [defaultClause_some hc] at h
    cases (List.cons.inj (List.cons.inj h).2).1

theorem apart_attributes (c : Column) {x : List Char} (hx : Ends x) :
    Sql.Apart (Sql.chars d ((if c.nullable then [] else [.word " NOT NULL"]) ++ c.defaultClause) ++
      x) := by
  intro a ha
  cases hnull : c.nullable with
  | false =>
    simp [hnull] at ha
    exact .inl ha.symm
  | true =>
    simp only [hnull, if_true, List.nil_append] at ha
    cases hc : c.default with
    | none => exact hx.1 a (by rwa [defaultClause_none hc] at ha)
    | some v =>
      rw [defaultClause_some hc] at ha
      cases ha
      exact .inl rfl

/-- **The definition of a column tells the column.** -/
theorem definition_legible :
    Sql.Legible d (fun c : Column => c.definition d) (asRead d) Ends := by
  have hattributes := nullness_legible.append (d := d) defaultClause_legible
    fun c x hx => not_null_defaultClause c hx
  have htype := (native_legible (d := d) " ").append hattributes fun c x hx => apart_attributes c hx
  have hname := (Sql.names_legible (d := d) Column.name).append htype fun c x hx => by
    cases d <;> simp [Dialect.nameQuote]
  intro c c' x y hx hy h
  obtain ⟨hview, hxy⟩ := hname hx hy (by simpa [definition] using h)
  simp only [Prod.mk.injEq] at hview
  obtain ⟨hname, htype, hnull, hdefault⟩ := hview
  exact ⟨asRead_eq hname htype hnull hdefault, hxy⟩

end Column

/-! ## Changes of columns -/

namespace Column

/-- The last clause of an alteration on PostgreSQL. -/
def defaultAlteration (c : Column) : Sql :=
  match c.default with
  | some value =>
    [.word ", ", .word "ALTER COLUMN ", .name c.name, .word " SET DEFAULT "] ++ value.sql
  | none => []

theorem alteration_postgres (c : Column) : c.alteration .postgres =
    [.word "ALTER COLUMN "] ++ ([.name c.name] ++ ([.word (" TYPE " ++ c.type.native .postgres)] ++
      ([.word ", ", .word "ALTER COLUMN "] ++ ([.name c.name] ++
        ([.word (if c.nullable then " DROP NOT NULL" else " SET NOT NULL")] ++
          c.defaultAlteration))))) := by
  cases hc : c.default <;> simp [alteration, defaultAlteration, hc, Sql.commaSeparated]

theorem alteration_other (hd : d ≠ .postgres) (c : Column) : c.alteration d =
    [.word "MODIFY COLUMN "] ++ ([.name c.name] ++ ([.word (" " ++ c.type.native d)] ++
      ([.word (if c.nullable then " NULL" else " NOT NULL")] ++ c.defaultClause))) := by
  cases d with
  | postgres => exact (hd rfl).elim
  | sqlite | mysql => rfl

theorem defaultAlteration_legible :
    Sql.Legible .postgres defaultAlteration (fun c => c.default.map (·.asRead .postgres))
      (· = []) := by
  rintro c c' x y rfl rfl h
  cases hc : c.default with
  | none =>
    cases hc' : c'.default with
    | none => exact ⟨by simp only [hc, hc'], rfl⟩
    | some v' => simp [defaultAlteration, hc, hc'] at h
  | some v =>
    cases hc' : c'.default with
    | none => simp [defaultAlteration, hc, hc'] at h
    | some v' =>
      simp only [defaultAlteration, hc, hc', Sql.chars_append, Sql.chars_cons, Sql.chars_nil,
        List.append_assoc, List.nil_append] at h
      obtain ⟨-, hrest⟩ := Sql.name_word_legible (by simp)
        (List.append_cancel_left (List.append_cancel_left h))
      obtain ⟨hread, -⟩ := DefaultValue.sql_legible (x := []) (y := []) (by simp [Sql.Apart])
        (by simp [Sql.Apart]) hrest
      exact ⟨by simp only [hc, hc', Option.map_some, hread], rfl⟩

theorem alteration_postgres_legible :
    Sql.Legible .postgres (fun c : Column => c.alteration .postgres) (asRead .postgres)
      (· = []) := by
  have hnull := Sql.choice_legible (d := .postgres) Column.nullable " DROP NOT NULL"
    " SET NOT NULL" (by simp)
  have hattributes := hnull.append defaultAlteration_legible fun _ _ _ => trivial
  have hrepeated := (Sql.names_legible Column.name).append hattributes fun c x _ => by
    cases c.nullable <;> simp [Dialect.nameQuote]
  have htype := (native_legible " TYPE ").append
    (hrepeated.behind [.word ", ", .word "ALTER COLUMN "]) fun c x _ => by simp [Sql.Apart]
  have hname := (Sql.names_legible Column.name).append htype fun c x _ => by
    simp [Dialect.nameQuote]
  rintro c c' x y rfl rfl h
  simp only [alteration_postgres] at h
  obtain ⟨hview, -⟩ := hname.behind [.word "ALTER COLUMN "] rfl rfl h
  simp only [Prod.mk.injEq] at hview
  obtain ⟨hname, htype, -, hnull, hdefault⟩ := hview
  exact ⟨asRead_eq hname htype hnull hdefault, rfl⟩

theorem alteration_other_legible (hd : d ≠ .postgres) :
    Sql.Legible d (fun c : Column => c.alteration d) (asRead d) Ends := by
  have hnull := Sql.choice_legible (d := d) Column.nullable " NULL" " NOT NULL" (by simp)
  have hattributes := hnull.append defaultClause_legible fun _ _ _ => trivial
  have htype := (native_legible (d := d) " ").append hattributes fun c x _ => by
    cases c.nullable <;> simp [Sql.Apart]
  have hname := (Sql.names_legible (d := d) Column.name).append htype fun c x _ => by
    cases d <;> simp [Dialect.nameQuote]
  intro c c' x y hx hy h
  simp only [alteration_other hd] at h
  obtain ⟨hview, hxy⟩ := hname.behind [.word "MODIFY COLUMN "] hx hy h
  simp only [Prod.mk.injEq] at hview
  obtain ⟨hname, htype, hnull, hdefault⟩ := hview
  exact ⟨asRead_eq hname htype hnull hdefault, hxy⟩

/-- **The change of a column tells the column**, at the end of a statement. -/
theorem alteration_legible :
    Sql.Legible d (fun c : Column => c.alteration d) (asRead d) (· = []) := by
  by_cases hd : d = .postgres
  · subst hd
    exact alteration_postgres_legible
  · have hempty : Ends [] := by simp [Ends, Sql.Apart]
    rintro c c' x y rfl rfl h
    exact alteration_other_legible hd hempty hempty h

end Column

/-! ## What is read alike is written alike -/

theorem DefaultValue.chars_asRead (v : DefaultValue) :
    Sql.chars d (v.asRead d).sql = Sql.chars d v.sql := by
  cases v with
  | bool | integer => rfl
  | text value =>
    simp only [asRead, sql, Sql.chars_cons, Sql.pieceChars, Piece.render, Sql.textValue_asRead]

namespace Column

theorem chars_defaultClause_asRead (c : Column) :
    Sql.chars d (c.asRead d).defaultClause = Sql.chars d c.defaultClause := by
  cases hc : c.default with
  | none => simp [asRead, defaultClause, hc]
  | some v => simp [asRead, defaultClause, hc, DefaultValue.chars_asRead]

theorem chars_definition_asRead (c : Column) :
    Sql.chars d ((c.asRead d).definition d) = Sql.chars d (c.definition d) := by
  simp only [definition, Sql.chars_append, chars_defaultClause_asRead]
  rfl

theorem chars_alteration_asRead (c : Column) :
    Sql.chars d ((c.asRead d).alteration d) = Sql.chars d (c.alteration d) := by
  by_cases hd : d = .postgres
  · subst hd
    have hdefault : Sql.chars .postgres (c.asRead .postgres).defaultAlteration =
        Sql.chars .postgres c.defaultAlteration := by
      cases hc : c.default with
      | none => simp [asRead, defaultAlteration, hc]
      | some v => simp [asRead, defaultAlteration, hc, DefaultValue.chars_asRead]
    simp only [alteration_postgres, Sql.chars_append, hdefault]
    rfl
  · simp only [alteration_other hd, Sql.chars_append, chars_defaultClause_asRead]
    rfl

end Column

end SchemaMigration
