import SchemaMigration.Proofs.Escapes
import SchemaMigration.Statement

/-!
# What can be told from a text

A piece of a statement is legible if it can be told from the text that it begins, as long as what
follows does not look like more of it (`Sql.Legible`).  Legible pieces in a row are legible
(`Sql.Legible.append`), and so are lists of them (`Sql.Legible.listed`).  Names, types and default
values are legible, the latter up to how a database reads them (`Sql.asRead`).
-/
namespace SchemaMigration
namespace Sql

variable {d : Dialect}

/-- The text of a piece, character by character. -/
def pieceChars (d : Dialect) (p : Piece) : List Char :=
  (p.render d).toList

/-- The text of a statement, character by character. -/
def chars (d : Dialect) (sql : Sql) : List Char :=
  sql.flatMap (pieceChars d)

@[simp] theorem chars_nil : chars d [] = [] := rfl

@[simp] theorem chars_cons (p : Piece) (rest : Sql) :
    chars d (p :: rest) = pieceChars d p ++ chars d rest := List.flatMap_cons

@[simp] theorem chars_word (w : String) : pieceChars d (.word w) = w.toList := rfl

@[simp] theorem chars_append (s t : Sql) : chars d (s ++ t) = chars d s ++ chars d t :=
  List.flatMap_append

theorem toList_render (sql : Sql) : (render d sql).toList = chars d sql := by
  induction sql with
  | nil => rfl
  | cons p rest ih => rw [render_cons, String.toList_append, ih, chars_cons, pieceChars]

/-- What is written can be told from a text that begins with it, as far as `view` goes, if what
follows is as it should be. -/
def Legible {α β : Type} (d : Dialect) (write : α → Sql) (view : α → β)
    (follows : List Char → Prop) : Prop :=
  ∀ ⦃a b x y⦄, follows x → follows y → chars d (write a) ++ x = chars d (write b) ++ y →
    view a = view b ∧ x = y

section Legible
variable {α β γ : Type} {write write' : α → Sql} {view : α → β} {view' : α → γ}
  {follows follows' : List Char → Prop}

/-- Behind what is written for every value alike. -/
theorem Legible.behind (h : Legible d write view follows) (sql : Sql) :
    Legible d (fun a => sql ++ write a) view follows := by
  intro a b x y hx hy hchars
  simp only [chars_append, List.append_assoc] at hchars
  exact h hx hy (List.append_cancel_left hchars)

/-- **Legible pieces in a row are legible.** -/
theorem Legible.append (h : Legible d write view follows) (h' : Legible d write' view' follows')
    (hfollows : ∀ a x, follows' x → follows (chars d (write' a) ++ x)) :
    Legible d (fun a => write a ++ write' a) (fun a => (view a, view' a)) follows' := by
  intro a b x y hx hy hchars
  simp only [chars_append, List.append_assoc] at hchars
  obtain ⟨hview, hrest⟩ := h (hfollows a x hx) (hfollows b y hy) hchars
  obtain ⟨hview', hxy⟩ := h' hx hy hrest
  exact ⟨Prod.ext hview hview', hxy⟩

/-- One of two words can be told if neither of them begins the other. -/
theorem choice_legible {α : Type} (p : α → Bool) (yes no : String)
    (hapart : ∀ x y, yes.toList ++ x ≠ no.toList ++ y) :
    Legible d (fun a => [.word (if p a then yes else no)]) p fun _ => True := by
  intro a b x y _ _ h
  simp only [chars_cons, chars_nil, chars_word, List.append_nil] at h
  cases ha : p a <;> cases hb : p b <;>
    simp only [ha, hb, if_true, Bool.false_eq_true, if_false] at h
  · exact ⟨rfl, List.append_cancel_left h⟩
  · exact (hapart _ _ h.symm).elim
  · exact (hapart _ _ h).elim
  · exact ⟨rfl, List.append_cancel_left h⟩

end Legible

/-! ## Lists -/

section Listed
variable {α β : Type} {write : α → Sql} {view : α → β} {follows : List Char → Prop} {q : Char}

/-- The parts of a list behind its first one. -/
def further (write : α → Sql) (as : List α) : Sql :=
  as.flatMap fun a => .word ", " :: write a

theorem commaSeparated_map_cons (write : α → Sql) (a : α) (as : List α) :
    commaSeparated ((a :: as).map write) = write a ++ further write as := by
  induction as generalizing a with
  | nil => simp [commaSeparated, further]
  | cons next as ih =>
    rw [List.map_cons, List.map_cons, commaSeparated, ← List.map_cons, ih]
    · simp [further]
    · simp

theorem chars_further_cons (write : α → Sql) (a : α) (as : List α) (x : List Char) :
    chars d (further write (a :: as)) ++ x =
      ',' :: ' ' :: (chars d (write a) ++ (chars d (further write as) ++ x)) := by
  simp [further]

/-- What follows a list whose parts all start with the mark.  One more of them would follow a comma
and a blank. -/
def Over (q : Char) (x : List Char) : Prop :=
  x.head? ≠ some q ∧ ∀ z, x ≠ ',' :: ' ' :: q :: z

theorem follows_further (hcomma : ∀ x, follows (',' :: x)) (as : List α) {x : List Char}
    (hx : follows x) : follows (chars d (further write as) ++ x) := by
  cases as with
  | nil => exact hx
  | cons a as =>
    rw [chars_further_cons]
    exact hcomma _

theorem Legible.further (h : Legible d write view follows)
    (hstart : ∀ a, ∃ z, chars d (write a) = q :: z) (hcomma : ∀ x, follows (',' :: x)) :
    Legible d (further write) (List.map view) fun x => follows x ∧ Over q x := by
  intro as bs x y hx hy hchars
  induction as generalizing bs with
  | nil =>
    cases bs with
    | nil => exact ⟨rfl, hchars⟩
    | cons b bs =>
      obtain ⟨z, hz⟩ := hstart b
      rw [chars_further_cons, hz] at hchars
      exact (hx.2.2 _ hchars).elim
  | cons a as ih =>
    cases bs with
    | nil =>
      obtain ⟨z, hz⟩ := hstart a
      rw [chars_further_cons, hz] at hchars
      exact (hy.2.2 _ hchars.symm).elim
    | cons b bs =>
      rw [chars_further_cons, chars_further_cons] at hchars
      obtain ⟨hview, hrest⟩ := h (follows_further hcomma as hx.1) (follows_further hcomma bs hy.1)
        (List.cons.inj (List.cons.inj hchars).2).2
      obtain ⟨hviews, hxy⟩ := ih hrest
      exact ⟨by rw [List.map_cons, List.map_cons, hview, hviews], hxy⟩

/-- **A list of legible parts is legible**, if all of them start with the same mark. -/
theorem Legible.listed (h : Legible d write view follows)
    (hstart : ∀ a, ∃ z, chars d (write a) = q :: z) (hcomma : ∀ x, follows (',' :: x)) :
    Legible d (fun as => commaSeparated (as.map write)) (List.map view)
      fun x => follows x ∧ Over q x := by
  intro as bs x y hx hy hchars
  cases as with
  | nil =>
    cases bs with
    | nil => exact ⟨rfl, hchars⟩
    | cons b bs =>
      obtain ⟨z, hz⟩ := hstart b
      simp only [commaSeparated_map_cons, chars_append, hz] at hchars
      exact (hx.2.1 (congrArg List.head? hchars)).elim
  | cons a as =>
    cases bs with
    | nil =>
      obtain ⟨z, hz⟩ := hstart a
      simp only [commaSeparated_map_cons, chars_append, hz] at hchars
      exact (hy.2.1 (congrArg List.head? hchars).symm).elim
    | cons b bs =>
      simp only [commaSeparated_map_cons, chars_append, List.append_assoc] at hchars
      have hbehind : chars d (Sql.further write (a :: as)) ++ x =
          chars d (Sql.further write (b :: bs)) ++ y := by
        rw [chars_further_cons, chars_further_cons, hchars]
      exact h.further hstart hcomma hx hy hbehind

end Listed

theorem commaSeparated_concat {parts : List Sql} (hne : parts ≠ []) (last : Sql) :
    commaSeparated (parts ++ [last]) = commaSeparated parts ++ .word ", " :: last := by
  have hcons : ∀ (p : Sql) rest, commaSeparated (p :: rest) = p ++ further id rest :=
    fun p rest => by simpa using commaSeparated_map_cons id p rest
  cases parts with
  | nil => exact (hne rfl).elim
  | cons p rest =>
    rw [List.cons_append, hcons, hcons]
    simp [further]

theorem chars_commaSeparated (parts : List Sql) :
    chars d (commaSeparated parts) = [',', ' '].intercalate (parts.map (chars d)) := by
  cases parts with
  | nil => rfl
  | cons p rest =>
    induction rest generalizing p with
    | nil => simp [commaSeparated, List.intercalate]
    | cons p' rest ih =>
      have hcons : commaSeparated (p :: p' :: rest) =
          p ++ .word ", " :: commaSeparated (p' :: rest) := rfl
      rw [hcons, chars_append, chars_cons, ih]
      simp [List.intercalate]

/-- What is written of a piece stands in the text. -/
theorem infix_chars {p : Piece} {sql : Sql} (h : p ∈ sql) :
    pieceChars d p <:+: chars d sql :=
  List.infix_of_mem_flatten (List.mem_map_of_mem h)

theorem mem_commaSeparated {p : Piece} {part : Sql} {parts : List Sql} (hpart : part ∈ parts)
    (hp : p ∈ part) : p ∈ commaSeparated parts := by
  fun_induction commaSeparated parts with
  | case1 => cases hpart
  | case2 only =>
    rw [List.mem_singleton] at hpart
    rwa [← hpart]
  | case3 first rest hrest ih =>
    rcases List.mem_cons.mp hpart with rfl | hpart
    · exact List.mem_append_left _ hp
    · exact List.mem_append_right _ (List.mem_cons_of_mem _ (ih hpart))

/-! ## Names -/

theorem chars_name (s : String) :
    pieceChars d (.name s) = enclose d.nameQuote (double d.nameQuote s.toList) := by
  rw [pieceChars, Piece.render, quotedName, String.toList_ofList]

theorem chars_name_cons (s : String) (rest : Sql) :
    ∃ z, chars d (.name s :: rest) = d.nameQuote :: z :=
  ⟨_, by rw [chars_cons, chars_name]; rfl⟩

/-- **A quoted name can be told**, whatever it contains, if no other quote follows. -/
theorem name_legible {s t : String} {x y : List Char} (hx : x.head? ≠ some d.nameQuote)
    (hy : y.head? ≠ some d.nameQuote)
    (h : pieceChars d (.name s) ++ x = pieceChars d (.name t) ++ y) : s = t ∧ x = y := by
  rw [chars_name, chars_name] at h
  obtain ⟨hname, hxy⟩ := enclose_double_legible hx hy h
  exact ⟨String.toList_inj.mp hname, hxy⟩

/-- A quoted name can be told if the same word follows, behind a blank. -/
theorem name_word_legible {s t w : String} {x y : List Char} (hw : w.toList.head? = some ' ')
    (h : pieceChars d (.name s) ++ (pieceChars d (.word w) ++ x) =
      pieceChars d (.name t) ++ (pieceChars d (.word w) ++ y)) : s = t ∧ x = y := by
  have hquote : ∀ z : List Char, (w.toList ++ z).head? ≠ some d.nameQuote := by
    intro z
    rw [List.head?_append, hw]
    cases d <;> simp [Dialect.nameQuote]
  obtain ⟨rfl, hrest⟩ := name_legible (hquote x) (hquote y) h
  exact ⟨rfl, List.append_cancel_left hrest⟩

theorem names_legible {α : Type} (name : α → String) :
    Legible d (fun a => [.name (name a)]) name fun x => x.head? ≠ some d.nameQuote := by
  intro a b x y hx hy h
  simp only [chars_cons, chars_nil, List.append_nil] at h
  exact name_legible hx hy h

/-- A name without special characters is the same with and without its quotes doubled. -/
theorem chars_name_eq {s : String} (h : ∀ c ∈ s.toList, Name.isPart c = true) :
    pieceChars d (.name s) = pieceChars d (.plainName s) := by
  have hquote : d.nameQuote ∉ s.toList := by
    intro hmem
    have hpart := h _ hmem
    cases d <;> cases hpart
  rw [chars_name, double_eq_self hquote, pieceChars, Piece.render, plainName,
    String.toList_ofList]

theorem over_parenthesis (z : List Char) : Over d.nameQuote (')' :: z) := by
  cases d <;> simp [Over, Dialect.nameQuote]

/-- The names of columns between parentheses. -/
theorem columnList_legible {α : Type} (columns : α → List String) :
    Legible d (fun a => columnList (columns a)) columns fun _ => True := by
  have hnames := (names_legible (d := d) (id : String → String)).listed (q := d.nameQuote)
    (fun s => chars_name_cons s []) (fun x => by cases d <;> simp [Dialect.nameQuote])
  intro a b x y _ _ hchars
  simp only [columnList, chars_cons, chars_append, chars_nil, chars_word,
    List.append_assoc] at hchars
  obtain ⟨hcolumns, hrest⟩ := hnames ⟨(over_parenthesis x).1, over_parenthesis x⟩
    ⟨(over_parenthesis y).1, over_parenthesis y⟩ (List.append_cancel_left hchars)
  exact ⟨by simpa using hcolumns, (List.cons.inj hrest).2⟩

/-- Names without special characters hold no parenthesis. -/
theorem parenthesis_not_mem {names : List String}
    (h : ∀ k ∈ names, ∀ c ∈ k.toList, Name.isPart c = true) :
    '(' ∉ chars d (commaSeparated (names.map fun k => [.name k])) := by
  have hname : ∀ k ∈ names, '(' ∉ pieceChars d (.name k) := by
    intro k hk hmem
    rw [chars_name_eq (h k hk), pieceChars, Piece.render, plainName, String.toList_ofList,
      enclose, List.mem_append, List.mem_cons, List.mem_singleton] at hmem
    rcases hmem with (hquote | hpart) | hquote
    · cases d <;> cases hquote
    · cases h k hk _ hpart
    · cases d <;> cases hquote
  cases names with
  | nil => simp [commaSeparated]
  | cons k rest =>
    simp only [commaSeparated_map_cons, further, chars, List.mem_flatMap, List.mem_append,
      List.mem_cons, List.not_mem_nil, or_false]
    rintro ⟨p, rfl | ⟨k', hk', rfl | rfl⟩, hmem⟩
    · exact hname k List.mem_cons_self hmem
    · simp at hmem
    · exact hname k' (List.mem_cons_of_mem _ hk') hmem

/-! ## Types -/

/-- What may follow a type or a value: nothing, or a blank or a comma. -/
def Apart (x : List Char) : Prop :=
  ∀ c ∈ x.head?, c = ' ' ∨ c = ','

theorem Apart.not_digit {x : List Char} (hx : Apart x) : ∀ c ∈ x.head?, c.isDigit = false := by
  intro c hc
  rcases hx c hc with rfl | rfl <;> rfl

theorem Apart.not_upper {x : List Char} (hx : Apart x) : ∀ c ∈ x.head?, c.isUpper = false := by
  intro c hc
  rcases hx c hc with rfl | rfl <;> rfl

theorem Apart.not_quote {x : List Char} (hx : Apart x) : x.head? ≠ some '\'' := by
  intro hquote
  rcases hx _ hquote with h | h <;> cases h

theorem isDigit_toString (n : Nat) : ∀ c ∈ (toString n).toList, c.isDigit = true :=
  fun _ hc => Nat.isDigit_of_mem_toDigits (by decide) (by decide) (Nat.toList_repr ▸ hc)

/-- A number can be told if no other digit follows. -/
theorem nat_legible {m n : Nat} {x y : List Char} (hx : ∀ c ∈ x.head?, c.isDigit = false)
    (hy : ∀ c ∈ y.head?, c.isDigit = false)
    (h : (toString m).toList ++ x = (toString n).toList ++ y) : m = n ∧ x = y := by
  obtain ⟨hsame, hxy⟩ := span_legible (isDigit_toString m) (isDigit_toString n) hx hy h
  have hdigits : Nat.toDigits 10 m = Nat.toDigits 10 n := by
    rw [← Nat.toList_repr, ← Nat.toList_repr]
    exact hsame
  refine ⟨?_, hxy⟩
  rw [← Nat.ofDigitChars_ten_toDigits (n := m), hdigits, Nat.ofDigitChars_ten_toDigits]

end Sql

namespace ColumnType

/-- The keyword that a native type begins with. -/
def keyword (d : Dialect) : ColumnType → String
  | boolean => match d with
    | .mysql => "TINYINT"
    | _ => "BOOLEAN"
  | varchar _ => "VARCHAR"
  | decimal _ _ => match d with
    | .postgres => "NUMERIC"
    | _ => "DECIMAL"
  | t => t.native d

/-- What follows the keyword of a native type. -/
def arguments (d : Dialect) : ColumnType → List Char
  | boolean => match d with
    | .mysql => ['(', '1', ')']
    | _ => []
  | varchar size => '(' :: (toString size).toList ++ [')']
  | decimal precision scale =>
    '(' :: (toString precision).toList ++ ',' :: (toString scale).toList ++ [')']
  | _ => []

/-- The type without its sizes. -/
def bare : ColumnType → ColumnType
  | varchar _ => varchar 0
  | decimal _ _ => decimal 0 0
  | t => t

theorem toList_native (d : Dialect) (t : ColumnType) :
    (t.native d).toList = (t.keyword d).toList ++ t.arguments d := by
  cases t <;> cases d <;> simp [native, keyword, arguments]

theorem isUpper_keyword (d : Dialect) (t : ColumnType) :
    ∀ c ∈ (t.keyword d).toList, c.isUpper = true := by
  have hall : (t.keyword d).toList.all Char.isUpper = true := by
    cases d <;> cases t <;> simp only [keyword, native] <;> decide +kernel
  exact List.all_eq_true.mp hall

/-- Types of different kinds go by different keywords. -/
theorem bare_of_keyword {d : Dialect} {t t' : ColumnType} (h : t.keyword d = t'.keyword d) :
    t.bare = t'.bare := by
  let kinds := [boolean, integer, bigInteger, varchar 0, clob, blob, timestamp, decimal 0 0]
  have hall : ∀ k ∈ kinds, ∀ k' ∈ kinds, k.keyword d = k'.keyword d → k = k' := by
    cases d <;> decide
  have hmem : ∀ t : ColumnType, t.bare ∈ kinds := fun t => by cases t <;> simp [kinds, bare]
  have hbare : ∀ t : ColumnType, t.bare.keyword d = t.keyword d := fun t => by cases t <;> rfl
  exact hall _ (hmem t) _ (hmem t') (by rw [hbare, hbare, h])

/-- The sizes can be told from what stands between the parentheses. -/
theorem arguments_legible {d : Dialect} {t t' : ColumnType} {x y : List Char}
    (hbare : t.bare = t'.bare) (h : t.arguments d ++ x = t'.arguments d ++ y) :
    t = t' ∧ x = y := by
  have hclosing : ∀ z : List Char, ∀ c ∈ (')' :: z).head?, c.isDigit = false := by simp
  have hcomma : ∀ z : List Char, ∀ c ∈ (',' :: z).head?, c.isDigit = false := by simp
  cases t with
  | varchar size =>
    cases t' <;> simp [bare] at hbare
    simp only [arguments, List.cons_append, List.append_assoc, List.nil_append, List.cons.injEq,
      true_and] at h
    obtain ⟨rfl, hrest⟩ := Sql.nat_legible (hclosing x) (hclosing y) h
    exact ⟨rfl, (List.cons.inj hrest).2⟩
  | decimal precision scale =>
    cases t' <;> simp [bare] at hbare
    simp only [arguments, List.cons_append, List.append_assoc, List.nil_append, List.cons.injEq,
      true_and] at h
    obtain ⟨rfl, hscale⟩ := Sql.nat_legible (hcomma _) (hcomma _) h
    obtain ⟨rfl, hrest⟩ := Sql.nat_legible (hclosing x) (hclosing y) (List.cons.inj hscale).2
    exact ⟨rfl, (List.cons.inj hrest).2⟩
  | _ =>
    cases t' <;> simp [bare] at hbare
    exact ⟨rfl, List.append_cancel_left h⟩

/-- No more of the keyword follows it. -/
theorem isUpper_arguments (d : Dialect) (t : ColumnType) {x : List Char} (hx : Sql.Apart x) :
    ∀ c ∈ (t.arguments d ++ x).head?, c.isUpper = false := by
  intro c hc
  cases t with
  | varchar size => cases hc; rfl
  | decimal precision scale => cases hc; rfl
  | boolean => cases d with
    | mysql => cases hc; rfl
    | _ => exact hx.not_upper c hc
  | _ => exact hx.not_upper c hc

/-- **A native type can be told**, with its sizes. -/
theorem native_legible {d : Dialect} {t t' : ColumnType} {x y : List Char}
    (hx : Sql.Apart x) (hy : Sql.Apart y)
    (h : (t.native d).toList ++ x = (t'.native d).toList ++ y) : t = t' ∧ x = y := by
  rw [toList_native, toList_native, List.append_assoc, List.append_assoc] at h
  obtain ⟨hkeyword, hrest⟩ := Sql.span_legible (isUpper_keyword d t) (isUpper_keyword d t')
    (isUpper_arguments d t hx) (isUpper_arguments d t' hy) h
  exact arguments_legible (bare_of_keyword (String.toList_inj.mp hkeyword)) hrest

end ColumnType

/-! ## Default values -/

namespace DefaultValue

/-- The value as it is read from a statement. -/
def asRead (d : Dialect) : DefaultValue → DefaultValue
  | text value => text (Sql.asRead d value)
  | v => v

/-- The kinds of values, numbered. -/
def kind : DefaultValue → Nat
  | bool _ => 0
  | integer _ => 1
  | text _ => 2

/-- The kind of a value that is written with this character at the beginning. -/
def kindOf (c : Char) : Nat :=
  if c = 'T' ∨ c = 'F' then 0
  else if c = '\'' ∨ c = 'E' then 2
  else 1

theorem toList_negSucc (n : Nat) :
    (toString (Int.negSucc n)).toList = '-' :: (toString (n + 1)).toList :=
  String.toList_append (s := "-")

theorem exists_digit (n : Nat) : ∃ c z, (toString n).toList = c :: z ∧ c.isDigit = true := by
  obtain ⟨c, z, hcons⟩ := List.exists_cons_of_ne_nil (l := (toString n).toList)
    fun hnil => Nat.repr_ne_empty (String.toList_eq_nil_iff.mp hnil)
  exact ⟨c, z, hcons, Sql.isDigit_toString n c (hcons ▸ List.mem_cons_self)⟩

theorem integer_legible {i j : Int} {x y : List Char} (hx : Sql.Apart x) (hy : Sql.Apart y)
    (h : (toString i).toList ++ x = (toString j).toList ++ y) : i = j ∧ x = y := by
  -- no digit is a minus sign
  have hsign : ∀ (m : Nat) (u v : List Char), (toString m).toList ++ u ≠ '-' :: v := by
    intro m u v hsame
    obtain ⟨c, z, hcons, hdigit⟩ := exists_digit m
    rw [hcons] at hsame
    cases hsame
    cases hdigit
  cases i with
  | ofNat m =>
    cases j with
    | ofNat n =>
      obtain ⟨rfl, hxy⟩ := Sql.nat_legible hx.not_digit hy.not_digit h
      exact ⟨rfl, hxy⟩
    | negSucc n =>
      rw [toList_negSucc] at h
      exact (hsign m _ _ h).elim
  | negSucc m =>
    rw [toList_negSucc] at h
    cases j with
    | ofNat n => exact (hsign n _ _ h.symm).elim
    | negSucc n =>
      rw [toList_negSucc] at h
      obtain ⟨hmn, hxy⟩ := Sql.nat_legible hx.not_digit hy.not_digit (List.cons.inj h).2
      exact ⟨by rw [Nat.succ.inj hmn], hxy⟩

theorem kindOf_digit {c : Char} (hc : c.isDigit = true) : kindOf c = 1 := by
  unfold kindOf
  rw [if_neg, if_neg]
  · rintro (rfl | rfl) <;> cases hc
  · rintro (rfl | rfl) <;> cases hc

/-- The kind of a value shows in the first character. -/
theorem chars_sql (d : Dialect) (v : DefaultValue) :
    ∃ c z, Sql.chars d v.sql = c :: z ∧ kindOf c = v.kind := by
  cases v with
  | bool value => cases value with
    | false => exact ⟨'F', ['A', 'L', 'S', 'E'], by simp [sql], rfl⟩
    | true => exact ⟨'T', ['R', 'U', 'E'], by simp [sql], rfl⟩
  | integer value =>
    simp only [sql, Sql.chars_cons, Sql.chars_nil, Sql.chars_word, List.append_nil]
    cases value with
    | ofNat n =>
      obtain ⟨c, z, hcons, hdigit⟩ := exists_digit n
      exact ⟨c, z, hcons, kindOf_digit hdigit⟩
    | negSucc n => exact ⟨_, _, toList_negSucc n, rfl⟩
  | text value =>
    simp only [sql, Sql.chars_cons, Sql.chars_nil, List.append_nil, Sql.pieceChars, Piece.render]
    rcases Sql.textValue_cons d value with ⟨z, hquote⟩ | ⟨z, hmark⟩
    · exact ⟨_, z, hquote, rfl⟩
    · exact ⟨_, z, hmark, rfl⟩

/-- **A default value can be told**, up to how it is read. -/
theorem sql_legible {d : Dialect} {v v' : DefaultValue} {x y : List Char} (hx : Sql.Apart x)
    (hy : Sql.Apart y) (h : Sql.chars d v.sql ++ x = Sql.chars d v'.sql ++ y) :
    v.asRead d = v'.asRead d ∧ x = y := by
  have hkind : v.kind = v'.kind := by
    obtain ⟨c, z, hcons, hc⟩ := chars_sql d v
    obtain ⟨c', z', hcons', hc'⟩ := chars_sql d v'
    rw [hcons, hcons'] at h
    rw [← hc, ← hc', (List.cons.inj h).1]
  cases v with
  | bool value =>
    cases v' <;> simp [kind] at hkind
    case bool value' =>
      cases value <;> cases value' <;> simp [sql] at h
      · exact ⟨rfl, h⟩
      · exact ⟨rfl, h⟩
  | integer value =>
    cases v' <;> simp [kind] at hkind
    case integer value' =>
      simp only [sql, Sql.chars_cons, Sql.chars_nil, Sql.chars_word, List.append_nil] at h
      obtain ⟨rfl, hxy⟩ := integer_legible hx hy h
      exact ⟨rfl, hxy⟩
  | text value =>
    cases v' <;> simp [kind] at hkind
    case text value' =>
      simp only [sql, Sql.chars_cons, Sql.chars_nil, List.append_nil] at h
      obtain ⟨hread, hxy⟩ := Sql.textValue_legible hx.not_quote hy.not_quote h
      exact ⟨congrArg text hread, hxy⟩

end DefaultValue

end SchemaMigration
