import SchemaMigration.Sql.Quote

/-!
# Escapes can be undone

A text between quotes is written character by character.  It can be told from what is written if a
reader finds the characters again, one after the other, up to the closing quote (`Sql.ReadBack`).
-/
namespace SchemaMigration
namespace Sql

/-- A way to read one character from the front of a text, if one stands before the closing quote. -/
abbrev UnitReader := List Char → Option (Char × List Char)

/-- The reader finds the characters of a text again, each from what is written for it, and nothing
more before `close`. -/
def ReadBack (write : Char → List Char) (read : UnitReader) (close : List Char) :
    List Char → Prop
  | [] => read close = none
  | c :: s => read (write c ++ (s.flatMap write ++ close)) = some (c, s.flatMap write ++ close) ∧
    ReadBack write read close s

/-- **What is read back can be told from what is written.** -/
theorem ReadBack.legible {write : Char → List Char} {read : UnitReader}
    {s t close close' : List Char} (hs : ReadBack write read close s)
    (ht : ReadBack write read close' t) (h : s.flatMap write ++ close = t.flatMap write ++ close') :
    s = t ∧ close = close' := by
  induction s generalizing t with
  | nil =>
    cases t with
    | nil => exact ⟨rfl, h⟩
    | cons c t =>
      have hnone : read close = none := hs
      rw [show close = _ from h, List.flatMap_cons, List.append_assoc, ht.1] at hnone
      cases hnone
  | cons c s ih =>
    obtain ⟨hc, hs⟩ := hs
    rw [List.flatMap_cons, List.append_assoc] at h
    rw [h] at hc
    cases t with
    | nil =>
      have hnone : read close' = none := ht
      cases hnone.symm.trans hc
    | cons c' t =>
      rw [List.flatMap_cons, List.append_assoc, ht.1] at hc
      obtain ⟨rfl, hrest⟩ := Prod.mk.inj (Option.some.inj hc)
      obtain ⟨rfl, hclose⟩ := ih hs ht.2 hrest.symm
      exact ⟨rfl, hclose⟩

/-- A text whose characters all pass a test can be told if the next one does not pass it. -/
theorem span_legible {p : Char → Bool} {u v x y : List Char} (hu : ∀ c ∈ u, p c = true)
    (hv : ∀ c ∈ v, p c = true) (hx : ∀ c ∈ x.head?, p c = false) (hy : ∀ c ∈ y.head?, p c = false)
    (h : u ++ x = v ++ y) : u = v ∧ x = y := by
  induction u generalizing v with
  | nil =>
    cases v with
    | nil => exact ⟨rfl, h⟩
    | cons c v =>
      obtain rfl : x = c :: (v ++ y) := h
      cases (hx c rfl).symm.trans (hv c List.mem_cons_self)
  | cons c u ih =>
    cases v with
    | nil =>
      obtain rfl : c :: (u ++ x) = y := h
      cases (hy c rfl).symm.trans (hu c List.mem_cons_self)
    | cons c' v =>
      obtain ⟨rfl, hrest⟩ := List.cons.inj h
      obtain ⟨rfl, hxy⟩ := ih (List.forall_mem_cons.mp hu).2 (List.forall_mem_cons.mp hv).2 hrest
      exact ⟨rfl, hxy⟩

/-- Two texts around the last mark of its kind. -/
theorem split_last {q : Char} {u u' v v' : List Char} (hv : q ∉ v) (hv' : q ∉ v')
    (h : u ++ q :: v = u' ++ q :: v') : u = u' ∧ v = v' := by
  have hreverse : v.reverse ++ q :: u.reverse = v'.reverse ++ q :: u'.reverse := by
    simpa using congrArg List.reverse h
  have hother : ∀ {w : List Char}, q ∉ w → ∀ c ∈ w.reverse, decide (c ≠ q) = true :=
    fun hw c hc => decide_eq_true fun hcq => hw (hcq ▸ List.mem_reverse.mp hc)
  have hmark : ∀ w : List Char, ∀ c ∈ (q :: w).head?, decide (c ≠ q) = false := by simp
  obtain ⟨hback, hfront⟩ := span_legible (hother hv) (hother hv') (hmark _) (hmark _) hreverse
  exact ⟨List.reverse_inj.mp (List.cons.inj hfront).2, List.reverse_inj.mp hback⟩

/-! ## Doubled quotes -/

theorem double_eq_self {q : Char} {s : List Char} (h : q ∉ s) : double q s = s := by
  induction s with
  | nil => rfl
  | cons c s ih =>
    obtain ⟨hc, hs⟩ := not_or.mp (mt List.mem_cons.mpr h)
    rw [double, List.flatMap_cons, if_neg (Ne.symm hc), ← double, ih hs, List.singleton_append]

/-- Reads a character of a text with doubled marks. -/
def readDoubled (q : Char) : UnitReader
  | [] => none
  | c :: rest =>
    if c = q then
      match rest with
      | [] => none
      | c' :: rest => if c' = q then some (q, rest) else none
    else some (c, rest)

theorem readBack_double {q : Char} {x : List Char} (hx : x.head? ≠ some q) (s : List Char) :
    ReadBack (fun c => if c = q then [q, q] else [c]) (readDoubled q) (q :: x) s := by
  induction s with
  | nil =>
    cases x with
    | nil => simp [ReadBack, readDoubled]
    | cons c x =>
      have hc : c ≠ q := by simpa using hx
      simp [ReadBack, readDoubled, hc]
  | cons c s ih =>
    refine ⟨?_, ih⟩
    by_cases hc : c = q
    · simp [hc, readDoubled]
    · simp [hc, readDoubled]

/-- **A text between quotes with doubled quotes inside** can be told, and so can what follows. -/
theorem enclose_double_legible {q : Char} {s t x y : List Char} (hx : x.head? ≠ some q)
    (hy : y.head? ≠ some q)
    (h : enclose q (double q s) ++ x = enclose q (double q t) ++ y) : s = t ∧ x = y := by
  simp only [enclose, List.cons_append, List.append_assoc, List.nil_append, List.cons.injEq,
    true_and] at h
  obtain ⟨rfl, hclose⟩ := (readBack_double hx s).legible (readBack_double hy t) h
  exact ⟨rfl, (List.cons.inj hclose).2⟩

/-! ## Escapes of MySQL -/

/-- The character that a letter behind a backslash stands for. -/
def unescaped : Char → Char
  | '0' => '\x00'
  | 'b' => '\x08'
  | 't' => '\t'
  | 'n' => '\n'
  | 'f' => '\x0c'
  | 'r' => '\r'
  | 'z' => '\x1a'
  | c => c

/-- Reads a character of a default value on MySQL. -/
def readMySql : UnitReader
  | [] => none
  | c :: rest =>
    if c = '\'' then none
    else if c = '\\' then
      match rest with
      | [] => none
      | e :: rest => some (unescaped e, rest)
    else some (c, rest)

/-- A character stands for itself, or a letter behind a backslash stands for it. -/
theorem escapeMySql_cases (c : Char) :
    (escapeMySql c = [c] ∧ c ≠ '\'' ∧ c ≠ '\\') ∨
      ∃ e, escapeMySql c = ['\\', e] ∧ unescaped e = c := by
  unfold escapeMySql
  split
  case h_10 hslash _ hquote _ _ _ _ _ _ => exact .inl ⟨rfl, hquote, hslash⟩
  all_goals exact .inr ⟨_, rfl, rfl⟩

theorem readBack_mySql (x s : List Char) :
    ReadBack escapeMySql readMySql ('\'' :: x) s := by
  induction s with
  | nil => rfl
  | cons c s ih =>
    refine ⟨?_, ih⟩
    rcases escapeMySql_cases c with ⟨hself, hquote, hslash⟩ | ⟨e, hescaped, hletter⟩
    · simp [hself, readMySql, hquote, hslash]
    · simp [hescaped, readMySql, hletter]

/-! ## Escapes of PostgreSQL -/

/-- The control character that is written as a backslash, a zero and these digits. -/
def control? (a b : Char) : Option Char :=
  ((List.range 0x20).map Char.ofNat).find? fun c => escapePostgres c = ['\\', '0', a, b]

/-- The text with every zero character and two digits after it read as one control character, where
they are written like one. -/
def fuse : List Char → List Char
  | [] => []
  | '\x00' :: a :: b :: rest =>
    match control? a b with
    | some c => c :: fuse rest
    | none => '\x00' :: fuse (a :: b :: rest)
  | c :: rest => c :: fuse rest

theorem control?_written {a b c : Char} (h : control? a b = some c) :
    escapePostgres c = ['\\', '0', a, b] := by
  simpa using List.find?_some h

theorem control?_low {a b c : Char} (h : control? a b = some c) : c.isDigit = false := by
  have hall : ∀ n < 0x20, (Char.ofNat n).isDigit = false := by decide
  obtain ⟨n, hn, rfl⟩ := List.mem_map.mp (List.mem_of_find?_eq_some h)
  exact hall n (List.mem_range.mp hn)

/-- The two characters behind the zero of an escape. -/
def behindZero? : List Char → Option (Char × Char)
  | ['\\', '0', a, b] => some (a, b)
  | _ => none

theorem of_behindZero? {s : List Char} {a b : Char} (h : behindZero? s = some (a, b)) :
    s = ['\\', '0', a, b] := by
  unfold behindZero? at h
  split at h
  · cases h
    rfl
  · cases h

/-- Only digits follow the zero. -/
theorem control?_digits {a b c : Char} (h : control? a b = some c) :
    a.isDigit = true ∧ b.isDigit = true := by
  have hall : ∀ n < 0x20, (behindZero? (escapePostgres (Char.ofNat n))).all
      (fun ab => ab.1.isDigit && ab.2.isDigit) = true := by decide +kernel
  obtain ⟨n, hn, rfl⟩ := List.mem_map.mp (List.mem_of_find?_eq_some h)
  have hdigits := hall n (List.mem_range.mp hn)
  rw [control?_written h] at hdigits
  exact Bool.and_eq_true_iff.mp hdigits

/-- Where a control character is written with digits, they tell it. -/
theorem control?_behindZero {n : Nat} (hn : n < 0x20)
    (hlength : (escapePostgres (Char.ofNat n)).length = 4) :
    ∃ a b, escapePostgres (Char.ofNat n) = ['\\', '0', a, b] ∧
      control? a b = some (Char.ofNat n) := by
  have hall : ∀ n < 0x20, (escapePostgres (Char.ofNat n)).length = 4 →
      (behindZero? (escapePostgres (Char.ofNat n))).any
        (fun ab => control? ab.1 ab.2 = some (Char.ofNat n)) = true := by decide +kernel
  obtain ⟨⟨a, b⟩, hdigits, hcontrol⟩ := (Option.any_eq_true _ _).mp (hall n hn hlength)
  exact ⟨a, b, of_behindZero? hdigits, of_decide_eq_true hcontrol⟩

/-- A character stands for itself, or a letter or octal digits behind a backslash stand for it. -/
theorem escapePostgres_cases (c : Char) :
    (escapePostgres c = [c] ∧ c ≠ '\'' ∧ c ≠ '\\') ∨
      (∃ e, escapePostgres c = ['\\', e] ∧ unescaped e = c ∧ e ≠ '0' ∧ e ≠ '1') ∨
      (escapePostgres c = ['\\', '0'] ∧ c = '\x00') ∨
      (∃ a b, escapePostgres c = ['\\', '0', a, b] ∧ control? a b = some c) ∨
      (escapePostgres c = ['\\', '1', '7', '7'] ∧ c = '\x7f') := by
  by_cases hletter : c ∈ ['\\', '\'', '\x08', '\x0c', '\n', '\r', '\t']
  · simp only [List.mem_cons, List.not_mem_nil, or_false] at hletter
    rcases hletter with rfl | rfl | rfl | rfl | rfl | rfl | rfl <;>
      exact .inr (.inl ⟨_, rfl, rfl, by decide, by decide⟩)
  by_cases hzero : c = '\x00'
  · exact .inr (.inr (.inl ⟨hzero ▸ rfl, hzero⟩))
  have hdefault : escapePostgres c =
      if c.toNat < 0x20 || c.toNat = 0x7f then '\\' :: octal c.toNat else [c] := by
    unfold escapePostgres
    split <;> simp_all
  by_cases hlow : c.toNat < 0x20
  · rw [if_pos (by simp [hlow])] at hdefault
    have hlength : (escapePostgres (Char.ofNat c.toNat)).length = 4 := by
      rw [Char.ofNat_toNat, hdefault]
      rfl
    obtain ⟨a, b, hwritten, hcontrol⟩ := control?_behindZero hlow hlength
    rw [Char.ofNat_toNat] at hwritten hcontrol
    exact .inr (.inr (.inr (.inl ⟨a, b, hwritten, hcontrol⟩)))
  by_cases hdelete : c.toNat = 0x7f
  · have hc : c = '\x7f' := by rw [← Char.ofNat_toNat c, hdelete]
    exact .inr (.inr (.inr (.inr ⟨hc ▸ rfl, hc⟩)))
  · rw [if_neg (by simp [hlow, hdelete])] at hdefault
    have hplain : c ≠ '\\' ∧ c ≠ '\'' := by
      constructor <;> rintro rfl <;> exact hletter (by decide)
    exact .inl ⟨hdefault, hplain.2, hplain.1⟩

/-- What is written for a character is a backslash with something behind it, or the character. -/
theorem of_escapePostgres_digit {c a : Char} {w z : List Char} (ha : a.isDigit = true)
    (h : escapePostgres c ++ z = a :: w) : c = a ∧ z = w := by
  have hslash : a ≠ '\\' := by
    rintro rfl
    cases ha
  rcases escapePostgres_cases c with ⟨hc, -⟩ | ⟨e, hc, -⟩ | ⟨hc, -⟩ | ⟨e, b, hc, -⟩ | ⟨hc, -⟩ <;>
    rw [hc] at h
  · exact List.cons.inj h
  all_goals exact (hslash (List.cons.inj h).1.symm).elim

theorem escapePostgres_digit {c : Char} (hc : c.isDigit = true) : escapePostgres c = [c] := by
  have hall : ∀ n < 0x3a, 0x30 ≤ n → escapePostgres (Char.ofNat n) = [Char.ofNat n] := by
    decide +kernel
  obtain ⟨hlow, hhigh⟩ := Char.isDigit_iff_toNat.mp hc
  rw [← Char.ofNat_toNat c]
  exact hall c.toNat (Nat.lt_succ_of_le hhigh) hlow

/-- **Fusing changes nothing of what is written.** -/
theorem flatMap_fuse (s : List Char) :
    (fuse s).flatMap escapePostgres = s.flatMap escapePostgres := by
  fun_induction fuse s with
  | case1 => rfl
  | case2 a b rest c hc ih =>
    obtain ⟨ha, hb⟩ := control?_digits hc
    simp only [List.flatMap_cons, ih, control?_written hc, escapePostgres_digit ha,
      escapePostgres_digit hb]
    rfl
  | case3 a b rest hnone ih => rw [List.flatMap_cons, ih]; rfl
  | case4 c rest _ ih => rw [List.flatMap_cons, ih]; rfl

/-- No zero character stands before two digits that are written like a control character with it. -/
def Settled : List Char → Prop
  | [] => True
  | c :: rest =>
    (c = '\x00' → ∀ a b others, rest = a :: b :: others → control? a b = none) ∧ Settled rest

/-- Digits are as they were before. -/
theorem of_fuse_digit {s z : List Char} {e : Char} (he : e.isDigit = true) (h : fuse s = e :: z) :
    ∃ rest, s = e :: rest ∧ fuse rest = z := by
  fun_cases fuse s with
  | case1 => cases h
  | case2 a b rest c hc =>
    rw [fuse, hc] at h
    obtain ⟨rfl, -⟩ := List.cons.inj h
    cases he.symm.trans (control?_low hc)
  | case3 a b rest hnone =>
    rw [fuse, hnone] at h
    obtain ⟨rfl, -⟩ := List.cons.inj h
    cases he
  | case4 c rest hother =>
    rw [fuse] at h
    · obtain ⟨rfl, hrest⟩ := List.cons.inj h
      exact ⟨rest, rfl, hrest⟩
    · exact hother

/-- Digits that are written like a control character with a zero before them have not been fused. -/
theorem of_fuse_control {s others : List Char} {a b c : Char} (hcontrol : control? a b = some c)
    (h : fuse s = a :: b :: others) : ∃ rest, s = a :: b :: rest := by
  obtain ⟨ha, hb⟩ := control?_digits hcontrol
  obtain ⟨rest, rfl, hrest⟩ := of_fuse_digit ha h
  obtain ⟨rest, rfl, -⟩ := of_fuse_digit hb hrest
  exact ⟨rest, rfl⟩

/-- **A fused text is settled.** -/
theorem settled_fuse (s : List Char) : Settled (fuse s) := by
  fun_induction fuse s with
  | case1 => trivial
  | case2 a b rest c hc ih =>
    refine ⟨fun hzero => ?_, ih⟩
    rw [hzero] at hc
    cases control?_written hc
  | case3 a b rest hnone ih =>
    refine ⟨fun _ a' b' others hfused => ?_, ih⟩
    cases hcontrol : control? a' b' with
    | none => rfl
    | some c =>
      obtain ⟨rest', hrest⟩ := of_fuse_control hcontrol hfused
      obtain ⟨ha, hb, -⟩ : a = a' ∧ b = b' ∧ rest = rest' := by simpa using hrest
      rw [ha, hb, hcontrol] at hnone
      cases hnone
  | case4 c rest hother ih =>
    refine ⟨fun hzero a b others hfused => ?_, ih⟩
    cases hcontrol : control? a b with
    | none => rfl
    | some c' =>
      obtain ⟨rest', hrest⟩ := of_fuse_control hcontrol hfused
      exact (hother a b rest' hzero hrest).elim

/-- A digit in front of a written text is the text's first character. -/
theorem of_written_digit {s x z : List Char} {a : Char} (ha : a.isDigit = true)
    (h : s.flatMap escapePostgres ++ '\'' :: x = a :: z) :
    ∃ rest, s = a :: rest ∧ rest.flatMap escapePostgres ++ '\'' :: x = z := by
  cases s with
  | nil =>
    obtain ⟨rfl, -⟩ := List.cons.inj h
    cases ha
  | cons c rest =>
    rw [List.flatMap_cons, List.append_assoc] at h
    obtain ⟨rfl, hrest⟩ := of_escapePostgres_digit ha h
    exact ⟨rest, rfl, hrest⟩

/-- Reads what stands behind a backslash and a zero. -/
def readZero : UnitReader
  | a :: b :: rest =>
    match control? a b with
    | some c => some (c, rest)
    | none => some ('\x00', a :: b :: rest)
  | rest => some ('\x00', rest)

/-- Reads what stands behind a backslash. -/
def readEscape : UnitReader
  | [] => none
  | e :: rest =>
    if e = '0' then readZero rest
    else if e = '1' then some ('\x7f', rest.drop 2)
    else some (unescaped e, rest)

/-- Reads a character of a default value on PostgreSQL. -/
def readPostgres : UnitReader
  | [] => none
  | c :: rest =>
    if c = '\'' then none
    else if c = '\\' then readEscape rest
    else some (c, rest)

theorem readZero_settled {s : List Char} (x : List Char)
    (h : ∀ a b others, s = a :: b :: others → control? a b = none) :
    readZero (s.flatMap escapePostgres ++ '\'' :: x) =
      some ('\x00', s.flatMap escapePostgres ++ '\'' :: x) := by
  have hnone : ∀ a b z, s.flatMap escapePostgres ++ '\'' :: x = a :: b :: z →
      control? a b = none := by
    intro a b z htext
    cases hcontrol : control? a b with
    | none => rfl
    | some c =>
      obtain ⟨ha, hb⟩ := control?_digits hcontrol
      obtain ⟨rest, rfl, hrest⟩ := of_written_digit ha htext
      obtain ⟨others, rfl, -⟩ := of_written_digit hb hrest
      exact hcontrol.symm.trans (h a b others rfl)
  unfold readZero
  split
  case h_1 a b z htext => rw [hnone a b z htext, htext]
  case h_2 => rfl

theorem readBack_postgres (x : List Char) {s : List Char} (hs : Settled s) :
    ReadBack escapePostgres readPostgres ('\'' :: x) s := by
  induction s with
  | nil => rfl
  | cons c s ih =>
    obtain ⟨hzero, hsettled⟩ := hs
    refine ⟨?_, ih hsettled⟩
    rcases escapePostgres_cases c with ⟨hc, hquote, hslash⟩ | ⟨e, hc, hletter, hne, hne'⟩ |
        ⟨hc, rfl⟩ | ⟨a, b, hc, hcontrol⟩ | ⟨hc, rfl⟩ <;> rw [hc]
    · simp [readPostgres, hquote, hslash]
    · simp [readPostgres, readEscape, hne, hne', hletter]
    · simp [readPostgres, readEscape, readZero_settled x (hzero rfl)]
    · simp [readPostgres, readEscape, readZero, hcontrol]
    · simp [readPostgres, readEscape]

/-! ## Default values -/

/-- The text that is read where a text is written as a default value.  On PostgreSQL a zero
character with two digits behind it may be read as one control character; all else is read as it
is. -/
def asRead (d : Dialect) (s : String) : String :=
  match d with
  | .postgres => String.ofList (fuse s.toList)
  | _ => s

theorem fuse_eq_self {s : List Char} (h : '\x00' ∉ s) : fuse s = s := by
  fun_induction fuse s with
  | case1 => rfl
  | case2 a b rest c hc ih => exact (h List.mem_cons_self).elim
  | case3 a b rest hnone ih => exact (h List.mem_cons_self).elim
  | case4 c rest _ ih => rw [ih fun hrest => h (List.mem_cons_of_mem c hrest)]

/-- A text is read as it is, unless it holds a zero character and PostgreSQL reads it. -/
theorem asRead_eq_self {d : Dialect} {s : String} (h : d = .postgres → '\x00' ∉ s.toList) :
    asRead d s = s := by
  cases d with
  | sqlite | mysql => rfl
  | postgres => rw [asRead, fuse_eq_self (h rfl), String.ofList_toList]

/-- **A text is written like the one it is read as.** -/
theorem textValue_asRead (d : Dialect) (s : String) : textValue d (asRead d s) = textValue d s := by
  cases d with
  | sqlite | mysql => rfl
  | postgres => simp only [textValue, asRead, String.toList_ofList, flatMap_fuse]

/-- A default text starts with a quote, or with a mark that none of the other values starts with. -/
theorem textValue_cons (d : Dialect) (s : String) :
    (∃ z, (textValue d s).toList = '\'' :: z) ∨ ∃ z, (textValue d s).toList = 'E' :: z := by
  cases d with
  | sqlite | mysql => exact .inl ⟨_, String.toList_ofList⟩
  | postgres =>
    simp only [textValue]
    split
    · exact .inr ⟨_, String.toList_ofList⟩
    · exact .inl ⟨_, String.toList_ofList⟩

theorem enclose_postgres_legible {s t x y : List Char}
    (h : enclose '\'' (s.flatMap escapePostgres) ++ x =
      enclose '\'' (t.flatMap escapePostgres) ++ y) : fuse s = fuse t ∧ x = y := by
  simp only [enclose, List.cons_append, List.append_assoc, List.nil_append, List.cons.injEq,
    true_and] at h
  rw [← flatMap_fuse s, ← flatMap_fuse t] at h
  obtain ⟨hfuse, hclose⟩ :=
    (readBack_postgres x (settled_fuse s)).legible (readBack_postgres y (settled_fuse t)) h
  exact ⟨hfuse, (List.cons.inj hclose).2⟩

/-- **A default text can be told**, up to how it is read, if no quote follows. -/
theorem textValue_legible {d : Dialect} {s t : String} {x y : List Char}
    (hx : x.head? ≠ some '\'') (hy : y.head? ≠ some '\'')
    (h : (textValue d s).toList ++ x = (textValue d t).toList ++ y) :
    asRead d s = asRead d t ∧ x = y := by
  cases d with
  | sqlite =>
    simp only [textValue, String.toList_ofList] at h
    obtain ⟨hsame, hxy⟩ := enclose_double_legible hx hy h
    exact ⟨String.toList_inj.mp hsame, hxy⟩
  | mysql =>
    simp only [textValue, String.toList_ofList, enclose, List.cons_append, List.append_assoc,
      List.nil_append, List.cons.injEq, true_and] at h
    obtain ⟨hsame, hclose⟩ := (readBack_mySql x s.toList).legible (readBack_mySql y t.toList) h
    exact ⟨String.toList_inj.mp hsame, (List.cons.inj hclose).2⟩
  | postgres =>
    have hfused : enclose '\'' (s.toList.flatMap escapePostgres) ++ x =
        enclose '\'' (t.toList.flatMap escapePostgres) ++ y := by
      simp only [textValue] at h
      -- a leading `E` on one side only would stand against a quote
      split at h <;> split at h <;> simp [enclose] at h ⊢ <;> exact h
    obtain ⟨hsame, hxy⟩ := enclose_postgres_legible hfused
    exact ⟨congrArg String.ofList hsame, hxy⟩

end Sql
end SchemaMigration
