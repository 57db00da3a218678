import SchemaMigration.Proofs.OrderlyChanges

/-!
# Descriptions that pass their checks

What is known of a change that is built: its names are in lower case and in ASCII, so that a program
and a database compare them alike (`Name.lower_of_check`), and there is a statement for it
(`Change.build_ne_nil`).
-/
namespace SchemaMigration

theorem bind_eq_ok {ε α β : Type} {x : Except ε α} {f : α → Except ε β} {b : β} :
    x >>= f = .ok b ↔ ∃ a, x = .ok a ∧ f a = .ok b := by
  cases x with
  | error e =>
    constructor
    · intro h
      cases h
    · rintro ⟨a, h, -⟩
      cases h
  | ok a =>
    constructor
    · exact fun h => ⟨a, rfl, h⟩
    · rintro ⟨a', h, hf⟩
      cases h
      exact hf

/-- A check comes first and has no result of its own. -/
theorem check_bind_eq_ok {ε β : Type} {x : Except ε Unit} {f : Unit → Except ε β} {b : β} :
    x >>= f = .ok b ↔ x = .ok () ∧ f () = .ok b := by
  rw [bind_eq_ok]
  exact ⟨fun ⟨(), h⟩ => h, fun h => ⟨(), h⟩⟩

theorem mapError_eq_ok {ε ε' α : Type} {x : Except ε α} {f : ε → ε'} {a : α} :
    x.mapError f = .ok a ↔ x = .ok a := by
  cases x with
  | error e => exact ⟨nofun, nofun⟩
  | ok b =>
    constructor
    · rintro ⟨⟩
      rfl
    · rintro ⟨⟩
      rfl

namespace Name

theorem ascii_of_isPart {c : Char} (h : isPart c = true) : c.toNat < 0x80 ∧ c.isUpper = false := by
  -- the code points of capital letters lie apart from those of small letters and digits
  have hle : ∀ a b : Char, a.val ≤ b.val ↔ a.toNat ≤ b.toNat := fun _ _ => UInt32.le_iff_toNat_le
  have hupper : c.isUpper = decide (c.val ≥ 'A'.val ∧ c.val ≤ 'Z'.val) := rfl
  have hlower : c.isLower = (decide (c.val ≥ 'a'.val) && decide (c.val ≤ 'z'.val)) := rfl
  simp only [isPart, Bool.or_eq_true, decide_eq_true_eq] at h
  rcases h with (h | h) | rfl
  · simp only [hlower, Bool.and_eq_true, decide_eq_true_eq, ge_iff_le, hle] at h
    simp only [hupper, decide_eq_false_iff_not, ge_iff_le, hle, Char.reduceToNat] at h ⊢
    omega
  · simp only [Char.isDigit_iff_toNat, Char.reduceToNat] at h
    simp only [hupper, decide_eq_false_iff_not, ge_iff_le, hle, Char.reduceToNat] at h ⊢
    omega
  · decide

theorem isPart_of_check {d : Dialect} {s : String} (h : check d s = .ok ()) :
    ∀ c ∈ s.toList, isPart c = true := by
  unfold check at h
  split at h
  · cases h
  · split at h
    · cases h
    · split at h
      · cases h
      · next hnone => simpa [firstStranger?] using hnone

theorem isPart_of_checkDerived {s : String} (h : checkDerived s = .ok ()) :
    ∀ c ∈ s.toList, isPart c = true := by
  unfold checkDerived at h
  split at h
  · cases h
  · split at h
    · cases h
    · next hnone => simpa [firstStranger?] using hnone

/-- A name of allowed characters is in lower case already, as a database sees it. -/
theorem toLower_of_isPart {s : String} (h : ∀ c ∈ s.toList, isPart c = true) :
    s.map Char.toLower = s := by
  have hlower : ∀ c ∈ s.toList, c.toLower = id c := fun c hc =>
    dif_neg (of_decide_eq_false (ascii_of_isPart (h c hc)).2)
  rw [← String.toList_inj, String.toList_map, List.map_congr_left hlower, List.map_id]

theorem toLower_of_check {d : Dialect} {s : String} (h : check d s = .ok ()) :
    s.map Char.toLower = s :=
  toLower_of_isPart (isPart_of_check h)

/-- **A name that passes the check has one lower-case form**, for a program and for a database. -/
theorem lower_of_check {d : Dialect} {s : String} (h : check d s = .ok ()) :
    Text.lower s = s.map Char.toLower := by
  rw [toLower_of_check h]
  exact Text.lower_eq_self fun c hc => ascii_of_isPart (isPart_of_check h c hc)

theorem require_eq_ok {d : Dialect} {kind s : String} :
    require d kind s = .ok () ↔ check d s = .ok () :=
  mapError_eq_ok

theorem requireColumns_go {d : Dialect} {owner : Owner} {seen columns : List String} :
    requireColumns.go d owner seen columns = .ok () ↔ (∀ k ∈ columns, check d k = .ok ()) ∧
      columns.Nodup ∧ ∀ k ∈ columns, k ∉ seen := by
  induction columns generalizing seen with
  | nil => exact ⟨fun _ => by simp, fun _ => rfl⟩
  | cons k rest ih =>
    rw [requireColumns.go, check_bind_eq_ok, require_eq_ok]
    by_cases hseen : k ∈ seen
    · rw [if_pos hseen]
      exact ⟨fun h => (nomatch h.2), fun h => (h.2.2 k List.mem_cons_self hseen).elim⟩
    · rw [if_neg hseen]
      refine (and_congr_right fun _ => ih).trans ?_
      simp only [List.nodup_cons, List.mem_cons, not_or]
      grind

/-- Columns are good if there are any, each has a good name, and no two have the same. -/
theorem requireColumns_eq_ok {d : Dialect} {owner : Owner} {columns : List String} :
    requireColumns d owner columns = .ok () ↔
      columns ≠ [] ∧ (∀ k ∈ columns, check d k = .ok ()) ∧ columns.Nodup := by
  cases columns with
  | nil => exact ⟨fun h => (nomatch h), fun h => (h.1 rfl).elim⟩
  | cons k rest =>
    rw [requireColumns, requireColumns_go]
    · simp
    · simp

theorem check_of_requireColumns {d : Dialect} {owner : Owner} {columns : List String}
    (h : requireColumns d owner columns = .ok ()) :
    columns ≠ [] ∧ ∀ k ∈ columns, check d k = .ok () :=
  have hall := requireColumns_eq_ok.mp h
  ⟨hall.1, hall.2.1⟩

end Name

namespace Column

variable {d : Dialect} {table : String} {columns : List Column}

theorem check_name {k : Column} (h : k.check d = .ok ()) : Name.check d k.name = .ok () :=
  Name.require_eq_ok.mp (check_bind_eq_ok.mp h).1

theorem go_cons {seen : List String} {k : Column} :
    checkAll.go d table seen (k :: columns) = .ok () ↔ k.check d = .ok () ∧ k.name ∉ seen ∧
      checkAll.go d table (k.name :: seen) columns = .ok () := by
  rw [checkAll.go, check_bind_eq_ok]
  refine and_congr_right fun _ => ?_
  by_cases hseen : k.name ∈ seen
  · rw [if_pos hseen]
    exact ⟨fun h => (nomatch h), fun h => (h.1 hseen).elim⟩
  · rw [if_neg hseen]
    exact ⟨fun h => ⟨hseen, h⟩, fun h => h.2⟩

/-- Fewer names seen before are less of an obstacle. -/
theorem go_anti {seen fewer : List String} (hsub : fewer ⊆ seen)
    (h : checkAll.go d table seen columns = .ok ()) :
    checkAll.go d table fewer columns = .ok () := by
  induction columns generalizing seen fewer with
  | nil => rfl
  | cons k rest ih =>
    obtain ⟨hk, hnew, hrest⟩ := go_cons.mp h
    exact go_cons.mpr ⟨hk, fun hold => hnew (hsub hold), ih (List.cons_subset_cons _ hsub) hrest⟩

theorem go_names {seen : List String} (h : checkAll.go d table seen columns = .ok ()) :
    ∀ k ∈ columns, Name.check d k.name = .ok () ∧ k.name ∉ seen := by
  induction columns generalizing seen with
  | nil => exact fun _ hk => (List.not_mem_nil hk).elim
  | cons k rest ih =>
    obtain ⟨hk, hnew, hrest⟩ := go_cons.mp h
    refine List.forall_mem_cons.mpr ⟨⟨?_, hnew⟩, fun k' hk' => ?_⟩
    · exact check_name hk
    · obtain ⟨hname, hnot⟩ := ih hrest k' hk'
      exact ⟨hname, fun hold => hnot (List.mem_cons_of_mem _ hold)⟩

theorem checkAll_eq_ok :
    checkAll d table columns = .ok () ↔ columns ≠ [] ∧ checkAll.go d table [] columns = .ok () := by
  cases columns with
  | nil => exact ⟨fun h => (nomatch h), fun h => (h.1 rfl).elim⟩
  | cons k rest => exact ⟨fun h => ⟨List.cons_ne_nil k rest, h⟩, fun h => h.2⟩

theorem check_of_checkAll (h : checkAll d table columns = .ok ()) :
    columns ≠ [] ∧ ∀ k ∈ columns, Name.check d k.name = .ok () := by
  obtain ⟨hne, hgo⟩ := checkAll_eq_ok.mp h
  exact ⟨hne, fun k hk => (go_names hgo k hk).1⟩

/-- The first of the columns is like none of the others, and these can do without it. -/
theorem checkAll_cons {k : Column} (h : checkAll d table (k :: columns) = .ok ()) :
    (∀ k' ∈ columns, k'.name ≠ k.name) ∧
      (columns ≠ [] → checkAll d table columns = .ok ()) := by
  obtain ⟨-, -, hrest⟩ := go_cons.mp (checkAll_eq_ok.mp h).2
  refine ⟨fun k' hk' he => ?_, fun hne => ?_⟩
  · exact (go_names hrest k' hk').2 (he ▸ List.mem_cons_self)
  · exact checkAll_eq_ok.mpr ⟨hne, go_anti (List.nil_subset _) hrest⟩

end Column

namespace Table

theorem check_columns {d : Dialect} {t : Table} (h : t.check d = .ok ()) :
    ∀ k ∈ t.columns, Name.check d k.name = .ok () :=
  (Column.check_of_checkAll (check_bind_eq_ok.mp (check_bind_eq_ok.mp h).2).1).2

theorem columns_ne_nil {d : Dialect} {t : Table} (h : t.check d = .ok ()) : t.columns ≠ [] :=
  (Column.check_of_checkAll (check_bind_eq_ok.mp (check_bind_eq_ok.mp h).2).1).1

/-- The columns of a key are declared. -/
theorem exists_of_checkKey {t : Table} {seen keys : List String}
    (h : t.checkKey seen keys = .ok ()) : ∀ k ∈ keys, ∃ c ∈ t.columns, c.name = k := by
  induction keys generalizing seen with
  | nil => exact fun k hk => (List.not_mem_nil hk).elim
  | cons key rest ih =>
    have hrest : ∃ c, t.columns.find? (·.name = key) = some c ∧
        t.checkKey (key :: seen) rest = .ok () := by
      rw [checkKey] at h
      split at h
      · cases h
      · split at h
        · cases h
        · next c hfind =>
          split at h
          · cases h
          · exact ⟨c, hfind, h⟩
    obtain ⟨c, hfind, hrest⟩ := hrest
    have hname : c.name = key := by simpa using List.find?_some hfind
    exact List.forall_mem_cons.mpr ⟨⟨c, List.mem_of_find?_eq_some hfind, hname⟩, ih hrest⟩

end Table

theorem Index.isPart_storedName {d : Dialect} {i : Index} (h : i.check d = .ok ()) :
    ∀ c ∈ (i.storedName d).toList, Name.isPart c = true := by
  have hname : Name.checkDerived i.name = .ok () :=
    mapError_eq_ok.mp (check_bind_eq_ok.mp (check_bind_eq_ok.mp h).2).1
  intro c hc
  rw [storedName, Dialect.toList_fit] at hc
  exact Name.isPart_of_checkDerived hname c (List.mem_of_mem_take hc)

namespace Change

variable {d : Dialect} {x : Change} {l : List Statement}

theorem build_eq_ok :
    x.build d = .ok l ↔ x.check d = .ok () ∧ x.supported d = true ∧ x.statements d = l := by
  rcases x.build_cases d with ⟨f, hc, hb⟩ | ⟨hc, hs, hb⟩ | ⟨hc, hs, hb⟩ <;> rw [hb]
  · simp [hc]
  · simp [hs]
  · simp [hc, hs]

/-- What is left of a name that was cut is a name exactly if the name was one. -/
theorem requireStored_fit (d : Dialect) (kind name : String) :
    requireStored kind (d.fit name) = requireStored kind name := by
  simp only [requireStored, Dialect.fit_eq_empty_iff]
  split
  · next hname => rw [hname, Dialect.fit_eq_empty_iff.mpr rfl]
  · rfl

theorem check_addColumns {table : String} {columns : List Column}
    (h : (addColumns table columns).check d = .ok ()) :
    columns ≠ [] ∧ ∀ k ∈ columns, Name.check d k.name = .ok () :=
  Column.check_of_checkAll (check_bind_eq_ok.mp (check_bind_eq_ok.mp h).2).1

/-- Without the first column the others can be added all the same. -/
theorem check_addColumns_cons {table : String} {k : Column} {rest : List Column}
    (h : (addColumns table (k :: rest)).check d = .ok ()) :
    (∀ k' ∈ rest, k'.name ≠ k.name) ∧
      (rest ≠ [] → (addColumns table rest).check d = .ok ()) := by
  obtain ⟨htable, hothers⟩ := check_bind_eq_ok.mp h
  obtain ⟨hall, hvalues⟩ := check_bind_eq_ok.mp hothers
  obtain ⟨hnew, hrest⟩ := Column.checkAll_cons hall
  refine ⟨hnew, fun hne => ?_⟩
  refine check_bind_eq_ok.mpr ⟨htable, check_bind_eq_ok.mpr ⟨hrest hne, ?_⟩⟩
  unfold requireValues at hvalues ⊢
  rw [List.find?_cons] at hvalues
  split at hvalues
  · cases hvalues
  · next hfind =>
    split at hfind
    · cases hfind
    · rw [hfind]

theorem check_dropColumns {table : String} {columns : List String}
    (h : (dropColumns table columns).check d = .ok ()) :
    columns ≠ [] ∧ ∀ k ∈ columns, Name.check d k = .ok () :=
  Name.check_of_requireColumns (check_bind_eq_ok.mp h).2

theorem check_alterColumnType {table : String} {k : Column}
    (h : (alterColumnType table k).check d = .ok ()) : Name.check d k.name = .ok () :=
  Column.check_name (check_bind_eq_ok.mp h).2

/-- A change without flaws has a statement at least. -/
theorem build_ne_nil (h : x.build d = .ok l) : l ≠ [] := by
  obtain ⟨hc, -, rfl⟩ := build_eq_ok.mp h
  cases x with
  | addColumns table columns =>
    have hne := (check_addColumns hc).1
    simp only [statements]
    split
    · exact List.cons_ne_nil _ _
    · exact fun hnil => hne (List.map_eq_nil_iff.mp hnil)
  | dropColumns table columns =>
    have hne := (check_dropColumns hc).1
    simp only [statements]
    split
    · exact List.cons_ne_nil _ _
    · exact fun hnil => hne (List.map_eq_nil_iff.mp hnil)
  | _ => exact List.cons_ne_nil _ _

end Change
end SchemaMigration
