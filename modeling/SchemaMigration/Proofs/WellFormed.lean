import Mathlib.Data.List.Nodup
import SchemaMigration.Proofs.Checks

/-!
# Well-formed changes

The rules for descriptions, said once without the order in which they are checked: what a good name
is (`Name.Good`), a good column (`Column.Good`), a good list of columns, and from these what makes a
change well formed (`Change.WellFormed`).  The checks accept what keeps the rules and nothing else
(`Change.check_eq_ok_iff`), one equivalence for each kind of description.

A change is built exactly if it is well formed and the dialect can carry it out.  One that is not
well formed is refused for a flaw, even where the dialect could not carry it out
(`Change.build_exact`).
-/
namespace SchemaMigration

namespace Name

/-- A letter from `a` to `z`. -/
def IsLetter (c : Char) : Prop :=
  'a' ≤ c ∧ c ≤ 'z'

/-- A letter from `a` to `z`, a digit or an underscore. -/
def IsAllowed (c : Char) : Prop :=
  IsLetter c ∨ ('0' ≤ c ∧ c ≤ '9') ∨ c = '_'

/-- A name that can be used as it is. -/
structure Good (d : Dialect) (s : String) : Prop where
  /-- There is a first character, and it is a letter. -/
  start : ∃ first, s.toList.head? = some first ∧ IsLetter first
  allowed : ∀ c ∈ s.toList, IsAllowed c
  fits : s.utf8ByteSize ≤ d.nameLimit

/-- A name that may still be cut. -/
structure GoodDerived (s : String) : Prop where
  nonempty : s ≠ ""
  allowed : ∀ c ∈ s.toList, IsAllowed c

/-- Names of existing columns, as an index, a constraint or a drop lists them. -/
structure GoodColumns (d : Dialect) (names : List String) : Prop where
  nonempty : names ≠ []
  good : ∀ s ∈ names, Good d s
  distinct : names.Nodup

end Name

namespace ColumnType

/-- The sizes that a type is declared with are in range. -/
def InRange : ColumnType → Prop
  | varchar size => 1 ≤ size ∧ size ≤ 4000
  | decimal precision scale => 1 ≤ precision ∧ precision ≤ 38 ∧ scale ≤ precision
  | _ => True

end ColumnType

namespace DefaultValue

/-- The values that can stand as a default in a column of a type. -/
inductive Suits : DefaultValue → ColumnType → Prop
  | bool (value : Bool) : Suits (.bool value) .boolean
  | integer (value : Int) : Suits (.integer value) .integer
  | bigInteger (value : Int) : Suits (.integer value) .bigInteger
  | text {value : String} {size : Nat} (h : value.length ≤ size) :
    Suits (.text value) (.varchar size)

end DefaultValue

namespace Column

/-- A column that a table can have. -/
structure Good (d : Dialect) (k : Column) : Prop where
  name : Name.Good d k.name
  type : k.type.InRange
  default : ∀ value, k.default = some value → value.Suits k.type

/-- Columns that a table can have together. -/
structure GoodTogether (d : Dialect) (columns : List Column) : Prop where
  nonempty : columns ≠ []
  good : ∀ k ∈ columns, k.Good d
  distinct : (columns.map (·.name)).Nodup

end Column

/-- The primary key lists columns of the table without null values, none of them twice. -/
structure Table.GoodKey (t : Table) : Prop where
  distinct : t.primaryKey.Nodup
  required : ∀ key ∈ t.primaryKey, ∃ k ∈ t.columns, k.name = key ∧ k.nullable = false

namespace Change

/-- The change is described as it should be. -/
def WellFormed (d : Dialect) : Change → Prop
  | createTable t => Name.Good d t.name ∧ Column.GoodTogether d t.columns ∧ t.GoodKey
  | dropTable table => Name.Good d table
  | createIndex i => Name.Good d i.table ∧ Name.GoodDerived i.name ∧ Name.GoodColumns d i.columns
  | dropIndex table name => Name.Good d table ∧ name ≠ ""
  | addColumns table columns => Name.Good d table ∧ Column.GoodTogether d columns ∧
      ∀ k ∈ columns, k.nullable = true ∨ k.default ≠ none
  | dropColumns table columns => Name.Good d table ∧ Name.GoodColumns d columns
  | alterColumnType table k => Name.Good d table ∧ k.Good d
  | addConstraint k => Name.Good d k.table ∧ Name.GoodDerived k.name ∧ Name.GoodColumns d k.columns
  | dropConstraint table name _ => Name.Good d table ∧ name ≠ ""

/-- The dialect can carry out changes of this kind: SQLite leaves the types of columns and the
constraints of a table as they are. -/
def CarriedOutBy (d : Dialect) : Change → Prop
  | alterColumnType _ _ | addConstraint _ | dropConstraint _ _ _ => d ≠ .sqlite
  | _ => True

end Change

theorem guard_eq_ok_iff {ε : Type} {p : Prop} [Decidable p] {e : ε} :
    (if p then .error e else .ok () : Except ε Unit) = .ok () ↔ ¬ p := by
  by_cases h : p <;> simp [h]

/-! ## Names -/

namespace Name

variable {d : Dialect} {s : String}

theorem isLower_iff {c : Char} : c.isLower = true ↔ IsLetter c := by
  show (decide ('a' ≤ c) && decide (c ≤ 'z')) = true ↔ _
  rw [Bool.and_eq_true, decide_eq_true_eq, decide_eq_true_eq, IsLetter]

theorem isPart_iff {c : Char} : isPart c = true ↔ IsAllowed c := by
  simp only [isPart, IsAllowed, Bool.or_eq_true, isLower_iff, decide_eq_true_eq, or_assoc]
  simp [Char.isDigit, Char.le_def]

theorem firstStranger?_eq_none_iff : firstStranger? s = none ↔ ∀ c ∈ s.toList, IsAllowed c := by
  simp [firstStranger?, isPart_iff]

theorem check_eq_ok_iff : check d s = .ok () ↔ Good d s := by
  constructor
  · intro h
    unfold check at h
    split at h
    · cases h
    next first rest hchars =>
    split at h
    · cases h
    next hstart =>
    split at h
    · cases h
    next hnone =>
    split at h
    · cases h
    next hfits =>
    exact ⟨⟨first, by rw [hchars]; rfl, isLower_iff.mp (by simpa using hstart)⟩,
      firstStranger?_eq_none_iff.mp hnone, Nat.le_of_not_lt hfits⟩
  · rintro ⟨⟨first, hfirst, hletter⟩, hallowed, hfits⟩
    obtain ⟨rest, hchars⟩ := List.head?_eq_some_iff.mp hfirst
    unfold check
    rw [hchars]
    simp only [isLower_iff.mpr hletter, firstStranger?_eq_none_iff.mpr hallowed, Bool.not_true,
      Bool.false_eq_true, if_false, if_neg (Nat.not_lt.mpr hfits)]

theorem checkDerived_eq_ok_iff : checkDerived s = .ok () ↔ GoodDerived s := by
  constructor
  · intro h
    unfold checkDerived at h
    split at h
    · cases h
    next first rest hchars =>
    split at h
    · cases h
    next hnone =>
    refine ⟨fun he => ?_, firstStranger?_eq_none_iff.mp hnone⟩
    rw [he] at hchars
    cases hchars
  · rintro ⟨hne, hallowed⟩
    unfold checkDerived
    cases hchars : s.toList with
    | nil => exact (hne (String.toList_eq_nil_iff.mp hchars)).elim
    | cons first rest => simp only [firstStranger?_eq_none_iff.mpr hallowed]

theorem requireDerived_eq_ok_iff {kind : String} :
    requireDerived kind s = .ok () ↔ GoodDerived s :=
  mapError_eq_ok.trans checkDerived_eq_ok_iff

theorem require_eq_ok_iff {kind : String} : require d kind s = .ok () ↔ Good d s :=
  require_eq_ok.trans check_eq_ok_iff

theorem requireColumns_eq_ok_iff {owner : Owner} {names : List String} :
    requireColumns d owner names = .ok () ↔ GoodColumns d names := by
  rw [requireColumns_eq_ok]
  simp only [check_eq_ok_iff]
  exact ⟨fun ⟨hne, hgood, hnodup⟩ => ⟨hne, hgood, hnodup⟩,
    fun ⟨hne, hgood, hnodup⟩ => ⟨hne, hgood, hnodup⟩⟩

end Name

/-! ## Columns -/

theorem DefaultValue.Suits.of_fits {value : DefaultValue} {type : ColumnType}
    (hfits : value.fits type = true)
    (hlength : ∀ text size, value = .text text → type = .varchar size → text.length ≤ size) :
    value.Suits type := by
  unfold fits at hfits
  split at hfits
  · exact .bool _
  · exact .integer _
  · exact .bigInteger _
  · exact .text (hlength _ _ rfl rfl)
  · cases hfits

namespace Column

variable {d : Dialect} {k : Column} {columns : List Column}

theorem checkType_eq_ok_iff : k.checkType = .ok () ↔ k.type.InRange := by
  unfold checkType ColumnType.InRange
  cases k.type with
  | varchar size =>
    rw [guard_eq_ok_iff, ColumnType.maxVarcharSize]
    omega
  | decimal precision scale =>
    rw [guard_eq_ok_iff, ColumnType.maxDecimalPrecision]
    omega
  | _ => exact ⟨fun _ => trivial, fun _ => rfl⟩

theorem checkDefault_eq_ok_iff :
    k.checkDefault = .ok () ↔ ∀ value, k.default = some value → value.Suits k.type := by
  unfold checkDefault
  cases hdefault : k.default with
  | none => simp
  | some value =>
    simp only [Option.some.injEq, forall_eq']
    generalize k.type = type
    constructor
    · intro h
      split at h
      · next hfits =>
        refine .of_fits hfits fun text size hvalue htype => ?_
        subst hvalue htype
        exact Nat.le_of_not_lt (guard_eq_ok_iff.mp h)
      · cases h
    · intro hsuits
      cases hsuits with
      | text hlength => exact guard_eq_ok_iff.mpr (Nat.not_lt.mpr hlength)
      | _ => rfl

theorem check_eq_ok_iff : k.check d = .ok () ↔ k.Good d := by
  rw [check, check_bind_eq_ok, check_bind_eq_ok, Name.require_eq_ok_iff, checkType_eq_ok_iff,
    checkDefault_eq_ok_iff]
  exact ⟨fun ⟨hname, htype, hdefault⟩ => ⟨hname, htype, hdefault⟩,
    fun ⟨hname, htype, hdefault⟩ => ⟨hname, htype, hdefault⟩⟩

theorem go_eq_ok_iff {table : String} {seen : List String} :
    checkAll.go d table seen columns = .ok () ↔ (∀ k ∈ columns, k.Good d) ∧
      (columns.map (·.name)).Nodup ∧ ∀ k ∈ columns, k.name ∉ seen := by
  induction columns generalizing seen with
  | nil => exact ⟨fun _ => by simp, fun _ => rfl⟩
  | cons k rest ih =>
    rw [go_cons, check_eq_ok_iff, ih]
    simp only [List.map_cons, List.nodup_cons, List.mem_map, List.mem_cons, not_or, not_exists,
      not_and, forall_eq_or_imp]
    grind

theorem checkAll_eq_ok_iff {table : String} :
    checkAll d table columns = .ok () ↔ GoodTogether d columns := by
  rw [checkAll_eq_ok, go_eq_ok_iff]
  exact ⟨fun ⟨hne, hgood, hnodup, _⟩ => ⟨hne, hgood, hnodup⟩,
    fun ⟨hne, hgood, hnodup⟩ => ⟨hne, hgood, hnodup, fun _ _ => List.not_mem_nil⟩⟩

end Column

/-! ## Keys -/

namespace Table

/-- With distinct names, looking for a name finds the column that has it. -/
theorem find?_name {columns : List Column} (hdistinct : (columns.map (·.name)).Nodup) {key : String}
    {k : Column} : columns.find? (·.name = key) = some k ↔ k ∈ columns ∧ k.name = key := by
  constructor
  · intro h
    exact ⟨List.mem_of_find?_eq_some h, by simpa using List.find?_some h⟩
  · rintro ⟨hk, rfl⟩
    cases hfind : columns.find? (·.name = k.name) with
    | none => exact (List.find?_eq_none.mp hfind k hk (decide_eq_true rfl)).elim
    | some k' =>
      have hname : k'.name = k.name := by simpa using List.find?_some hfind
      rw [List.inj_on_of_nodup_map hdistinct (List.mem_of_find?_eq_some hfind) hk hname]

variable {t : Table} {seen keys : List String}

theorem checkKey_cons {key : String} : t.checkKey seen (key :: keys) = .ok () ↔ key ∉ seen ∧
    (∃ k, t.columns.find? (·.name = key) = some k ∧ k.nullable = false) ∧
      t.checkKey (key :: seen) keys = .ok () := by
  rw [checkKey]
  by_cases hseen : key ∈ seen
  · rw [if_pos hseen]
    constructor
    · intro h
      cases h
    · intro h
      exact (h.1 hseen).elim
  rw [if_neg hseen]
  cases hfind : t.columns.find? (·.name = key) with
  | none =>
    constructor
    · intro h
      cases h
    · rintro ⟨-, ⟨k, hk, -⟩, -⟩
      cases hk
  | some k =>
    cases hnull : k.nullable with
    | true =>
      simp only [hnull, if_true]
      constructor
      · intro h
        cases h
      · rintro ⟨-, ⟨k', hk', hrequired⟩, -⟩
        cases hk'
        exact (Bool.false_ne_true (hrequired.symm.trans hnull)).elim
    | false =>
      simp only [hnull, Bool.false_eq_true, if_false]
      constructor
      · intro h
        exact ⟨hseen, ⟨k, rfl, hnull⟩, h⟩
      · intro h
        exact h.2.2

theorem checkKey_eq_ok_iff (hdistinct : (t.columns.map (·.name)).Nodup) :
    t.checkKey seen keys = .ok () ↔ keys.Nodup ∧ (∀ key ∈ keys, key ∉ seen) ∧
      ∀ key ∈ keys, ∃ k ∈ t.columns, k.name = key ∧ k.nullable = false := by
  induction keys generalizing seen with
  | nil => exact ⟨fun _ => by simp, fun _ => rfl⟩
  | cons key rest ih =>
    rw [checkKey_cons, ih]
    simp only [find?_name hdistinct, List.nodup_cons, List.mem_cons, not_or, forall_eq_or_imp]
    grind

theorem check_eq_ok_iff {d : Dialect} : t.check d = .ok () ↔
    Name.Good d t.name ∧ Column.GoodTogether d t.columns ∧ t.GoodKey := by
  rw [check, check_bind_eq_ok, check_bind_eq_ok, Name.require_eq_ok_iff, Column.checkAll_eq_ok_iff]
  refine and_congr_right fun _ => and_congr_right fun hcolumns => ?_
  rw [checkKey_eq_ok_iff hcolumns.distinct]
  exact ⟨fun ⟨hnodup, _, hrequired⟩ => ⟨hnodup, hrequired⟩,
    fun ⟨hnodup, hrequired⟩ => ⟨hnodup, fun _ _ => List.not_mem_nil, hrequired⟩⟩

end Table

/-! ## Changes -/

namespace Change

variable {d : Dialect} {c : Change}

theorem requireStored_eq_ok_iff {kind name : String} :
    requireStored kind name = .ok () ↔ name ≠ "" :=
  guard_eq_ok_iff

theorem requireValues_eq_ok_iff {table : String} {columns : List Column} :
    requireValues table columns = .ok () ↔
      ∀ k ∈ columns, k.nullable = true ∨ k.default ≠ none := by
  have hlacking : ∀ k : Column, (!k.nullable && k.default.isNone) = true ↔
      ¬ (k.nullable = true ∨ k.default ≠ none) := fun k => by simp
  unfold requireValues
  cases hfind : columns.find? fun k => !k.nullable && k.default.isNone with
  | some k =>
    have hk : (!k.nullable && k.default.isNone) = true :=
      List.find?_some (p := fun k : Column => !k.nullable && k.default.isNone) hfind
    refine ⟨nofun, fun h => ?_⟩
    exact ((hlacking k).mp hk (h k (List.mem_of_find?_eq_some hfind))).elim
  | none =>
    refine ⟨fun _ k hk => ?_, fun _ => rfl⟩
    have hnot := List.find?_eq_none.mp hfind k hk
    exact not_not.mp fun h => hnot ((hlacking k).mpr h)

/-- **The checks accept what is well formed**, and nothing else. -/
theorem check_eq_ok_iff : c.check d = .ok () ↔ c.WellFormed d := by
  cases c with
  | createTable t => exact Table.check_eq_ok_iff
  | dropTable table => exact Name.require_eq_ok_iff
  | createIndex i =>
    rw [check, Index.check, check_bind_eq_ok, check_bind_eq_ok, Name.require_eq_ok_iff,
      Name.requireDerived_eq_ok_iff, Name.requireColumns_eq_ok_iff, WellFormed]
  | dropIndex table name =>
    rw [check, check_bind_eq_ok, Name.require_eq_ok_iff, requireStored_eq_ok_iff, WellFormed]
  | addColumns table columns =>
    rw [check, check_bind_eq_ok, check_bind_eq_ok, Name.require_eq_ok_iff,
      Column.checkAll_eq_ok_iff, requireValues_eq_ok_iff, WellFormed]
  | dropColumns table columns =>
    rw [check, check_bind_eq_ok, Name.require_eq_ok_iff, Name.requireColumns_eq_ok_iff, WellFormed]
  | alterColumnType table k =>
    rw [check, check_bind_eq_ok, Name.require_eq_ok_iff, Column.check_eq_ok_iff, WellFormed]
  | addConstraint k =>
    rw [check, Constraint.check, check_bind_eq_ok, check_bind_eq_ok, Name.require_eq_ok_iff,
      Name.requireDerived_eq_ok_iff, Name.requireColumns_eq_ok_iff, WellFormed]
  | dropConstraint table name kind =>
    rw [check, check_bind_eq_ok, Name.require_eq_ok_iff, requireStored_eq_ok_iff, WellFormed]

theorem supported_iff : c.supported d = true ↔ c.CarriedOutBy d := by
  cases c <;> cases d <;> simp [supported, CarriedOutBy, Dialect.altersColumnTypes,
    Dialect.altersConstraints]

/-- **Which changes are built.**  Those that are well formed and that the dialect carries out; the
others are refused for a flaw if they have one, and as unsupported if they have none. -/
theorem build_exact (d : Dialect) (c : Change) :
    ((∃ l, c.build d = .ok l) ↔ c.WellFormed d ∧ c.CarriedOutBy d) ∧
      ((∃ flaw, c.build d = .error (.malformed flaw)) ↔ ¬ c.WellFormed d) ∧
      (c.build d = .error (.unsupported c.operation d) ↔ c.WellFormed d ∧ ¬ c.CarriedOutBy d) ∧
      ∀ e, c.build d = .error e →
        (∃ flaw, e = .malformed flaw) ∨ e = .unsupported c.operation d := by
  rw [← check_eq_ok_iff, ← supported_iff]
  rcases c.build_cases d with ⟨flaw, hcheck, hbuild⟩ | ⟨hcheck, hsupported, hbuild⟩ |
    ⟨hcheck, hsupported, hbuild⟩
  · rw [hbuild, hcheck]
    simp
  · rw [hbuild, hcheck, hsupported]
    simp
  · rw [hbuild, hcheck, hsupported]
    simp

end Change
end SchemaMigration
