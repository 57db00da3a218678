import SchemaMigration.Text.Blank

/-!
# Versions

A version is a number below 2⁶⁴.  Its text is the plain decimal number; reading is a little more
generous: blanks around the number, one plus sign and leading zeros are accepted.

A `VersionSet` is kept as an ascending list; its members are those that were put in (`mem_insert`,
`mem_ofList`).
-/
namespace SchemaMigration

/-- The version of a schema.  Its number has at most 64 binary digits. -/
structure Version where
  number : Nat
  inRange : number < 0x10000000000000000
  deriving DecidableEq

/-- Why a text is no version. -/
inductive NumeralFlaw
  | empty
  | badDigit
  | tooLarge
  deriving DecidableEq

/-- The complaint in words. -/
def NumeralFlaw.message : NumeralFlaw → String
  | empty => "cannot parse integer from empty string"
  | badDigit => "invalid digit found in string"
  | tooLarge => "number too large to fit in target type"

namespace Version

instance : LT Version := ⟨fun v w => v.number < w.number⟩

instance : DecidableLT Version := fun v w => Nat.decLt v.number w.number

/-- The version below all others. -/
def zero : Version := ⟨0, by decide⟩

/-- The decimal number. -/
def text (v : Version) : String :=
  toString v.number

theorem lt_def {v w : Version} : v < w ↔ v.number < w.number := Iff.rfl

theorem ext {v w : Version} (h : v.number = w.number) : v = w := by
  cases v; cases w; cases h; rfl

theorem lt_trans {u v w : Version} (h : u < v) (h' : v < w) : u < w :=
  Nat.lt_trans h h'

/-- Reads digits after those that gave `sofar`.  Of two flaws the leftmost counts, and a character
that is no digit counts before the size of the number up to it. -/
def readDigits (sofar : Version) : List Char → Except NumeralFlaw Version
  | [] => .ok sofar
  | c :: rest =>
    if c.isDigit then
      let n := sofar.number * 10 + (c.toNat - '0'.toNat)
      if h : n < 0x10000000000000000 then readDigits ⟨n, h⟩ rest else .error .tooLarge
    else .error .badDigit

/-- Reads a number without the blanks around it. -/
def readNumeral : List Char → Except NumeralFlaw Version
  | [] => .error .empty
  | ['+'] => .error .badDigit
  | '+' :: digits => readDigits zero digits
  | digits => readDigits zero digits

/-- Reads a version. -/
def read (s : String) : Except NumeralFlaw Version :=
  readNumeral (Text.trim s.toList)

end Version

/-- A finite set of versions, kept in ascending order. -/
structure VersionSet where
  toList : List Version
  ascending : toList.Pairwise (· < ·)

namespace VersionSet

/-- Puts a version in its place, unless it is there already. -/
def place (v : Version) : List Version → List Version
  | [] => [v]
  | w :: rest =>
    if v < w then v :: w :: rest
    else if v = w then w :: rest
    else w :: place v rest

theorem mem_place {u v : Version} {l : List Version} : u ∈ place v l ↔ u = v ∨ u ∈ l := by
  induction l with
  | nil => simp [place]
  | cons w rest ih =>
    rw [place]
    split
    · simp
    · split
      · next h => simp [h]
      · simp [ih]; grind

theorem place_ascending (v : Version) {l : List Version} (h : l.Pairwise (· < ·)) :
    (place v l).Pairwise (· < ·) := by
  induction l with
  | nil => simp [place]
  | cons w rest ih =>
    rw [place]
    rw [List.pairwise_cons] at h
    split
    · next hv =>
      refine List.pairwise_cons.2 ⟨fun u hu => ?_, List.pairwise_cons.2 h⟩
      rcases List.mem_cons.1 hu with rfl | hu
      · exact hv
      · exact Version.lt_trans hv (h.1 u hu)
    · split
      · exact List.pairwise_cons.2 h
      · next hv hne =>
        refine List.pairwise_cons.2 ⟨fun u hu => ?_, ih h.2⟩
        rcases mem_place.1 hu with rfl | hu
        · have : ¬ u.number = w.number := fun he => hne (Version.ext he)
          simp only [Version.lt_def] at hv ⊢
          omega
        · exact h.1 u hu

/-- The set without members. -/
def empty : VersionSet := ⟨[], .nil⟩

/-- The set with one more member. -/
def insert (v : Version) (s : VersionSet) : VersionSet :=
  ⟨place v s.toList, place_ascending v s.ascending⟩

/-- The members of a list. -/
def ofList (l : List Version) : VersionSet :=
  l.foldr insert empty

instance : Membership Version VersionSet := ⟨fun s v => v ∈ s.toList⟩

instance (v : Version) (s : VersionSet) : Decidable (v ∈ s) :=
  inferInstanceAs (Decidable (v ∈ s.toList))

/-- The largest member. -/
def max? (s : VersionSet) : Option Version :=
  s.toList.getLast?

/-- The number of members. -/
def size (s : VersionSet) : Nat :=
  s.toList.length

theorem mem_insert {u v : Version} {s : VersionSet} : u ∈ s.insert v ↔ u = v ∨ u ∈ s :=
  mem_place

theorem mem_ofList {v : Version} {l : List Version} : v ∈ ofList l ↔ v ∈ l := by
  induction l with
  | nil => exact Iff.rfl
  | cons w rest ih => rw [ofList, List.foldr_cons, ← ofList, mem_insert, ih, List.mem_cons]

end VersionSet
end SchemaMigration
