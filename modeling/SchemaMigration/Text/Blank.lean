/-!
# Blanks

White space as the Unicode property `White_Space` has it: twenty-five characters.  Version texts
and step descriptions are looked at without the blanks around them.
-/
namespace SchemaMigration
namespace Text

/-- The twenty-five characters of the property `White_Space`. -/
def isBlank (c : Char) : Bool :=
  let n := c.toNat
  (9 ≤ n && n ≤ 13) || n = 0x20 || n = 0x85 || n = 0xa0 || n = 0x1680 ||
    (0x2000 ≤ n && n ≤ 0x200a) || n = 0x2028 || n = 0x2029 || n = 0x202f || n = 0x205f || n = 0x3000

/-- The text without the blanks at its two ends. -/
def trim (s : List Char) : List Char :=
  ((s.dropWhile isBlank).reverse.dropWhile isBlank).reverse

/-- Whether nothing but blanks is there. -/
def isAllBlank (s : List Char) : Bool :=
  s.all isBlank

theorem isAllBlank_iff {s : List Char} : isAllBlank s = true ↔ ∀ c ∈ s, isBlank c = true := by
  simp [isAllBlank]

end Text
end SchemaMigration
