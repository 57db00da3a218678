import SchemaMigration.Text.CaseTable

/-!
# Lower case

The full lower-case mapping of Unicode, independent of language.  Two rules go beyond a letter by
letter mapping: `İ` becomes an `i` followed by a combining dot, and a capital sigma at the end of a
word becomes the final form `ς`.  A text of ASCII without capital letters, such as every name that
passes the checks, is its own lower-case form (`lower_eq_self`).
-/
namespace SchemaMigration
namespace Text

/-- Whether the character lies in one of the ranges. -/
def inRanges (ranges : List (Nat × Nat)) (c : Char) : Bool :=
  ranges.any fun r => r.1 ≤ c.toNat && c.toNat ≤ r.2

/-- Whether each range ends before the next one starts. -/
def ascending : List (Nat × Nat) → Bool
  | [] => true
  | [r] => r.1 ≤ r.2
  | r :: s :: rest => r.1 ≤ r.2 && r.2 < s.1 && ascending (s :: rest)

example : ascending casedRanges = true := by decide +kernel

example : ascending caseIgnorableRanges = true := by decide +kernel

example : ascending (caseRuns.map fun r => (r.first, r.first)) = true := by decide +kernel

/-- Whether the run maps the character. -/
def CaseRun.covers (r : CaseRun) (c : Char) : Bool :=
  r.first ≤ c.toNat && c.toNat ≤ r.last && (c.toNat - r.first) % r.step = 0

/-- The lower-case form of one character, apart from the word-final sigma. -/
def lowerChar (c : Char) : List Char :=
  if c.toNat < 0x80 then [c.toLower]
  else if c = 'İ' then ['i', '\u0307']
  else
    match caseRuns.find? (·.covers c) with
    | some r => [Char.ofNat (r.lower + (c.toNat - r.first))]
    | none => [c]

/-- Past the characters that word-final rules ignore, the next one is cased. -/
def meetsCased (s : List Char) : Bool :=
  match s.dropWhile (inRanges caseIgnorableRanges) with
  | c :: _ => inRanges casedRanges c
  | [] => false

/-- Lowers a text, given what stands before it in reverse. -/
def lowerAfter (before : List Char) : List Char → List Char
  | [] => []
  | c :: rest =>
    (if c = 'Σ' then
      if meetsCased before && !meetsCased rest then ['ς'] else ['σ']
    else lowerChar c) ++ lowerAfter (c :: before) rest

/-- The text in lower case. -/
def lower (s : String) : String :=
  String.ofList (lowerAfter [] s.toList)

/-- A character of ASCII that is no capital letter is its own lower-case form. -/
theorem lowerChar_of_not_isUpper {c : Char} (h : c.toNat < 0x80) (hu : c.isUpper = false) :
    lowerChar c = [c] := by
  have : c.toLower = c := dif_neg (of_decide_eq_false hu)
  simp [lowerChar, h, this]

/-- A text of ASCII without capital letters stays as it is. -/
theorem lower_eq_self {s : String} (h : ∀ c ∈ s.toList, c.toNat < 0x80 ∧ c.isUpper = false) :
    lower s = s := by
  have key : ∀ (t before : List Char),
      (∀ c ∈ t, c.toNat < 0x80 ∧ c.isUpper = false) → lowerAfter before t = t := by
    intro t
    induction t with
    | nil => intros; rfl
    | cons c rest ih =>
      intro before ht
      have hc := ht c (by simp)
      have hs : c ≠ 'Σ' := by
        rintro rfl
        exact absurd hc.1 (by decide)
      rw [lowerAfter, if_neg hs, lowerChar_of_not_isUpper hc.1 hc.2,
        ih _ fun d hd => ht d (by simp [hd])]
      rfl
  simp [lower, key _ _ h]

end Text
end SchemaMigration
