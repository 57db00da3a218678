import SchemaMigration.Version

/-!
# The text of versions

The text of a version reads back as that version (`Version.read_text`), so distinct versions have
distinct texts.
-/
namespace SchemaMigration
namespace Version

theorem isBlank_of_isDigit {c : Char} (h : c.isDigit = true) : Text.isBlank c = false := by
  have hrange : 48 ≤ c.toNat ∧ c.toNat ≤ 57 := by
    rw [Char.isDigit, Bool.and_eq_true, decide_eq_true_eq, decide_eq_true_eq] at h
    exact h
  simp only [Text.isBlank, Bool.or_eq_false_iff, Bool.and_eq_false_iff, decide_eq_false_iff_not]
  omega

/-- Nothing is trimmed off digits. -/
theorem trim_digits {l : List Char} (h : ∀ c ∈ l, c.isDigit = true) : Text.trim l = l := by
  have hkeep : ∀ k : List Char, (∀ c ∈ k, c.isDigit = true) → k.dropWhile Text.isBlank = k := by
    intro k hk
    cases k with
    | nil => rfl
    | cons c k =>
      exact List.dropWhile_cons_of_neg (by simp [isBlank_of_isDigit (hk c List.mem_cons_self)])
  rw [Text.trim, hkeep l h, hkeep l.reverse fun c hc => h c (List.mem_reverse.mp hc),
    List.reverse_reverse]

/-- Digits never make a number smaller. -/
theorem le_ofDigitChars (l : List Char) (n : Nat) : n ≤ Nat.ofDigitChars 10 l n := by
  induction l generalizing n with
  | nil => simp
  | cons c l ih =>
    rw [Nat.ofDigitChars_cons]
    have hrest := ih (10 * n + (c.toNat - '0'.toNat))
    omega

/-- Digits are read as the number that they stand for, if it is in range. -/
theorem readDigits_eq_ok {l : List Char} (hl : ∀ c ∈ l, c.isDigit = true) (sofar v : Version)
    (hv : Nat.ofDigitChars 10 l sofar.number = v.number) : readDigits sofar l = .ok v := by
  induction l generalizing sofar with
  | nil =>
    rw [Nat.ofDigitChars_nil] at hv
    rw [readDigits, Version.ext hv]
  | cons c l ih =>
    rw [Nat.ofDigitChars_cons, Nat.mul_comm] at hv
    -- the number up to here is no larger than the whole, which is in range
    have hsofar : sofar.number * 10 + (c.toNat - '0'.toNat) < 0x10000000000000000 := by
      have hle := le_ofDigitChars l (sofar.number * 10 + (c.toNat - '0'.toNat))
      have hrange := v.inRange
      omega
    rw [readDigits, if_pos (hl c List.mem_cons_self), dif_pos hsofar]
    exact ih (fun d hd => hl d (List.mem_cons_of_mem c hd)) ⟨_, hsofar⟩ hv

theorem readNumeral_eq_readDigits {l : List Char} (hne : l ≠ [])
    (hl : ∀ c ∈ l, c.isDigit = true) : readNumeral l = readDigits zero l := by
  cases l with
  | nil => exact (hne rfl).elim
  | cons c l =>
    have hplus : c ≠ '+' := by
      rintro rfl
      exact absurd (hl '+' List.mem_cons_self) (by decide)
    unfold readNumeral
    split
    · contradiction
    · next heq => exact (hplus (List.cons.inj heq).1).elim
    · next heq => exact (hplus (List.cons.inj heq).1).elim
    · rfl

/-- **The text of a version reads back as that version.** -/
theorem read_text (v : Version) : read v.text = .ok v := by
  have hdigits : ∀ c ∈ Nat.toDigits 10 v.number, c.isDigit = true := fun c hc =>
    Nat.isDigit_of_mem_toDigits (by decide) (by decide) hc
  rw [read, text, Nat.toString_eq_repr, Nat.toList_repr, trim_digits hdigits,
    readNumeral_eq_readDigits Nat.toDigits_ne_nil hdigits]
  exact readDigits_eq_ok hdigits zero v Nat.ofDigitChars_ten_toDigits

theorem text_injective {v w : Version} (h : v.text = w.text) : v = w := by
  have hv := read_text v
  rw [h, read_text w] at hv
  exact (Except.ok.inj hv).symm

end Version
end SchemaMigration
