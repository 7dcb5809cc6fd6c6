import Mathlib.Data.List.Induction

namespace Stencil.Text

variable {c : Char} {digits : List Char}

theorem isDigit_toDigits (n : Nat) : ∀ c ∈ Nat.toDigits 10 n, c.isDigit = true := by
  intro c member
  exact Nat.isDigit_of_mem_toDigits (by decide) (by decide) member

theorem exists_cons_toDigits (n : Nat) :
    ∃ c more, Nat.toDigits 10 n = c :: more ∧ c.isDigit = true := by
  cases digits : Nat.toDigits 10 n with
  | nil => exact absurd digits Nat.toDigits_ne_nil
  | cons c more => exact ⟨c, more, rfl, isDigit_toDigits n c (by simp [digits])⟩

/-- Digits are written without a leading zero. -/
theorem zero_of_head?_toDigits {n : Nat} (zero : (Nat.toDigits 10 n).head? = some '0') :
    n = 0 := by
  induction n using Nat.strongRecOn with
  | ind n ih =>
      by_cases small : n < 10
      · rw [Nat.toDigits_of_lt_base small] at zero
        have digits : ∀ digit < 10, [digit.digitChar].head? = some '0' → digit = 0 := by decide
        exact digits n small zero
      · rw [Nat.toDigits_of_base_le (by decide) (by omega)] at zero
        obtain ⟨first, more, written, _⟩ := exists_cons_toDigits (n / 10)
        rw [written, List.cons_append, List.head?_cons] at zero
        have quotient := ih (n / 10) (by omega) (by rw [written, List.head?_cons, zero])
        omega

theorem exists_digitChar (digit : c.isDigit = true) : ∃ n < 10, n.digitChar = c := by
  simp only [Char.isDigit, Bool.and_eq_true, decide_eq_true_eq] at digit
  have low : 48 ≤ c.toNat := UInt32.le_iff_toNat_le.mp digit.1
  have high : c.toNat ≤ 57 := UInt32.le_iff_toNat_le.mp digit.2
  refine ⟨c.toNat - 48, by omega, Char.toNat_inj.mp ?_⟩
  rw [Nat.toNat_digitChar_of_lt_ten (by omega)]
  omega

/-- Any digits are those of the number that they stand for, with zeros before them. -/
theorem exists_zeros (all : ∀ c ∈ digits, c.isDigit = true) (present : digits ≠ []) :
    ∃ zeros, digits =
      List.replicate zeros '0' ++ Nat.toDigits 10 (Nat.ofDigitChars 10 digits 0) := by
  -- from the end, since the last digit is the remainder by ten
  induction digits using List.reverseRecOn with
  | nil => exact absurd rfl present
  | append_singleton init last ih =>
      obtain ⟨n, small, rfl⟩ := exists_digitChar (all last (by simp))
      have value : Nat.ofDigitChars 10 (init ++ [n.digitChar]) 0 =
          10 * Nat.ofDigitChars 10 init 0 + n := by
        have digit := Nat.toNat_digitChar_sub_48_of_lt_ten small
        simpa [Nat.ofDigitChars] using digit
      rw [value, ← Nat.toDigits_of_lt_base small]
      by_cases first : init = []
      · exact ⟨0, by simp [first, Nat.ofDigitChars]⟩
      · obtain ⟨zeros, written⟩ := ih (fun c member => all c (by simp [member])) first
        by_cases zero : Nat.ofDigitChars 10 init 0 = 0
        · refine ⟨zeros + 1, ?_⟩
          rw [zero, Nat.toDigits_zero] at written
          rw [zero, Nat.mul_zero, Nat.zero_add, List.replicate_succ', ← written]
        · refine ⟨zeros, ?_⟩
          rw [← Nat.toDigits_append_toDigits (by decide) (Nat.pos_of_ne_zero zero) small,
            ← List.append_assoc, ← written]

/-- Without a zero in front the digits are those of the number. -/
theorem eq_toDigits (all : ∀ c ∈ digits, c.isDigit = true) (present : digits ≠ [])
    (canonical : digits.head? = some '0' → digits = ['0']) :
    digits = Nat.toDigits 10 (Nat.ofDigitChars 10 digits 0) := by
  obtain ⟨zeros, written⟩ := exists_zeros all present
  cases zeros with
  | zero => exact written
  | succ zeros =>
      have single : digits = ['0'] := by
        apply canonical
        rw [written, List.replicate_succ]
        rfl
      rw [single]
      rfl

end Stencil.Text
