import Stencil.Path.Evaluate
import Stencil.Proofs.Digits

namespace Stencil.Path

/-- The name is the index in decimal digits, but for leading zeros and a plus sign. -/
def WritesIndex (name : String) (index : Nat) : Prop :=
  index ≤ maxIndex ∧ ∃ sign zeros, (sign = [] ∨ sign = ['+']) ∧
    name.toList = sign ++ (List.replicate zeros '0' ++ Nat.toDigits 10 index)

variable {name : String} {digits : List Char} {index : Nat}

/-- The text behind a plus sign at its beginning. -/
def unsigned : List Char → List Char
  | '+' :: digits => digits
  | digits => digits

theorem exists_sign (chars : List Char) :
    ∃ sign, (sign = [] ∨ sign = ['+']) ∧ chars = sign ++ unsigned chars := by
  unfold unsigned
  split
  · exact ⟨['+'], .inr rfl, rfl⟩
  · exact ⟨[], .inl rfl, rfl⟩

theorem unsigned_append {sign : List Char} (signed : sign = [] ∨ sign = ['+'])
    (all : ∀ c ∈ digits, c.isDigit = true) : unsigned (sign ++ digits) = digits := by
  rcases signed with rfl | rfl
  · rw [List.nil_append]
    unfold unsigned
    split
    · exact absurd (all '+' (by simp)) (by decide)
    · rfl
  · rfl

theorem index?_eq_some_iff_unsigned :
    index? name = some index ↔
      unsigned name.toList ≠ [] ∧ (∀ c ∈ unsigned name.toList, c.isDigit = true) ∧
        Nat.ofDigitChars 10 (unsigned name.toList) 0 = index ∧ index ≤ maxIndex := by
  have same : index? name =
      if unsigned name.toList ≠ [] ∧ (unsigned name.toList).all Char.isDigit then
        if Nat.ofDigitChars 10 (unsigned name.toList) 0 ≤ maxIndex then
          some (Nat.ofDigitChars 10 (unsigned name.toList) 0)
        else none
      else none := rfl
  rw [same, Option.ite_none_right_eq_some, Option.ite_none_right_eq_some, Option.some.injEq,
    List.all_eq_true]
  constructor
  · rintro ⟨⟨present, all⟩, inRange, rfl⟩
    exact ⟨present, all, rfl, inRange⟩
  · rintro ⟨present, all, rfl, inRange⟩
    exact ⟨⟨present, all⟩, inRange, rfl⟩

theorem index?_eq_some_iff : index? name = some index ↔ WritesIndex name index := by
  rw [index?_eq_some_iff_unsigned]
  constructor
  · rintro ⟨present, all, rfl, inRange⟩
    obtain ⟨sign, signed, parts⟩ := exists_sign name.toList
    obtain ⟨zeros, written⟩ := Text.exists_zeros all present
    exact ⟨inRange, sign, zeros, signed, by rw [← written, ← parts]⟩
  · rintro ⟨inRange, sign, zeros, signed, written⟩
    have all : ∀ c ∈ List.replicate zeros '0' ++ Nat.toDigits 10 index, c.isDigit = true := by
      intro c member
      rcases List.mem_append.mp member with zero | digit
      · rw [List.eq_of_mem_replicate zero]
        rfl
      · exact Text.isDigit_toDigits index c digit
    rw [written, unsigned_append signed all]
    refine ⟨by simp [Nat.toDigits_ne_nil], all, ?_, inRange⟩
    rw [Nat.ofDigitChars_append, Nat.ofDigitChars_replicate_zero, Nat.mul_zero,
      Nat.ofDigitChars_ten_toDigits]

/-- Without a sign and leading zeros an index is written in decimal. -/
theorem writesIndex_toString (inRange : index ≤ maxIndex) :
    WritesIndex (toString index) index := by
  refine ⟨inRange, [], 0, .inl rfl, ?_⟩
  rw [Nat.toString_eq_repr, Nat.toList_repr]
  rfl

end Stencil.Path
