import Mathlib.Algebra.Order.Field.Power
import Mathlib.Algebra.Order.Field.Rat
import Mathlib.Tactic.NormNum
import Stencil.Proofs.ArrayText
import Stencil.Proofs.JsonLiterals

namespace Stencil

namespace Binary64

def magnitude (x : Binary64) : ℚ :=
  x.significand * 2 ^ x.exponent

/-- The exact value of a number. That of both zeros is zero. -/
def toRat (x : Binary64) : ℚ :=
  if x.negative then -x.magnitude else x.magnitude

theorem wholeMagnitude?_eq_some_iff {x : Binary64} {whole : Nat} :
    x.wholeMagnitude? = some whole ↔ x.magnitude = whole := by
  unfold wholeMagnitude? magnitude
  split
  · rename_i nonnegative
    obtain ⟨power, same⟩ := Int.eq_ofNat_of_zero_le nonnegative
    rw [same, zpow_natCast, Option.some.injEq, Int.toNat_natCast]
    exact_mod_cast Iff.rfl
  · -- a fraction, whole if the power of two divides the significand
    rename_i negative
    obtain ⟨power, same⟩ := Int.eq_ofNat_of_zero_le (show 0 ≤ -x.exponent by omega)
    have scaled : (x.significand : ℚ) * 2 ^ x.exponent = whole ↔
        x.significand = whole * Nat.pow 2 power := by
      rw [show x.exponent = -(power : ℤ) by omega, zpow_neg, zpow_natCast, ← div_eq_mul_inv,
        div_eq_iff (by positivity)]
      exact_mod_cast Iff.rfl
    have positive : 0 < Nat.pow 2 power := Nat.pow_pos (by decide)
    rw [scaled, same, Int.toNat_natCast, Option.ite_none_right_eq_some, Option.some.injEq]
    constructor
    · rintro ⟨divides, rfl⟩
      exact (Nat.div_mul_cancel (Nat.dvd_of_mod_eq_zero divides)).symm
    · intro product
      rw [product]
      exact ⟨Nat.mul_mod_left .., Nat.mul_div_cancel _ positive⟩

theorem magnitude_nonneg (x : Binary64) : 0 ≤ x.magnitude := by
  unfold magnitude
  positivity

/-- A number is taken for an integer exactly if its value is one. -/
theorem integer?_eq_some_iff {x : Binary64} {z : Int} : x.integer? = some z ↔ x.toRat = z := by
  have signed : x.integer? = some z ↔
      ∃ whole : Nat, x.magnitude = whole ∧ (if x.negative then -(whole : Int) else whole) = z := by
    simp only [← wholeMagnitude?_eq_some_iff, integer?]
    cases x.wholeMagnitude? <;> simp
  rw [signed, toRat]
  constructor
  · rintro ⟨whole, same, rfl⟩
    rw [same]
    split <;> simp
  · intro value
    have absolute : x.magnitude = z.natAbs := by
      rw [Nat.cast_natAbs, Int.cast_abs, ← value]
      split <;> simp [abs_of_nonneg x.magnitude_nonneg]
    refine ⟨z.natAbs, absolute, ?_⟩
    rw [absolute, Nat.cast_natAbs] at value
    split at value
    · rename_i negative
      rw [if_pos negative]
      exact_mod_cast value
    · rename_i positive
      rw [if_neg positive]
      exact_mod_cast value

end Binary64

namespace Number

def toRat : Number → ℚ
  | .integer z => z
  | .real x => x.toRat

/-- The exact value of the number is this integer, and its magnitude is below the limit up to
which whole numbers are written out. -/
structure IsWhole (n : Number) (z : Int) : Prop where
  toRat_eq : n.toRat = z
  below : z.natAbs < 10 ^ 21

/-- The text is the decimal numeral of the integer: a minus sign if it is negative and none
otherwise, then digits that stand for the magnitude, with no zero before others. -/
def WritesInteger (text : String) (z : Int) : Prop :=
  ∃ digits, text.toList = (if z < 0 then ['-'] else []) ++ digits ∧
    digits ≠ [] ∧ (∀ c ∈ digits, c.isDigit = true) ∧
    (digits.head? = some '0' → digits = ['0']) ∧
    Nat.ofDigitChars 10 digits 0 = z.natAbs

end Number

namespace Json.Numeral

variable {numeral other : Numeral} {rest more : List Char}

/-- Where a numeral ends is seen from what follows it. -/
theorem chars_append_inj (ends : EndsNumeral rest) (moreEnds : EndsNumeral more) :
    numeral.chars ++ rest = other.chars ++ more ↔ numeral = other ∧ rest = more := by
  constructor
  · intro same
    have read := readNumeral?_chars numeral ends
    rw [same, readNumeral?_chars other moreEnds, Option.some.injEq, Prod.mk.injEq] at read
    exact ⟨read.1.symm, read.2.symm⟩
  · rintro ⟨rfl, rfl⟩
    rfl

theorem ofInt_inj {z w : Int} : ofInt z = ofInt w ↔ z = w := by
  constructor
  · intro same
    simp only [ofInt, mk.injEq, decide_eq_decide] at same
    omega
  · rintro rfl
    rfl

theorem toList_text (numeral : Numeral) : numeral.text.toList = numeral.chars := by
  rw [text, String.toList_ofList]

theorem text_inj : numeral.text = other.text ↔ numeral = other := by
  have nothing : EndsNumeral [] := by simp [EndsNumeral]
  rw [← String.toList_inj, toList_text, toList_text, ← List.append_nil numeral.chars,
    ← List.append_nil other.chars, chars_append_inj nothing nothing]
  simp

theorem chars_ofInt (z : Int) :
    (ofInt z).chars = (if z < 0 then ['-'] else []) ++ Nat.toDigits 10 z.natAbs := by
  simp [ofInt, chars]

theorem text_ofInt_eq_iff {z : Int} {text : String} :
    (ofInt z).text = text ↔ Number.WritesInteger text z := by
  rw [← String.toList_inj, toList_text, chars_ofInt]
  constructor
  · intro same
    refine ⟨Nat.toDigits 10 z.natAbs, same.symm, Nat.toDigits_ne_nil, Text.isDigit_toDigits _, ?_,
      Nat.ofDigitChars_ten_toDigits⟩
    intro zero
    rw [Text.zero_of_head?_toDigits zero, Nat.toDigits_zero]
  · rintro ⟨digits, parts, present, all, canonical, stands⟩
    rw [parts, ← stands, ← Text.eq_toDigits all present canonical]

end Json.Numeral

namespace Number

variable {n m : Number} {z w : Int}

theorem IsWhole.unique (first : n.IsWhole z) (second : n.IsWhole w) : z = w :=
  Int.cast_injective (first.toRat_eq.symm.trans second.toRat_eq)

theorem IsWhole.text_eq (whole : n.IsWhole z) : n.text = (Json.Numeral.ofInt z).text := by
  obtain ⟨value, below⟩ := whole
  cases n with
  | integer y =>
      have same : y = z := Int.cast_injective value
      rw [text, same]
  | real x =>
      have found : x.integer? = some z := Binary64.integer?_eq_some_iff.mpr value
      have inLimit : z.natAbs < wholeLimit := below
      simp only [text, found, if_pos inLimit]

theorem IsWhole.text_eq_text_iff (first : n.IsWhole z) (second : m.IsWhole w) :
    n.text = m.text ↔ z = w := by
  rw [first.text_eq, second.text_eq, Json.Numeral.text_inj, Json.Numeral.ofInt_inj]

end Number

namespace Value

/-- Two leaves at one place: the same value, or whole numbers whose integers are related. -/
inductive PairsWith (related : Int → Int → Prop) : Value → Value → Prop where
  | same (leaf : Value) : PairsWith related leaf leaf
  | whole {n m : Number} {z w : Int} (first : n.IsWhole z) (second : m.IsWhole w)
      (between : related z w) : PairsWith related (.number n) (.number m)

/-- The texts of leaves, each behind a comma. -/
def commaTexts (leaves : List Value) : List Char :=
  leaves.flatMap fun leaf => ',' :: leaf.leafText.toList

theorem commaTexts_leaves (value : Value) :
    commaTexts value.leaves = ',' :: value.text.toList := by
  have comma : ",".toList = [','] := rfl
  rw [text_eq_joined, String.toList_intercalate, comma,
    ← flatMap_cons_eq_intercalate (by simpa using value.leaves_ne_nil), commaTexts,
    List.flatMap_map, List.flatMap_map]

theorem endsNumeral_commaTexts (leaves : List Value) : Json.EndsNumeral (commaTexts leaves) := by
  cases leaves <;> simp [commaTexts, Json.EndsNumeral]

theorem pairsWith_number_iff {n m : Number} {z w : Int} (first : n.IsWhole z)
    (second : m.IsWhole w) : PairsWith (· = ·) (.number n) (.number m) ↔ z = w := by
  constructor
  · intro pair
    cases pair with
    | same => exact first.unique second
    | whole firstToo secondToo between =>
        rw [first.unique firstToo, second.unique secondToo, between]
  · intro same
    exact .whole first second same

theorem commaTexts_eq_iff {first second : List Value}
    (paired : List.Forall₂ (PairsWith fun _ _ => True) first second) :
    commaTexts first = commaTexts second ↔ List.Forall₂ (PairsWith (· = ·)) first second := by
  -- from left to right, since the comma behind a numeral is known only once it is read
  induction paired with
  | nil => simp
  | @cons leaf other firstRest secondRest pair rest ih =>
      have texts : commaTexts (leaf :: firstRest) = commaTexts (other :: secondRest) ↔
          leaf.leafText.toList ++ commaTexts firstRest =
            other.leafText.toList ++ commaTexts secondRest := by
        simp [commaTexts]
      rw [texts, List.forall₂_cons, ← ih]
      cases pair with
      | same =>
          rw [List.append_cancel_left_eq]
          exact (and_iff_right (.same leaf)).symm
      | whole firstWhole secondWhole =>
          rw [leafText, leafText, firstWhole.text_eq, secondWhole.text_eq,
            Json.Numeral.toList_text, Json.Numeral.toList_text,
            Json.Numeral.chars_append_inj (endsNumeral_commaTexts _) (endsNumeral_commaTexts _),
            Json.Numeral.ofInt_inj, pairsWith_number_iff firstWhole secondWhole]

theorem text_eq_text_iff {first second : Value}
    (paired : List.Forall₂ (PairsWith fun _ _ => True) first.leaves second.leaves) :
    first.text = second.text ↔
      List.Forall₂ (PairsWith (· = ·)) first.leaves second.leaves := by
  rw [← commaTexts_eq_iff paired, commaTexts_leaves, commaTexts_leaves, List.cons_inj_right,
    String.toList_inj]

end Value

/-- The text of a whole number below the limit is the decimal numeral of its integer, the only one
there is. Two of them have equal texts exactly if they are equal, by themselves and wherever one
stands for the other among the leaves of arrays. -/
theorem whole_numbers_by_integer :
    (∀ (n : Number) (z : Int), n.IsWhole z →
      ∀ text, (Value.number n).text = text ↔ Number.WritesInteger text z) ∧
    (∀ (n m : Number) (z w : Int), n.IsWhole z → m.IsWhole w →
      ((Value.number n).text = (Value.number m).text ↔ z = w)) ∧
    (∀ first second : Value,
      List.Forall₂ (Value.PairsWith fun _ _ => True) first.leaves second.leaves →
        (first.text = second.text ↔
          List.Forall₂ (Value.PairsWith (· = ·)) first.leaves second.leaves)) := by
  refine ⟨?numeral, ?alone, ?within⟩
  case numeral =>
    intro n z whole text
    rw [Value.text, whole.text_eq]
    exact Json.Numeral.text_ofInt_eq_iff
  case alone =>
    intro n m z w first second
    rw [Value.text, Value.text]
    exact first.text_eq_text_iff second
  case within =>
    intro first second paired
    exact Value.text_eq_text_iff paired

/-- The greatest number of double precision below the limit has all its digits. An integer beyond
the precision and the other kind of number with the same value are written alike, in arrays of
different depths, and the next integer is not. -/
theorem whole_numbers_beyond_precision :
    let last : Number := .real ⟨false, 7629394531249999, 17, by decide, by decide, by decide,
      .inl (by decide)⟩
    let rounded : Number := .real ⟨false, 4503599627370496, 11, by decide, by decide, by decide,
      .inl (by decide)⟩
    let stored : Number := .integer 9223372036854775808
    let next : Number := .integer 9223372036854775809
    (last.IsWhole 999999999999999868928 ∧ rounded.IsWhole 9223372036854775808 ∧
      stored.IsWhole 9223372036854775808 ∧ next.IsWhole 9223372036854775809) ∧
    (Value.number last).text = "999999999999999868928" ∧
    (Value.number next).text ≠ (Value.number rounded).text ∧
    (Value.array [.array [.array [.number stored]], .string ","]).text =
      (Value.array [.number rounded, .array [.string ","]]).text := by
  intro last rounded stored next
  have lastWhole : last.IsWhole 999999999999999868928 := by
    refine ⟨?_, by decide⟩
    norm_num [last, Number.toRat, Binary64.toRat, Binary64.magnitude]
  have roundedWhole : rounded.IsWhole 9223372036854775808 := by
    refine ⟨?_, by decide⟩
    norm_num [rounded, Number.toRat, Binary64.toRat, Binary64.magnitude]
  have storedWhole : stored.IsWhole 9223372036854775808 := ⟨rfl, by decide⟩
  have nextWhole : next.IsWhole 9223372036854775809 := ⟨rfl, by decide⟩
  obtain ⟨numeral, alone, within⟩ := whole_numbers_by_integer
  refine ⟨⟨lastWhole, roundedWhole, storedWhole, nextWhole⟩, ?digits, ?apart, ?nested⟩
  case digits =>
    rw [numeral last _ lastWhole, ← Json.Numeral.text_ofInt_eq_iff]
    decide +kernel
  case apart =>
    rw [ne_eq, alone next rounded _ _ nextWhole roundedWhole]
    decide
  case nested =>
    refine (within _ _ (.cons (.whole storedWhole roundedWhole trivial) ?_)).mpr
      (.cons (.whole storedWhole roundedWhole rfl) ?_)
    · exact .cons (.same _) .nil
    · exact .cons (.same _) .nil

/-- Negative zero is the integer zero. -/
example : (Value.number (.real (.zero true))).text = "0" := by decide +kernel

end Stencil
