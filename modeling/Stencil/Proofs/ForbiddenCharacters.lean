import Stencil.Markup.Forbidden
import Stencil.Proofs.Digits
import Stencil.Proofs.Escaping
import Stencil.Proofs.Segments

namespace Stencil

/-! Where the text of a value can hold a forbidden character. JSON writes control
characters as escapes and escaping adds none, so such a character comes from a
string that is the value itself or stands in it with nothing but arrays around it. -/

namespace Markup

@[simp] theorem hasForbidden_stripForbidden (text : String) :
    hasForbidden (stripForbidden text) = false := by
  simp [hasForbidden]

/-- Escaping neither adds a forbidden character nor hides one. -/
@[simp] theorem hasForbidden_escape (text : String) :
    hasForbidden (escape text) = hasForbidden text := by
  rw [hasForbidden, toList_escape, any_escapeChars isForbidden (by decide), hasForbidden]

def Clean (chars : List Char) : Prop :=
  ∀ c ∈ chars, isForbidden c = false

instance (chars : List Char) : Decidable (Clean chars) :=
  List.decidableBAll _ chars

variable {first second chars : List Char} {c : Char}

theorem Clean.append (left : Clean first) (right : Clean second) : Clean (first ++ second) := by
  intro c member
  rcases List.mem_append.mp member with member | member
  · exact left c member
  · exact right c member

theorem Clean.cons (head : isForbidden c = false) (tail : Clean chars) : Clean (c :: chars) := by
  intro d member
  rcases List.mem_cons.mp member with rfl | member
  · exact head
  · exact tail d member

theorem hasForbidden_ofList (clean : Clean chars) :
    hasForbidden (String.ofList chars) = false := by
  simpa [hasForbidden, Clean] using clean

theorem isForbidden_of_isDigit (digit : c.isDigit = true) : isForbidden c = false := by
  have above : 48 ≤ c.toNat := by
    simp only [Char.isDigit, Bool.and_eq_true, decide_eq_true_eq] at digit
    exact UInt32.le_iff_toNat_le.mp digit.1
  have notBelow : ¬ c.toNat < 32 := by omega
  simp [isForbidden, notBelow]

theorem clean_toDigits (n : Nat) : Clean (Nat.toDigits 10 n) := by
  intro c member
  exact isForbidden_of_isDigit (Text.isDigit_toDigits n c member)

end Markup

namespace Json

open Markup

theorem clean_paddedDigits (width n : Nat) : Clean (paddedDigits width n) := by
  have zeros : Clean (List.replicate (width - (Nat.toDigits 10 n).length) '0') := by
    intro c member
    rw [(List.mem_replicate.mp member).2]
    decide
  exact zeros.append (clean_toDigits n)

theorem Numeral.clean_chars (numeral : Numeral) : Clean numeral.chars := by
  unfold chars
  refine .append (.append (.append ?sign (clean_toDigits _)) ?fraction) ?exponent
  case sign => split <;> decide
  case fraction =>
    split
    · decide
    · exact .cons (by decide) (clean_paddedDigits _ _)
  case exponent =>
    split
    · decide
    · exact .cons (by decide) (.cons (by split <;> decide) (clean_toDigits _))

theorem isForbidden_digitChar (n : Nat) : isForbidden (n % 16).digitChar = false := by
  have small : ∀ digit < 16, isForbidden digit.digitChar = false := by decide
  exact small _ (Nat.mod_lt _ (by decide))

theorem clean_unitEscape (u : Nat) : Clean (unitEscape u) := by
  have marks : isForbidden '\\' = false ∧ isForbidden 'u' = false := by decide
  simp [Clean, unitEscape, marks, isForbidden_digitChar]

theorem clean_charLiteral (c : Char) : Clean (charLiteral c) := by
  unfold charLiteral
  split
  case h_8 =>
    split
    · exact clean_unitEscape _
    · rename_i notBelow
      simp [Clean, isForbidden, notBelow]
  all_goals decide

theorem clean_stringLiteral (pieces : List Piece) : Clean (stringLiteral pieces) := by
  have inner : Clean (pieces.flatMap Piece.chars) := by
    intro c member
    obtain ⟨piece, _, within⟩ := List.mem_flatMap.mp member
    cases piece with
    | char d => exact clean_charLiteral d c within
    | unit u => exact clean_unitEscape u c within
  exact (Clean.cons (by decide) inner).append (by decide)

namespace Document

mutual

theorem clean_chars : (document : Document) → Clean document.chars
  | .null => by rw [chars]; decide
  | .bool true => by rw [chars]; decide
  | .bool false => by rw [chars]; decide
  | .number numeral => by rw [chars]; exact numeral.clean_chars
  | .string pieces => by rw [chars]; exact clean_stringLiteral pieces
  | .array items => by
      rw [chars]
      exact (Clean.cons (by decide) (clean_itemChars items)).append (by decide)
  | .object members => by
      rw [chars]
      exact (Clean.cons (by decide) (clean_memberChars members)).append (by decide)

theorem clean_itemChars : (items : List Document) → Clean (itemChars items)
  | [] => by rw [itemChars]; decide
  | [item] => by rw [itemChars]; exact item.clean_chars
  | item :: next :: rest => by
      rw [itemChars]
      exact item.clean_chars.append (.cons (by decide) (clean_itemChars (next :: rest)))

theorem clean_memberChars :
    (members : List (List Piece × Document)) → Clean (memberChars members)
  | [] => by rw [memberChars]; decide
  | [(key, item)] => by
      rw [memberChars]
      exact (clean_stringLiteral key).append (.cons (by decide) item.clean_chars)
  | (key, item) :: next :: rest => by
      rw [memberChars]
      have first : Clean (stringLiteral key ++ ':' :: item.chars) :=
        (clean_stringLiteral key).append (.cons (by decide) item.clean_chars)
      exact first.append (.cons (by decide) (clean_memberChars (next :: rest)))

end

end Document

end Json

namespace Value

mutual

/-- What the text of a value is joined from: the items of an array, of arrays among
them again the items, and any other value itself. An empty array stays one. -/
def leaves : Value → List Value
  | .array [] => [.array []]
  | .array (item :: rest) => item.leaves ++ itemLeaves rest
  | value => [value]

def itemLeaves : List Value → List Value
  | [] => []
  | item :: rest => item.leaves ++ itemLeaves rest

end

end Value

open Markup

/-- A comma is no forbidden character, so joining texts with commas adds none. -/
theorem hasForbidden_intercalate (texts : List String) :
    hasForbidden (",".intercalate texts) = texts.any hasForbidden := by
  have comma : ",".toList.any isForbidden = false := by decide
  rw [hasForbidden, String.toList_intercalate, any_intercalate isForbidden _ comma, List.any_map]
  rfl

theorem Number.not_hasForbidden_text (n : Number) : hasForbidden n.text = false := by
  have numeral (written : Json.Numeral) : hasForbidden written.text = false :=
    hasForbidden_ofList written.clean_chars
  unfold Number.text
  split
  · exact numeral _
  · split
    · split <;> exact numeral _
    · exact numeral _

namespace Value

theorem not_hasForbidden_json (value : Value) : hasForbidden value.json = false :=
  hasForbidden_ofList value.toDocument.clean_chars

def ForbiddenAmong (values : List Value) : Prop :=
  ∃ text, .string text ∈ values ∧ hasForbidden text = true

theorem forbiddenAmong_append {first second : List Value} :
    ForbiddenAmong (first ++ second) ↔ ForbiddenAmong first ∨ ForbiddenAmong second := by
  simp only [ForbiddenAmong, List.mem_append, or_and_right, exists_or]

mutual

theorem hasForbidden_text :
    (value : Value) → (hasForbidden value.text = true ↔ ForbiddenAmong value.leaves)
  | .null => by simp [text, leaves, ForbiddenAmong]; decide
  | .bool b => by cases b <;> simp [text, leaves, ForbiddenAmong] <;> decide
  | .number n => by simp [text, leaves, ForbiddenAmong, n.not_hasForbidden_text]
  | .string content => by simp [text, leaves, ForbiddenAmong]
  | .array [] => by simp [text, leaves, ForbiddenAmong, itemTexts]; decide
  | .array (item :: rest) => by
      rw [text, hasForbidden_intercalate, leaves]
      exact hasForbidden_itemTexts (item :: rest)
  | .object members => by simp [text, leaves, ForbiddenAmong, not_hasForbidden_json]

theorem hasForbidden_itemTexts :
    (items : List Value) →
      ((itemTexts items).any hasForbidden = true ↔ ForbiddenAmong (itemLeaves items))
  | [] => by simp [itemTexts, itemLeaves, ForbiddenAmong]
  | item :: rest => by
      rw [itemTexts, itemLeaves, List.any_cons, Bool.or_eq_true, forbiddenAmong_append,
        hasForbidden_text item, hasForbidden_itemTexts rest]

end

end Value

end Stencil
