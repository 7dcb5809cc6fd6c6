namespace Stencil.Json

/-! A JSON document as it is written. Nothing is decided here that a reader of
the document may decide differently: number literals keep their digits, string
literals keep their numeric escapes, and an object keeps repeated members in
their order. -/

/-- A number literal: the sign, all digits of the mantissa, how many of them
stand after the point, and the exponent if one is written. -/
structure Numeral where
  negative : Bool := false
  digits : Nat
  places : Nat := 0
  exponent : Option Int := none
deriving DecidableEq, Repr

namespace Numeral

def IsInteger (numeral : Numeral) : Prop :=
  numeral.places = 0 ∧ numeral.exponent = none

instance (numeral : Numeral) : Decidable numeral.IsInteger :=
  inferInstanceAs (Decidable (_ ∧ _))

def ofInt (z : Int) : Numeral where
  negative := z < 0
  digits := z.natAbs

end Numeral

/-- A part of a string literal: a character, or a numeric escape, which names a
16-bit unit and need not be a character by itself. -/
inductive Piece where
  | char (c : Char)
  | unit (u : Nat)
deriving DecidableEq, Repr

namespace Piece

def IsHighSurrogate (u : Nat) : Prop := 0xD800 ≤ u ∧ u < 0xDC00

def IsLowSurrogate (u : Nat) : Prop := 0xDC00 ≤ u ∧ u < 0xE000

instance (u : Nat) : Decidable (IsHighSurrogate u) := inferInstanceAs (Decidable (_ ∧ _))

instance (u : Nat) : Decidable (IsLowSurrogate u) := inferInstanceAs (Decidable (_ ∧ _))

/-- The characters that the parts stand for. A high surrogate must have a low
one right behind it, and a low one must stand behind a high one. -/
def resolve? : List Piece → Option (List Char)
  | [] => some []
  | .char c :: rest => (resolve? rest).map (c :: ·)
  | .unit u :: rest =>
      if IsHighSurrogate u then
        match rest with
        | .unit v :: beyond =>
            if IsLowSurrogate v then
              let code := 0x10000 + (u - 0xD800) * 0x400 + (v - 0xDC00)
              (resolve? beyond).map (Char.ofNat code :: ·)
            else none
        | _ => none
      else if IsLowSurrogate u then none
      else (resolve? rest).map (Char.ofNat u :: ·)

end Piece

inductive Document where
  | null
  | bool (value : Bool)
  | number (numeral : Numeral)
  | string (pieces : List Piece)
  | array (items : List Document)
  | object (members : List (List Piece × Document))

def text? (pieces : List Piece) : Option String :=
  (Piece.resolve? pieces).map String.ofList

def pieces (text : String) : List Piece :=
  text.toList.map .char

theorem resolve?_map_char (chars : List Char) :
    Piece.resolve? (chars.map .char) = some chars := by
  induction chars with
  | nil => rfl
  | cons c rest ih => simp [Piece.resolve?, ih]

@[simp] theorem text?_pieces (text : String) : text? (pieces text) = some text := by
  simp [text?, pieces, resolve?_map_char]

namespace Document

def ofString (text : String) : Document :=
  .string (pieces text)

def ofNat (n : Nat) : Document :=
  .number (.ofInt n)

def record (members : List (String × Document)) : Document :=
  .object (members.map fun member => (pieces member.1, member.2))

end Document

end Stencil.Json
