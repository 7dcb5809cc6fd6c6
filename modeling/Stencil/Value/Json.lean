import Stencil.Value.Basic
import Stencil.Binary64.Nearest
import Stencil.Binary64.Shortest
import Stencil.Json.Reader
import Stencil.Json.Printer

namespace Stencil

/-! Data values as JSON. An integer literal within 64 bits is an integer, any
other number the nearest one of double precision; of repeated members the last
counts; a value is at most 127 levels deep. -/

namespace Number

/-- The number that a literal stands for. There is none beyond the range of
double precision. Negative zero is no integer. -/
def ofNumeral? (numeral : Json.Numeral) : Option Number :=
  let integer : Int := if numeral.negative then -numeral.digits else numeral.digits
  let inRange := -(Nat.pow 2 63 : Nat) ≤ integer ∧ integer < (Nat.pow 2 64 : Nat)
  let negativeZero := numeral.negative ∧ numeral.digits = 0
  if numeral.IsInteger ∧ inRange ∧ ¬negativeZero then some (.integer integer)
  else
    (Binary64.ofDecimal? numeral.negative numeral.digits
      (numeral.exponent.getD 0 - numeral.places)).map .real

/-- The decimal as it is written: with a point and at least one place if its
leading digit stands for a power of ten from -5 to 15, otherwise with the point
behind that digit and an exponent. -/
def layOut (negative : Bool) (decimal : Binary64.Decimal) : Json.Numeral :=
  let more := (Nat.toDigits 10 decimal.digits).length - 1
  let leading := decimal.exponent + more
  if -5 ≤ leading ∧ leading ≤ 15 then
    if 0 ≤ decimal.exponent then
      { negative, places := 1
        digits := decimal.digits * Nat.pow 10 (decimal.exponent.toNat + 1) }
    else { negative, digits := decimal.digits, places := (-decimal.exponent).toNat }
  else { negative, digits := decimal.digits, places := more, exponent := some leading }

example : (layOut false ⟨1, 15⟩).text = "1000000000000000.0" := by decide +kernel

example : (layOut false ⟨1, 16⟩).text = "1e+16" := by decide +kernel

example : (layOut true ⟨1, -5⟩).text = "-0.00001" := by decide +kernel

example : (layOut false ⟨15, -8⟩).text = "1.5e-7" := by decide +kernel

/-- The literal of a number of double precision: the fewest digits that read
back, and always a point or an exponent. -/
def numeralOfReal (x : Binary64) : Json.Numeral :=
  if x.significand = 0 then { negative := x.negative, digits := 0, places := 1 }
  else layOut x.negative x.shortest

def toNumeral : Number → Json.Numeral
  | .integer z => .ofInt z
  | .real x => numeralOfReal x

end Number

namespace Value

open Json (Document Piece)

mutual

/-- The value that a document stands for, if arrays and objects are nested no
deeper than `levels`. -/
def ofDocument? (levels : Nat) : Document → Option Value
  | .null => some .null
  | .bool b => some (.bool b)
  | .number numeral => (Number.ofNumeral? numeral).map .number
  | .string pieces => (Json.text? pieces).map .string
  | .array items =>
      match levels with
      | 0 => none
      | levels + 1 => (ofItems? levels items).map .array
  | .object members =>
      match levels with
      | 0 => none
      | levels + 1 => (ofMembers? levels members).map fun entries =>
          .object (entries.foldl (fun before entry => insertMember entry.1 entry.2 before) [])

def ofItems? (levels : Nat) : List Document → Option (List Value)
  | [] => some []
  | item :: rest => do
      let value ← ofDocument? levels item
      let values ← ofItems? levels rest
      some (value :: values)

def ofMembers? (levels : Nat) : List (List Piece × Document) → Option (List (String × Value))
  | [] => some []
  | (pieces, item) :: rest => do
      let key ← Json.text? pieces
      let value ← ofDocument? levels item
      let entries ← ofMembers? levels rest
      some ((key, value) :: entries)

end

def maxDepth : Nat := 127

/-- Reads a value from the text of a JSON document. -/
def ofJson? (text : String) : Option Value := do
  ofDocument? maxDepth (← Document.ofText? text)

mutual

def toDocument : Value → Document
  | .null => .null
  | .bool b => .bool b
  | .number n => .number n.toNumeral
  | .string text => .ofString text
  | .array items => .array (itemDocuments items)
  | .object members => .object (memberDocuments members)

def itemDocuments : List Value → List Document
  | [] => []
  | item :: rest => item.toDocument :: itemDocuments rest

def memberDocuments : List (String × Value) → List (List Piece × Document)
  | [] => []
  | (key, item) :: rest => (Json.pieces key, item.toDocument) :: memberDocuments rest

end

/-- The text of a value as a compact JSON document. -/
def json (value : Value) : String :=
  value.toDocument.text

end Value

end Stencil
