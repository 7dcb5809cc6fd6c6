import Stencil.Json.Document
import Stencil.Record

namespace Stencil.Json.Document

/-- The members of an object with their names; none if a name is no text. -/
def namedMembers? : List (List Piece × Document) → Option (List (String × Document))
  | [] => some []
  | (key, item) :: rest => do
      let name ← text? key
      let named ← namedMembers? rest
      some ((name, item) :: named)

/-- The record with these fields that a document is. -/
def record? (names : List String) : Document → Option (Record Document)
  | .object members => (namedMembers? members).bind (Record.ofMembers? names)
  | .array items => Record.ofValues? names items
  | _ => none

/-- A natural number of 64 bits, without a sign, a point or an exponent. -/
def word? : Document → Option Nat
  | .number numeral =>
      if numeral.IsInteger ∧ numeral.negative = false ∧ numeral.digits < Nat.pow 2 64 then
        some numeral.digits
      else none
  | _ => none

/-- The values of fields in JSON. A choice may also be written as the only key of an
object that has null as its value. -/
def fieldFormat : FieldFormat Document where
  text?
    | .string pieces => text? pieces
    | _ => none
  choice?
    | .string pieces => text? pieces
    | .object [(key, .null)] => text? key
    | _ => none
  bool?
    | .bool value => some value
    | _ => none
  isNull
    | .null => true
    | _ => false
  items?
    | .array items => some items
    | _ => none

variable {α : Type}

/-- Null in place of something that is missing. -/
def ofOption (write : α → Document) : Option α → Document
  | some value => write value
  | none => .null

def ofList (write : α → Document) (values : List α) : Document :=
  .array (values.map write)

end Stencil.Json.Document
