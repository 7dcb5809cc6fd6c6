import Stencil.Value.Json
import Stencil.Markup.Escape

namespace Stencil

namespace Number

/-- Numbers of double precision from here on are not written out as integers. -/
def wholeLimit : Nat := Nat.pow 10 21

def text : Number → String
  | .integer z => (Json.Numeral.ofInt z).text
  | .real x =>
      match x.integer? with
      | some z =>
          if z.natAbs < wholeLimit then (Json.Numeral.ofInt z).text else (numeralOfReal x).text
      | none => (numeralOfReal x).text

end Number

namespace Value

mutual

def text : Value → String
  | .null => ""
  | .bool b => if b then "true" else "false"
  | .number n => n.text
  | .string text => text
  | .array items => ",".intercalate (itemTexts items)
  | .object members => (Value.object members).json

def itemTexts : List Value → List String
  | [] => []
  | item :: rest => item.text :: itemTexts rest

end

/-- The text of a value, escaped for an element. -/
def escapedText (value : Value) : String :=
  Markup.escape value.text

end Value

end Stencil
