import Stencil.Text.Alphanumeric

namespace Stencil

inductive Path where
  | current
  | segments (names : List String)
deriving DecidableEq, Repr

namespace Path

/-- Why a text is no expression. The texts are given without the white space at
their ends. -/
inductive Fault where
  | emptyExpression
  | emptySegment (expression : String)
  | unexpectedCharacter (c : Char) (expression : String)
deriving DecidableEq, Repr

def Fault.message : Fault → String
  | .emptyExpression => "empty expression"
  | .emptySegment expression => s!"empty path segment in `{expression}`"
  | .unexpectedCharacter c expression => s!"unexpected character `{c}` in `{expression}`"

def isNameChar (c : Char) : Bool :=
  Text.isAlphanumeric c || c == '_' || c == '$' || c == '-'

/-- What is wrong with a name in the expression, if anything. -/
def segmentFault? (expression : String) (name : List Char) : Option Fault :=
  match name with
  | [] => some (.emptySegment expression)
  | _ => (name.find? fun c => !isNameChar c).map fun c => .unexpectedCharacter c expression

/-- Reads an expression. Of several faulty names the leftmost is reported. -/
def parse (source : String) : Except Fault Path :=
  let chars := Text.trim source.toList
  let expression := String.ofList chars
  if chars = ['.'] then .ok .current
  else if chars = [] then .error .emptyExpression
  else
    let names := chars.splitOn '.'
    match names.findSome? (segmentFault? expression) with
    | some fault => .error fault
    | none => .ok (.segments (names.map String.ofList))

def text : Path → String
  | .current => "."
  | .segments names => ".".intercalate names

end Path

end Stencil
