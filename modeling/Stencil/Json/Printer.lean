import Stencil.Json.Document

namespace Stencil.Json

/-- The digits of a number with zeros before them up to a width. -/
def paddedDigits (width n : Nat) : List Char :=
  let digits := Nat.toDigits 10 n
  List.replicate (width - digits.length) '0' ++ digits

def Numeral.chars (numeral : Numeral) : List Char :=
  (if numeral.negative then ['-'] else []) ++
  Nat.toDigits 10 (numeral.digits / Nat.pow 10 numeral.places) ++
  (if numeral.places = 0 then []
   else '.' :: paddedDigits numeral.places (numeral.digits % Nat.pow 10 numeral.places)) ++
  (match numeral.exponent with
   | none => []
   | some e => 'e' :: (if e < 0 then '-' else '+') :: Nat.toDigits 10 e.natAbs)

def Numeral.text (numeral : Numeral) : String :=
  String.ofList numeral.chars

/-- A numeric escape, with four hexadecimal digits in lower case. -/
def unitEscape (u : Nat) : List Char :=
  ['\\', 'u', (u / 0x1000 % 16).digitChar, (u / 0x100 % 16).digitChar,
    (u / 0x10 % 16).digitChar, (u % 16).digitChar]

def charLiteral (c : Char) : List Char :=
  match c with
  | '"' => ['\\', '"']
  | '\\' => ['\\', '\\']
  | '\x08' => ['\\', 'b']
  | '\t' => ['\\', 't']
  | '\n' => ['\\', 'n']
  | '\x0c' => ['\\', 'f']
  | '\r' => ['\\', 'r']
  | c => if c.toNat < 0x20 then unitEscape c.toNat else [c]

def Piece.chars : Piece → List Char
  | .char c => charLiteral c
  | .unit u => unitEscape u

def stringLiteral (pieces : List Piece) : List Char :=
  '"' :: pieces.flatMap Piece.chars ++ ['"']

namespace Document

mutual

def chars : Document → List Char
  | .null => ['n', 'u', 'l', 'l']
  | .bool true => ['t', 'r', 'u', 'e']
  | .bool false => ['f', 'a', 'l', 's', 'e']
  | .number numeral => numeral.chars
  | .string pieces => stringLiteral pieces
  | .array items => '[' :: itemChars items ++ [']']
  | .object members => '{' :: memberChars members ++ ['}']

def itemChars : List Document → List Char
  | [] => []
  | [item] => item.chars
  | item :: next :: rest => item.chars ++ ',' :: itemChars (next :: rest)

def memberChars : List (List Piece × Document) → List Char
  | [] => []
  | [(key, item)] => stringLiteral key ++ ':' :: item.chars
  | (key, item) :: next :: rest =>
      stringLiteral key ++ ':' :: item.chars ++ ',' :: memberChars (next :: rest)

end

def text (document : Document) : String :=
  String.ofList document.chars

end Document

end Stencil.Json
