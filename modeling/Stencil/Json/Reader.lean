import Stencil.Json.Document
import Stencil.Text.Characters

namespace Stencil.Json

/-! Reading a JSON document from its text. The grammar is strict: no trailing
comma, no comment, no leading zero or plus sign, no bare control character in a
string, and white space is space, tab, line feed and carriage return. Depth is
not limited. -/

def isBlank (c : Char) : Bool :=
  c == ' ' || c == '\t' || c == '\n' || c == '\r'

def skipBlank (text : List Char) : List Char :=
  text.dropWhile isBlank

def takeDigits (text : List Char) : List Char × List Char :=
  (text.takeWhile Char.isDigit, text.dropWhile Char.isDigit)

def value (digits : List Char) : Nat :=
  Nat.ofDigitChars 10 digits 0

def readExponent? (text : List Char) : Option (Option Int × List Char) :=
  match text with
  | mark :: rest =>
      if mark = 'e' ∨ mark = 'E' then
        let (negative, rest) := match rest with
          | '-' :: rest => (true, rest)
          | '+' :: rest => (false, rest)
          | _ => (false, rest)
        let (digits, rest) := takeDigits rest
        if digits = [] then none
        else some (some (if negative then -(value digits : Int) else value digits), rest)
      else some (none, text)
  | [] => some (none, [])

def readNumeral? (text : List Char) : Option (Numeral × List Char) := do
  let (negative, rest) := match text with
    | '-' :: rest => (true, rest)
    | _ => (false, text)
  let (whole, rest) := takeDigits rest
  if whole = [] ∨ (whole.head? = some '0' ∧ whole ≠ ['0']) then none
  let (places, rest) ← match rest with
    | '.' :: rest =>
        let (places, rest) := takeDigits rest
        if places = [] then none else some (places, rest)
    | _ => some ([], rest)
  let (exponent, rest) ← readExponent? rest
  some (⟨negative, value (whole ++ places), places.length, exponent⟩, rest)

/-- The 16-bit unit written as four hexadecimal digits. -/
def hexUnit? (a b c d : Char) : Option Nat := do
  some ((← Text.hexDigit? a) * 0x1000 + (← Text.hexDigit? b) * 0x100 +
    (← Text.hexDigit? c) * 0x10 + (← Text.hexDigit? d))

def shortEscape? : Char → Option Char
  | '"' => some '"'
  | '\\' => some '\\'
  | '/' => some '/'
  | 'b' => some '\x08'
  | 'f' => some '\x0c'
  | 'n' => some '\n'
  | 'r' => some '\r'
  | 't' => some '\t'
  | _ => none

/-- Reads the rest of a string literal, behind its opening quote. -/
def readPieces? : List Char → Option (List Piece × List Char)
  | [] => none
  | '"' :: rest => some ([], rest)
  | '\\' :: 'u' :: a :: b :: c :: d :: rest => do
      let u ← hexUnit? a b c d
      let (more, rest) ← readPieces? rest
      some (.unit u :: more, rest)
  | '\\' :: letter :: rest => do
      let c ← shortEscape? letter
      let (more, rest) ← readPieces? rest
      some (.char c :: more, rest)
  | c :: rest => do
      if c = '\\' ∨ c.toNat < 0x20 then none
      let (more, rest) ← readPieces? rest
      some (.char c :: more, rest)

mutual

/-- Reads a document at the beginning of the text. The fuel is a bound on the
calls that still follow. -/
def readDocument? : Nat → List Char → Option (Document × List Char)
  | 0, _ => none
  | fuel + 1, text =>
      match skipBlank text with
      | 'n' :: 'u' :: 'l' :: 'l' :: rest => some (.null, rest)
      | 't' :: 'r' :: 'u' :: 'e' :: rest => some (.bool true, rest)
      | 'f' :: 'a' :: 'l' :: 's' :: 'e' :: rest => some (.bool false, rest)
      | '"' :: rest => do
          let (pieces, rest) ← readPieces? rest
          some (.string pieces, rest)
      | '[' :: rest =>
          match skipBlank rest with
          | ']' :: rest => some (.array [], rest)
          | rest => do
              let (items, rest) ← readItems? fuel rest
              some (.array items, rest)
      | '{' :: rest =>
          match skipBlank rest with
          | '}' :: rest => some (.object [], rest)
          | rest => do
              let (members, rest) ← readMembers? fuel rest
              some (.object members, rest)
      | rest => do
          let (numeral, rest) ← readNumeral? rest
          some (.number numeral, rest)

def readItems? : Nat → List Char → Option (List Document × List Char)
  | 0, _ => none
  | fuel + 1, text => do
      let (item, rest) ← readDocument? fuel text
      match skipBlank rest with
      | ',' :: rest => do
          let (items, rest) ← readItems? fuel rest
          some (item :: items, rest)
      | ']' :: rest => some ([item], rest)
      | _ => none

def readMembers? : Nat → List Char → Option (List (List Piece × Document) × List Char)
  | 0, _ => none
  | fuel + 1, text =>
      match skipBlank text with
      | '"' :: rest => do
          let (key, rest) ← readPieces? rest
          match skipBlank rest with
          | ':' :: rest => do
              let (item, rest) ← readDocument? fuel rest
              match skipBlank rest with
              | ',' :: rest => do
                  let (members, rest) ← readMembers? fuel rest
                  some ((key, item) :: members, rest)
              | '}' :: rest => some ([(key, item)], rest)
              | _ => none
          | _ => none
      | _ => none

end

/-- The document that the whole text is, if it is one. Each call but one in two
consumes a character, so twice the length of the text is fuel enough. -/
def Document.ofText? (text : String) : Option Document := do
  let chars := text.toList
  let (document, rest) ← readDocument? (2 * chars.length + 2) chars
  if skipBlank rest = [] then some document else none

end Stencil.Json
