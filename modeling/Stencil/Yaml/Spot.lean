namespace Stencil.Yaml

/-! A text as a list of characters that know where they stand. A line ends with a
line feed, a carriage return, both, a next-line character, or a line or paragraph
separator; all but the last two are taken for a line feed. -/

structure Spot where
  char : Char
  line : Nat
  column : Nat
  /-- The length in UTF-8 of the text before it. -/
  offset : Nat
deriving DecidableEq, Repr

def lineSeparator : Char := '\u2028'

def paragraphSeparator : Char := '\u2029'

def byteOrderMark : Char := '\ufeff'

def isBreak (c : Char) : Bool :=
  c == '\n' || c == lineSeparator || c == paragraphSeparator

def isBlank (c : Char) : Bool :=
  c == ' ' || c == '\t'

/-- The characters that may occur in a text. -/
def isPrintable (c : Char) : Bool :=
  c == '\t' || c == '\n' || c == '\r' || (' ' ≤ c && c ≤ '~') || c == '\u0085' ||
    ('\u00a0' ≤ c && c ≤ '\ufffd') || 0x10000 ≤ c.toNat

namespace Spot

def spotsFrom (line column offset : Nat) : List Char → List Spot
  | [] => []
  | '\r' :: '\n' :: rest =>
      ⟨'\n', line, column, offset⟩ :: spotsFrom (line + 1) 0 (offset + 2) rest
  | c :: rest =>
      let next := offset + c.utf8Size
      let c := if c = '\r' ∨ c = '\u0085' then '\n' else c
      ⟨c, line, column, offset⟩ ::
        if isBreak c then spotsFrom (line + 1) 0 next rest else spotsFrom line (column + 1) next rest

/-- The characters of a text; none if there is one that may not occur. A byte order
mark takes a column like any other. -/
def ofText? (text : String) : Option (List Spot) :=
  let chars := text.toList
  if chars.all isPrintable then some (spotsFrom 0 0 0 chars) else none

end Spot

def endsWord (rest : List Spot) : Bool :=
  match rest with
  | [] => true
  | spot :: _ => isBlank spot.char || isBreak spot.char

/-- Three times this character at the beginning of a line, and nothing right
behind. -/
def isMarker (c : Char) (spots : List Spot) : Bool :=
  match spots with
  | first :: second :: third :: rest =>
      first.column == 0 && first.char == c && second.char == c && third.char == c && endsWord rest
  | _ => false

def isDocumentMarker (spots : List Spot) : Bool :=
  isMarker '-' spots || isMarker '.' spots

end Stencil.Yaml
