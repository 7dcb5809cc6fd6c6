import Stencil.Text.Characters
import Stencil.Yaml.Spot

namespace Stencil.Yaml

/-- A scalar without quotes may stand for something else than its text. -/
structure Scalar where
  text : String
  plain : Bool
deriving DecidableEq, Repr

def Scalar.empty : Scalar := ⟨"", true⟩

/-- White space between two characters of a scalar. -/
inductive Gap where
  | blanks (chars : List Char)
  /-- Line breaks, the first of which may be escaped. Blanks around them do not
  count. -/
  | lines (first : Option Char) (more : List Char)
deriving DecidableEq, Repr

namespace Gap

def none : Gap := .blanks []

def addBlank (c : Char) : Gap → Gap
  | .blanks chars => .blanks (chars ++ [c])
  | .lines first more => .lines first more

def addBreak (c : Char) : Gap → Gap
  | .blanks _ => .lines (some c) []
  | .lines first more => .lines first (more ++ [c])

def hasBreak : Gap → Bool
  | .blanks _ => false
  | .lines _ _ => true

def folded : Gap → List Char
  | .blanks chars => chars
  | .lines (some '\n') [] => [' ']
  | .lines (some '\n') more => more
  | .lines (some c) more => c :: more
  | .lines .none more => more

end Gap

structure PlainScalar where
  chars : List Char
  /-- The scalar ends behind a line break. -/
  endsLine : Bool
  rest : List Spot

def isFlowIndicator (c : Char) : Bool :=
  c == ',' || c == '[' || c == ']' || c == '\x7b' || c == '\x7d'

/-- A plain scalar ends in front of a colon that ends a word and inside a flow
collection in front of an indicator; behind white space also in front of a comment,
of the beginning or end of a document and, outside flow collections, of a column
left of `indent`. -/
def endsPlain (inFlow : Bool) (indent : Nat) (gap : Gap) (spot : Spot) (rest : List Spot) : Bool :=
  (spot.char == ':' && endsWord rest) || (inFlow && isFlowIndicator spot.char) ||
    (gap != .none &&
      (spot.char == '#' || isDocumentMarker (spot :: rest) || (!inFlow && spot.column < indent)))

/-- Inside a flow collection a colon must not touch an indicator. -/
def isMisplacedColon (inFlow : Bool) (spot : Spot) (rest : List Spot) : Bool :=
  inFlow && spot.char == ':' &&
    rest.head?.any fun next => next.char == '?' || isFlowIndicator next.char

/-- Reads the rest of a plain scalar, with the white space since its last character.
A tab must not indent a line that is not part of it. -/
def readPlain? (inFlow : Bool) (indent : Nat) (gap : Gap) : List Spot → Option PlainScalar
  | [] => some ⟨[], gap.hasBreak, []⟩
  | spot :: rest =>
      if isBlank spot.char then
        if gap.hasBreak ∧ spot.char = '\t' ∧ spot.column < indent then none
        else readPlain? inFlow indent (gap.addBlank spot.char) rest
      else if isBreak spot.char then readPlain? inFlow indent (gap.addBreak spot.char) rest
      else if isMisplacedColon inFlow spot rest then none
      else if endsPlain inFlow indent gap spot rest then some ⟨[], gap.hasBreak, spot :: rest⟩
      else (readPlain? inFlow indent .none rest).map fun more =>
        { more with chars := gap.folded ++ spot.char :: more.chars }

def letterEscape? : Char → Option Char
  | '0' => some '\x00'
  | 'a' => some '\x07'
  | 'b' => some '\x08'
  | 't' | '\t' => some '\t'
  | 'n' => some '\n'
  | 'v' => some '\x0b'
  | 'f' => some '\x0c'
  | 'r' => some '\r'
  | 'e' => some '\x1b'
  | ' ' => some ' '
  | '"' => some '"'
  | '/' => some '/'
  | '\\' => some '\\'
  | 'N' => some '\u0085'
  | '_' => some '\u00a0'
  | 'L' => some lineSeparator
  | 'P' => some paragraphSeparator
  | _ => none

def escapeWidth? : Char → Option Nat
  | 'x' => some 2
  | 'u' => some 4
  | 'U' => some 8
  | _ => none

def numericEscape? (digits : List Char) : Option Char := do
  let values ← digits.mapM Text.hexDigit?
  let code := values.foldl (fun before digit => 16 * before + digit) 0
  if code.isValidChar then some (Char.ofNat code) else none

def readEscape? (letter : Char) (rest : List Spot) : Option (Char × List Spot) :=
  match escapeWidth? letter with
  | some width =>
      if width ≤ rest.length then
        (numericEscape? ((rest.take width).map Spot.char)).map fun c => (c, rest.drop width)
      else none
  | none => (letterEscape? letter).map fun c => (c, rest)

theorem length_of_readEscape? {letter c : Char} {rest beyond : List Spot}
    (read : readEscape? letter rest = some (c, beyond)) : beyond.length ≤ rest.length := by
  unfold readEscape? at read
  split at read
  · split at read
    · obtain ⟨_, _, same⟩ := Option.map_eq_some_iff.mp read
      cases same
      simp
    · contradiction
  · obtain ⟨_, _, same⟩ := Option.map_eq_some_iff.mp read
    cases same
    exact Nat.le_refl _

/-- Reads the rest of a scalar in single quotes, where a quote is written twice. -/
def readSingle? (gap : Gap) : List Spot → Option (List Char × List Spot)
  | [] => none
  | spot :: rest =>
      if isBlank spot.char then readSingle? (gap.addBlank spot.char) rest
      else if isBreak spot.char then readSingle? (gap.addBreak spot.char) rest
      else if isDocumentMarker (spot :: rest) then none
      else if spot.char = '\'' then
        match rest with
        | next :: beyond =>
            if next.char = '\'' then
              (readSingle? .none beyond).map fun (chars, rest) =>
                (gap.folded ++ '\'' :: chars, rest)
            else some (gap.folded, rest)
        | [] => some (gap.folded, [])
      else
        (readSingle? .none rest).map fun (chars, rest) => (gap.folded ++ spot.char :: chars, rest)

/-- Reads the rest of a scalar in double quotes, with escapes. -/
def readDouble? (gap : Gap) (spots : List Spot) : Option (List Char × List Spot) :=
  match spots with
  | [] => none
  | spot :: rest =>
      if isBlank spot.char then readDouble? (gap.addBlank spot.char) rest
      else if isBreak spot.char then readDouble? (gap.addBreak spot.char) rest
      else if isDocumentMarker (spot :: rest) then none
      else if spot.char = '"' then some (gap.folded, rest)
      else if spot.char = '\\' then
        match rest with
        | [] => none
        | letter :: beyond =>
            if isBreak letter.char then
              (readDouble? (.lines .none []) beyond).map fun (chars, rest) =>
                (gap.folded ++ chars, rest)
            else
              match _read : readEscape? letter.char beyond with
              | none => none
              | some (c, beyond) =>
                  (readDouble? .none beyond).map fun (chars, rest) =>
                    (gap.folded ++ c :: chars, rest)
      else
        (readDouble? .none rest).map fun (chars, rest) => (gap.folded ++ spot.char :: chars, rest)
termination_by spots.length
decreasing_by
  all_goals try have := length_of_readEscape? _read
  all_goals simp only [List.length_cons]
  all_goals omega

end Stencil.Yaml
