import Stencil.Yaml.Scalar

namespace Stencil.Yaml

/-! A text as tokens. Indentation becomes tokens that begin and end block
collections. What is a key shows only at the colon behind it; the tokens that say
so are put in front of it then, at the place kept for a possible key. -/

inductive Token where
  | documentStart
  | documentEnd
  | blockSequenceStart
  | blockMappingStart
  | blockEnd
  | flowSequenceStart
  | flowSequenceEnd
  | flowMappingStart
  | flowMappingEnd
  | blockEntry
  | flowEntry
  | key
  | value
  | scalar (scalar : Scalar)
deriving DecidableEq, Repr

/-- A place where a key may begin. -/
structure PossibleKey where
  place : Nat
  required : Bool
  spot : Spot
deriving Repr

/-- The tokens of the beginning of a text, and what is open at its end. -/
structure TokenStream where
  tokens : List Token := []
  blocks : List Nat := []
  possibleKey : Option PossibleKey := none
  /-- The possible keys around each open flow collection, the innermost first. -/
  enclosing : List (Option PossibleKey) := []
  keyAllowed : Bool := true

namespace TokenStream

def inFlow (stream : TokenStream) : Bool :=
  !stream.enclosing.isEmpty

def push (stream : TokenStream) (token : Token) : TokenStream :=
  { stream with tokens := stream.tokens ++ [token] }

def insert (stream : TokenStream) (place : Nat) (token : Token) : TokenStream :=
  { stream with tokens := stream.tokens.take place ++ token :: stream.tokens.drop place }

/-- The least column where a line can go on with a scalar. -/
def continuation (stream : TokenStream) : Nat :=
  match stream.blocks with
  | [] => 0
  | column :: _ => column + 1

/-- Opens a block collection at a place if its column is right of all that are
open. -/
def openBlock (stream : TokenStream) (column place : Nat) (token : Token) : TokenStream :=
  if stream.inFlow then stream
  else if stream.continuation ≤ column then
    { stream.insert place token with blocks := column :: stream.blocks }
  else stream

def closeBlocksWhile (stream : TokenStream) (condition : Nat → Bool) : TokenStream :=
  if stream.inFlow then stream
  else
    { stream with
      tokens := stream.tokens ++ (stream.blocks.takeWhile condition).map fun _ => .blockEnd
      blocks := stream.blocks.dropWhile condition }

def keyAt (stream : TokenStream) (spot : Spot) : PossibleKey where
  place := stream.tokens.length
  required := !stream.inFlow && stream.blocks.head? == some spot.column
  spot

def dropKey? (stream : TokenStream) : Option TokenStream :=
  if stream.possibleKey.any PossibleKey.required then none
  else some { stream with possibleKey := none }

def noteKey? (stream : TokenStream) (spot : Spot) : Option TokenStream :=
  if stream.keyAllowed then
    stream.dropKey?.map fun dropped => { dropped with possibleKey := some (stream.keyAt spot) }
  else some stream

/-- A key stands on one line, and its colon no more than 1024 bytes of UTF-8 behind
its beginning. -/
def isStale (spot : Spot) (possible : PossibleKey) : Bool :=
  possible.spot.line < spot.line || possible.spot.offset + 1024 < spot.offset

def dropStale? (stream : TokenStream) (spot : Spot) : Option TokenStream :=
  let keys := stream.possibleKey :: stream.enclosing
  if keys.any fun key => key.any fun possible => isStale spot possible && possible.required then
    none
  else
    let keep (key : Option PossibleKey) := key.filter fun possible => !isStale spot possible
    some { stream with
      possibleKey := keep stream.possibleKey, enclosing := stream.enclosing.map keep }

def documentMarker? (stream : TokenStream) (token : Token) : Option TokenStream :=
  (stream.closeBlocksWhile fun _ => true).dropKey?.map fun dropped =>
    { dropped with keyAllowed := false }.push token

def openFlow? (stream : TokenStream) (spot : Spot) (token : Token) : Option TokenStream :=
  (stream.noteKey? spot).map fun noted =>
    { noted with
      enclosing := noted.possibleKey :: noted.enclosing, possibleKey := none
      keyAllowed := true }.push token

def closeFlow? (stream : TokenStream) (token : Token) : Option TokenStream :=
  stream.dropKey?.map fun dropped =>
    { dropped with
      possibleKey := dropped.enclosing.head?.join, enclosing := dropped.enclosing.tail
      keyAllowed := false }.push token

def flowEntry? (stream : TokenStream) : Option TokenStream :=
  stream.dropKey?.map fun dropped => { dropped with keyAllowed := true }.push .flowEntry

/-- Opens a block collection for an indicator, where a block collection may begin. -/
def openForIndicator? (stream : TokenStream) (spot : Spot) (token : Token) :
    Option TokenStream :=
  if stream.inFlow then some stream
  else if stream.keyAllowed then
    some (stream.openBlock spot.column stream.tokens.length token)
  else none

def blockEntry? (stream : TokenStream) (spot : Spot) : Option TokenStream := do
  let opened ← stream.openForIndicator? spot .blockSequenceStart
  let dropped ← opened.dropKey?
  some ({ dropped with keyAllowed := true }.push .blockEntry)

def markedKey? (stream : TokenStream) (spot : Spot) : Option TokenStream := do
  let opened ← stream.openForIndicator? spot .blockMappingStart
  let dropped ← opened.dropKey?
  some ({ dropped with keyAllowed := !dropped.inFlow }.push .key)

/-- A colon: what began at the place of the possible key was a key. -/
def value? (stream : TokenStream) (spot : Spot) : Option TokenStream :=
  match stream.possibleKey with
  | some possible =>
      let marked := stream.insert possible.place .key
      let opened := marked.openBlock possible.spot.column possible.place .blockMappingStart
      some ({ opened with possibleKey := none, keyAllowed := false }.push .value)
  | none =>
      (stream.openForIndicator? spot .blockMappingStart).map fun opened =>
        { opened with keyAllowed := !opened.inFlow }.push .value

/-- A scalar, behind which a key is allowed if its line has ended. -/
def scalar? (stream : TokenStream) (spot : Spot) (scalar : Scalar) (endsLine : Bool) :
    Option TokenStream :=
  (stream.noteKey? spot).map fun noted =>
    { noted with keyAllowed := endsLine }.push (.scalar scalar)

/-- The characters that begin no plain scalar, unless one of the exceptions in
`beginsPlain` holds. -/
def isIndicator (c : Char) : Bool :=
  isFlowIndicator c ||
    ['-', '?', ':', '#', '&', '*', '!', '|', '>', '\'', '"', '%', '@', '\x60'].contains c

def beginsPlain (inFlow : Bool) (spot : Spot) (rest : List Spot) : Bool :=
  !(isBlank spot.char || isIndicator spot.char) ||
    (!endsWord rest && (spot.char == '-' || (!inFlow && (spot.char == '?' || spot.char == ':'))))

/-- Reads the token that begins at a spot. Anchors, aliases, tags, directives and
block scalars are no part of this format. -/
def read? (stream : TokenStream) (spot : Spot) (rest : List Spot) :
    Option (TokenStream × List Spot) := do
  let stream ← stream.dropStale? spot
  let stream := stream.closeBlocksWhile fun column => spot.column < column
  let isWord := endsWord rest
  let only (next : Option TokenStream) := next.map fun stream => (stream, rest)
  if isMarker '-' (spot :: rest) then
    (stream.documentMarker? .documentStart).map fun stream => (stream, rest.drop 2)
  else if isMarker '.' (spot :: rest) then
    (stream.documentMarker? .documentEnd).map fun stream => (stream, rest.drop 2)
  else match spot.char with
    | '[' => only (stream.openFlow? spot .flowSequenceStart)
    | '\x7b' => only (stream.openFlow? spot .flowMappingStart)
    | ']' => only (stream.closeFlow? .flowSequenceEnd)
    | '\x7d' => only (stream.closeFlow? .flowMappingEnd)
    | ',' => only stream.flowEntry?
    | '\'' => do
        let (chars, rest) ← readSingle? .none rest
        (stream.scalar? spot ⟨.ofList chars, false⟩ false).map fun stream => (stream, rest)
    | '"' => do
        let (chars, rest) ← readDouble? .none rest
        (stream.scalar? spot ⟨.ofList chars, false⟩ false).map fun stream => (stream, rest)
    | c =>
        if c = '-' ∧ isWord then only (stream.blockEntry? spot)
        else if c = '?' ∧ (stream.inFlow ∨ isWord) then only (stream.markedKey? spot)
        else if c = ':' ∧ (stream.inFlow ∨ isWord) then only (stream.value? spot)
        else if beginsPlain stream.inFlow spot rest then do
          let plain ← readPlain? stream.inFlow stream.continuation .none (spot :: rest)
          (stream.scalar? spot ⟨.ofList plain.chars, true⟩ plain.endsLine).map fun stream =>
            (stream, plain.rest)
        else none

/-- The spots from the next token on, and whether a key may begin there. Outside
flow collections a key may begin on each new line, where tabs do not indent. -/
def skip (inFlow : Bool) (keyAllowed inComment : Bool) : List Spot → Bool × List Spot
  | [] => (keyAllowed, [])
  | spot :: rest =>
      if isBreak spot.char then skip inFlow (keyAllowed || !inFlow) false rest
      else if inComment || spot.char == ' ' || (spot.char == '\t' && (inFlow || !keyAllowed)) ||
          (spot.char == byteOrderMark && spot.column == 0) then
        skip inFlow keyAllowed inComment rest
      else if spot.char == '#' then skip inFlow keyAllowed true rest
      else (keyAllowed, spot :: rest)

/-- Reads tokens up to the end of the text. The fuel is a bound on their number. -/
def readAll? : Nat → TokenStream → List Spot → Option TokenStream
  | 0, _, _ => none
  | fuel + 1, stream, spots =>
      match skip stream.inFlow stream.keyAllowed false spots with
      | (_, []) => (stream.closeBlocksWhile fun _ => true).dropKey?
      | (keyAllowed, spot :: rest) => do
          let (stream, rest) ← { stream with keyAllowed }.read? spot rest
          readAll? fuel stream rest

end TokenStream

def Token.ofText? (text : String) : Option (List Token) := do
  let spots ← Spot.ofText? text
  let stream ← TokenStream.readAll? (spots.length + 1) {} spots
  some stream.tokens

end Stencil.Yaml
