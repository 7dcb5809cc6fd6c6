import Stencil.Yaml.Token

namespace Stencil.Yaml

inductive Node where
  | scalar (scalar : Scalar)
  | sequence (items : List Node)
  | mapping (members : List (Node × Node))

namespace Node

def empty : Node := .scalar .empty

def comes (expected tokens : List Token) : Bool :=
  match tokens with
  | token :: _ => expected.contains token
  | [] => false

/-- The collections that may begin at a place. -/
inductive Place where
  | flow
  | block
  /-- In a block mapping also a block sequence that is not indented. -/
  | member
deriving DecidableEq, Repr

mutual

/-- Reads a node. The fuel is a bound on the calls that still follow. -/
def readNode? : Nat → Place → List Token → Option (Node × List Token)
  | 0, _, _ => none
  | fuel + 1, place, tokens =>
      match tokens with
      | .scalar found :: rest => some (.scalar found, rest)
      | .flowSequenceStart :: rest =>
          (readFlowItems? fuel true rest).map fun (items, rest) => (.sequence items, rest)
      | .flowMappingStart :: rest =>
          (readFlowMembers? fuel true rest).map fun (members, rest) => (.mapping members, rest)
      | .blockSequenceStart :: rest =>
          if place = .flow then none
          else (readItems? fuel rest).map fun (items, rest) => (.sequence items, rest)
      | .blockMappingStart :: rest =>
          if place = .flow then none
          else (readMembers? fuel rest).map fun (members, rest) => (.mapping members, rest)
      | .blockEntry :: _ =>
          if place = .member then
            (readUnindentedItems? fuel tokens).map fun (items, rest) => (.sequence items, rest)
          else none
      | _ => none

def readItems? : Nat → List Token → Option (List Node × List Token)
  | 0, _ => none
  | fuel + 1, tokens =>
      match tokens with
      | .blockEntry :: rest => do
          let (item, rest) ←
            if comes [.blockEntry, .blockEnd] rest then some (empty, rest)
            else readNode? fuel .block rest
          let (items, rest) ← readItems? fuel rest
          some (item :: items, rest)
      | .blockEnd :: rest => some ([], rest)
      | _ => none

/-- Reads the items of a block sequence that is not indented. It ends in front of
any other token. -/
def readUnindentedItems? : Nat → List Token → Option (List Node × List Token)
  | 0, _ => none
  | fuel + 1, tokens =>
      match tokens with
      | .blockEntry :: rest => do
          let (item, rest) ←
            if comes [.blockEntry, .key, .value, .blockEnd] rest then some (empty, rest)
            else readNode? fuel .block rest
          let (items, rest) ← readUnindentedItems? fuel rest
          some (item :: items, rest)
      | _ => some ([], tokens)

def readMembers? : Nat → List Token → Option (List (Node × Node) × List Token)
  | 0, _ => none
  | fuel + 1, tokens =>
      match tokens with
      | .key :: rest => do
          let ends := [.key, .value, .blockEnd]
          let (key, rest) ←
            if comes ends rest then some (empty, rest) else readNode? fuel .member rest
          let (value, rest) ← match rest with
            | .value :: rest =>
                if comes ends rest then some (empty, rest) else readNode? fuel .member rest
            | _ => some (empty, rest)
          let (members, rest) ← readMembers? fuel rest
          some ((key, value) :: members, rest)
      | .blockEnd :: rest => some ([], rest)
      | _ => none

/-- Reads the items of a flow sequence up to its end. A comma stands between two
items and may stand behind the last. A key begins a mapping of one member. -/
def readFlowItems? : Nat → (first : Bool) → List Token → Option (List Node × List Token)
  | 0, _, _ => none
  | fuel + 1, first, tokens =>
      match tokens with
      | .flowSequenceEnd :: rest => some ([], rest)
      | _ => do
          let tokens ← match first, tokens with
            | true, _ => some tokens
            | false, .flowEntry :: rest => some rest
            | false, _ => none
          match tokens with
          | .flowSequenceEnd :: rest => some ([], rest)
          | .key :: rest => do
              let (key, rest) ←
                if comes [.value, .flowEntry, .flowSequenceEnd] rest then
                  -- the token that shows the key to be empty is passed over
                  some (empty, rest.tail)
                else readNode? fuel .flow rest
              let (value, rest) ← readFlowValue? fuel [.flowEntry, .flowSequenceEnd] rest
              let (items, rest) ← readFlowItems? fuel false rest
              some (.mapping [(key, value)] :: items, rest)
          | _ => do
              let (item, rest) ← readNode? fuel .flow tokens
              let (items, rest) ← readFlowItems? fuel false rest
              some (item :: items, rest)

def readFlowMembers? : Nat → (first : Bool) → List Token →
    Option (List (Node × Node) × List Token)
  | 0, _, _ => none
  | fuel + 1, first, tokens =>
      match tokens with
      | .flowMappingEnd :: rest => some ([], rest)
      | _ => do
          let tokens ← match first, tokens with
            | true, _ => some tokens
            | false, .flowEntry :: rest => some rest
            | false, _ => none
          match tokens with
          | .flowMappingEnd :: rest => some ([], rest)
          | .key :: rest => do
              let (key, rest) ←
                if comes [.value, .flowEntry, .flowMappingEnd] rest then some (empty, rest)
                else readNode? fuel .flow rest
              let (value, rest) ← readFlowValue? fuel [.flowEntry, .flowMappingEnd] rest
              let (members, rest) ← readFlowMembers? fuel false rest
              some ((key, value) :: members, rest)
          | _ => do
              let (key, rest) ← readNode? fuel .flow tokens
              let (members, rest) ← readFlowMembers? fuel false rest
              some ((key, empty) :: members, rest)

/-- Reads the value of a member in a flow collection. It may be left out in front
of the given tokens, and with its colon. -/
def readFlowValue? : Nat → (ends : List Token) → List Token → Option (Node × List Token)
  | 0, _, _ => none
  | fuel + 1, ends, tokens =>
      match tokens with
      | .value :: rest =>
          if comes ends rest then some (empty, rest) else readNode? fuel .flow rest
      | _ => some (empty, tokens)

end

/-- The content of the one document in a stream. It may begin with a marker, and
any number of markers may end it. -/
def ofTokens? (tokens : List Token) : Option Node := do
  let marked := tokens.head? = some .documentStart
  let content := if marked then tokens.tail else tokens
  let (node, rest) ←
    if content = [] ∨ (marked ∧ comes [.documentStart, .documentEnd] content) then
      some (empty, content)
    else readNode? (3 * content.length + 1) .block content
  if rest.all fun token => token == .documentEnd then some node else none

def ofText? (text : String) : Option Node :=
  (Token.ofText? text).bind ofTokens?

end Node

end Stencil.Yaml
