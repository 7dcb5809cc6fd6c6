import Stencil.Record
import Stencil.Yaml.Node

namespace Stencil.Yaml.Node

/-- The members of a mapping with their names; none if a key is no scalar. -/
def namedMembers? : List (Node × Node) → Option (List (String × Node))
  | [] => some []
  | (.scalar name, node) :: rest => (namedMembers? rest).map ((name.text, node) :: ·)
  | _ => none

/-- Nothing is written, not even quotes. -/
def isEmpty : Node → Bool
  | .scalar found => found == .empty
  | _ => false

/-- The record with these fields that a node is. -/
def record? (names : List String) (node : Node) : Option (Record Node) :=
  match node with
  | .mapping members => (namedMembers? members).bind (Record.ofMembers? names)
  | _ => if node.isEmpty then some ⟨[]⟩ else none

def text? : Node → Option String
  | .scalar found => some found.text
  | _ => none

/-- The plain scalars that stand for null. -/
def nulls : List String := ["", "~", "null", "Null", "NULL"]

/-- The values of fields in YAML. An empty node is also a list without items. -/
def fieldFormat : FieldFormat Node where
  text? := text?
  choice? := text?
  bool?
    | .scalar ⟨text, true⟩ =>
        if ["true", "True", "TRUE"].contains text then some true
        else if ["false", "False", "FALSE"].contains text then some false
        else none
    | _ => none
  isNull
    | .scalar ⟨text, true⟩ => nulls.contains text
    | _ => false
  items?
    | .sequence items => some items
    | node => if node.isEmpty then some [] else none

end Stencil.Yaml.Node
