import Stencil.Binary64.Basic

namespace Stencil

inductive Number where
  | integer (z : Int)
  | real (x : Binary64)
deriving DecidableEq, Repr

/-- The members of an object are ordered by their key, and no key occurs twice:
`Value.object` is built by `Value.insertMember` only. -/
inductive Value where
  | null
  | bool (b : Bool)
  | number (n : Number)
  | string (text : String)
  | array (items : List Value)
  | object (members : List (String × Value))

namespace Value

instance : Inhabited Value := ⟨.null⟩

def isNull : Value → Bool
  | .null => true
  | _ => false

/-- Puts a member in its place, instead of one with the same key. -/
def insertMember (key : String) (value : Value) :
    List (String × Value) → List (String × Value)
  | [] => [(key, value)]
  | (other, present) :: rest =>
      if key < other then (key, value) :: (other, present) :: rest
      else if key = other then (key, value) :: rest
      else (other, present) :: insertMember key value rest

/-- The member of an object with this key; nothing if there is none or the value
is no object. -/
def member? (key : String) : Value → Option Value
  | .object members => members.lookup key
  | _ => none

mutual

/-- No object in the value has two members with one key. -/
def KeysDistinct : Value → Prop
  | .array items => ItemKeysDistinct items
  | .object members => (members.map Prod.fst).Nodup ∧ MemberKeysDistinct members
  | _ => True

def ItemKeysDistinct : List Value → Prop
  | [] => True
  | item :: rest => item.KeysDistinct ∧ ItemKeysDistinct rest

def MemberKeysDistinct : List (String × Value) → Prop
  | [] => True
  | (_, item) :: rest => item.KeysDistinct ∧ MemberKeysDistinct rest

end

end Value

end Stencil
