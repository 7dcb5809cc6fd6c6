import Stencil.Value.Basic

namespace Stencil.Value

inductive IsNodeOf (node : Value) : Value → Prop where
  | root : IsNodeOf node node
  | item {item : Value} {items : List Value} (listed : item ∈ items)
      (inside : IsNodeOf node item) : IsNodeOf node (.array items)
  | member {key : String} {value : Value} {members : List (String × Value)}
      (listed : (key, value) ∈ members) (inside : IsNodeOf node value) :
      IsNodeOf node (.object members)

/-- The way to a member of an object or to an item of an array. -/
inductive Edge where
  | key (key : String)
  | index (index : Nat)

inductive NodeAt : Value → List Edge → Value → Prop where
  | root (data : Value) : NodeAt data [] data
  | member {key : String} {value node : Value} {members : List (String × Value)}
      {address : List Edge} (listed : (key, value) ∈ members)
      (inside : NodeAt value address node) :
      NodeAt (.object members) (.key key :: address) node
  | item {index : Nat} {item node : Value} {items : List Value} {address : List Edge}
      (found : items[index]? = some item) (inside : NodeAt item address node) :
      NodeAt (.array items) (.index index :: address) node

/-- No array in the data has more items. -/
def ArraysWithin (limit : Nat) (data : Value) : Prop :=
  ∀ items, (array items).IsNodeOf data → items.length ≤ limit

variable {data node : Value} {items : List Value} {members : List (String × Value)}
  {limit : Nat}

theorem IsNodeOf.exists_address (isNode : node.IsNodeOf data) :
    ∃ address, data.NodeAt address node := by
  induction isNode with
  | root => exact ⟨[], .root node⟩
  | item listed _ ih =>
      obtain ⟨address, found⟩ := ih
      obtain ⟨index, present⟩ := List.mem_iff_getElem?.mp listed
      exact ⟨.index index :: address, .item present found⟩
  | @member key _ _ listed _ ih =>
      obtain ⟨address, found⟩ := ih
      exact ⟨.key key :: address, .member listed found⟩

theorem arraysWithin_array :
    (array items).ArraysWithin limit ↔
      items.length ≤ limit ∧ ∀ item ∈ items, item.ArraysWithin limit := by
  constructor
  · intro within
    exact ⟨within items .root, fun item listed inner inside => within inner (.item listed inside)⟩
  · rintro ⟨own, others⟩ inner (_ | ⟨listed, inside⟩)
    · exact own
    · exact others _ listed inner inside

theorem arraysWithin_object :
    (object members).ArraysWithin limit ↔
      ∀ member ∈ members, member.2.ArraysWithin limit := by
  constructor
  · intro within member listed inner inside
    exact within inner (.member listed inside)
  · rintro within inner (_ | _ | ⟨listed, inside⟩)
    exact within _ listed inner inside

end Stencil.Value
