import Stencil.Host
import Stencil.Proofs.DataNodes
import Stencil.Proofs.DistinctKeys
import Stencil.Proofs.IndexNames
import Stencil.Proofs.PathGrammar

namespace Stencil.Path

open Value (Edge NodeAt)

/-- The names on the way. There are none on the way to the whole data. -/
def names : Path → List String
  | .current => []
  | .segments names => names

/-- A name leads from an object to the member with this key, and from an array to the item at
the index that the name writes. -/
inductive StepsTo : Value → String → Value → Prop where
  | member {name : String} {value : Value} {members : List (String × Value)}
      (listed : (name, value) ∈ members) : StepsTo (.object members) name value
  | item {name : String} {index : Nat} {item : Value} {items : List Value}
      (written : WritesIndex name index) (found : items[index]? = some item) :
      StepsTo (.array items) name item

inductive Reaches : Value → List String → Value → Prop where
  | here (data : Value) : Reaches data [] data
  | step {data next value : Value} {name : String} {names : List String}
      (first : StepsTo data name next) (others : Reaches next names value) :
      Reaches data (name :: names) value

variable {data value node : Value} {name : String} {names : List String}
  {address : List Edge}

theorem step?_eq_some_iff (distinct : data.KeysDistinct) :
    step? data name = some value ↔ StepsTo data name value := by
  cases data with
  | null | bool _ | number _ | string _ =>
      constructor
      · intro found
        contradiction
      · intro steps
        cases steps
  | array items =>
      rw [step?, Option.bind_eq_some_iff]
      constructor
      · rintro ⟨index, written, found⟩
        exact .item (index?_eq_some_iff.mp written) found
      · rintro (_ | ⟨written, found⟩)
        exact ⟨_, index?_eq_some_iff.mpr written, found⟩
  | object members =>
      rw [step?, distinct.member?_eq_some_iff]
      constructor
      · exact .member
      · rintro ⟨listed⟩
        exact listed

theorem StepsTo.keysDistinct (steps : StepsTo data name value) (distinct : data.KeysDistinct) :
    value.KeysDistinct := by
  cases steps with
  | member listed => exact distinct.of_member listed
  | item _ found => exact distinct.of_item (List.mem_of_getElem? found)

theorem follow?_eq_some_iff (distinct : data.KeysDistinct) :
    follow? data names = some value ↔ Reaches data names value := by
  induction names generalizing data with
  | nil =>
      rw [follow?, Option.some.injEq]
      constructor
      · rintro rfl
        exact .here data
      · rintro ⟨⟩
        rfl
  | cons name names ih =>
      rw [follow?, Option.bind_eq_some_iff]
      constructor
      · rintro ⟨next, first, others⟩
        have steps := (step?_eq_some_iff distinct).mp first
        exact .step steps ((ih (steps.keysDistinct distinct)).mp others)
      · rintro (_ | ⟨steps, others⟩)
        exact ⟨_, (step?_eq_some_iff distinct).mpr steps,
          (ih (steps.keysDistinct distinct)).mpr others⟩

theorem follow?_append (data : Value) (first second : List String) :
    follow? data (first ++ second) = (follow? data first).bind (follow? · second) := by
  induction first generalizing data with
  | nil => rfl
  | cons name first ih =>
      rw [List.cons_append, follow?, follow?, Option.bind_assoc]
      congr 1
      funext next
      exact ih next

theorem evaluate_eq_follow? (path : Path) (data : Value) :
    path.evaluate data = follow? data path.names := by
  cases path <;> rfl

theorem language_evaluate (path : Path) (data : Value) :
    language.evaluate path data = .ok (follow? data path.names) :=
  congrArg Except.ok (evaluate_eq_follow? path data)

theorem language_evaluate_eq_some_iff (distinct : data.KeysDistinct) (path : Path) :
    language.evaluate path data = .ok (some value) ↔ Reaches data path.names value := by
  rw [language_evaluate, Except.ok.injEq, follow?_eq_some_iff distinct]

theorem evaluate_append (first second : Path) (data : Value) :
    evaluate (.segments (first.names ++ second.names)) data =
      (first.evaluate data).bind second.evaluate := by
  rw [evaluate_eq_follow? first, evaluate, follow?_append]
  congr 1
  funext middle
  exact (evaluate_eq_follow? second middle).symm

theorem Reaches.isNodeOf (reaches : Reaches data names value) : value.IsNodeOf data := by
  induction reaches with
  | here data => exact .root
  | step first _ ih =>
      cases first with
      | member listed => exact .member listed ih
      | item _ found => exact .item (List.mem_of_getElem? found) ih

/-! ### Addresses -/

/-- A key as it is, an index in decimal. -/
def edgeName : Edge → String
  | .key key => key
  | .index index => toString index

/-- The expression for the node at an address. -/
def addressText : List Edge → String
  | [] => "."
  | address => ".".intercalate (address.map edgeName)

/-- No array is so long that it has items beyond the greatest index. -/
theorem reaches_of_nodeAt (located : data.NodeAt address node)
    (bounded : data.ArraysWithin (maxIndex + 1)) :
    Reaches data (address.map edgeName) node := by
  induction located with
  | root data => exact .here data
  | member listed _ ih =>
      exact .step (.member listed) (ih (Value.arraysWithin_object.mp bounded _ listed))
  | @item index _ _ items _ found _ ih =>
      obtain ⟨short, others⟩ := Value.arraysWithin_array.mp bounded
      have inside : index < items.length := (List.getElem?_eq_some_iff.mp found).1
      have written : WritesIndex (toString index) index := writesIndex_toString (by omega)
      exact .step (.item written found) (ih (others _ (List.mem_of_getElem? found)))

theorem isName_toString (index : Nat) : IsName (toString index) := by
  rw [IsName, Nat.toString_eq_repr, Nat.toList_repr]
  refine ⟨Nat.repr_ne_empty, ?_⟩
  have nameChars : ∀ n < 10, isNameChar n.digitChar = true := by decide +kernel
  intro c member
  obtain ⟨n, small, rfl⟩ := Text.exists_digitChar (Text.isDigit_toDigits _ _ member)
  exact nameChars n small

theorem parse_addressText (areNames : ∀ key, .key key ∈ address → IsName key) :
    ∃ path, parse (addressText address) = .ok path ∧ path.names = address.map edgeName := by
  cases address with
  | nil => exact ⟨.current, rfl, rfl⟩
  | cons edge address =>
      have wellFormed : (segments ((edge :: address).map edgeName)).WellFormed := by
        refine ⟨by simp, ?_⟩
        intro name listed
        obtain ⟨edge, member, rfl⟩ := List.mem_map.mp listed
        cases edge with
        | key key => exact areNames key member
        | index index => exact isName_toString index
      have read : parse ("" ++ text (.segments ((edge :: address).map edgeName)) ++ "") = .ok _ :=
        parse_padded wellFormed (by simp) (by simp)
      rw [String.empty_append, String.append_empty] at read
      exact ⟨_, read, rfl⟩

/-- A path leads to the value that its names reach one by one, and to nothing if there is none.
So paths lead to the nodes of the data, and to each by its address. -/
theorem evaluate_exact (data : Value) (distinct : data.KeysDistinct)
    (bounded : data.ArraysWithin (2 ^ 64)) :
    (∀ path : Path, ∃ found, language.evaluate path data = .ok found ∧
      ∀ value, found = some value ↔ Reaches data path.names value) ∧
    (∀ first second : Path, evaluate (.segments (first.names ++ second.names)) data =
      (first.evaluate data).bind second.evaluate) ∧
    (∀ node : Value, node.IsNodeOf data ↔
      ∃ path, language.evaluate path data = .ok (some node)) ∧
    (∀ node : Value, node.IsNodeOf data → ∃ address, data.NodeAt address node) ∧
    (∀ (address : List Edge) (node : Value), data.NodeAt address node →
      language.evaluate (.segments (address.map edgeName)) data = .ok (some node) ∧
      ((∀ key, .key key ∈ address → IsName key) →
        ∃ path, parse (addressText address) = .ok path ∧
          language.evaluate path data = .ok (some node))) := by
  have leads (path : Path) (node : Value) :
      language.evaluate path data = .ok (some node) ↔ Reaches data path.names node :=
    language_evaluate_eq_some_iff distinct path
  have located {address : List Edge} {node : Value} (found : data.NodeAt address node) :
      language.evaluate (.segments (address.map edgeName)) data = .ok (some node) :=
    (leads _ node).mpr (reaches_of_nodeAt found bounded)
  refine ⟨?sound, (evaluate_append · · data), ?nodes, fun _ => Value.IsNodeOf.exists_address,
    ?addresses⟩
  case sound =>
    intro path
    exact ⟨_, language_evaluate path data, fun _ => follow?_eq_some_iff distinct⟩
  case nodes =>
    intro node
    constructor
    · intro isNode
      obtain ⟨address, found⟩ := isNode.exists_address
      exact ⟨_, located found⟩
    · rintro ⟨path, found⟩
      exact ((leads path node).mp found).isNodeOf
  case addresses =>
    intro address node found
    refine ⟨located found, ?_⟩
    intro areNames
    obtain ⟨path, read, same⟩ := parse_addressText areNames
    refine ⟨path, read, (leads path node).mpr ?_⟩
    rw [same]
    exact reaches_of_nodeAt found bounded

/-- An item behind a null is found by another spelling of its index, and the string in it by
the expression of its address. -/
theorem evaluate_in_nested_items :
    let data := Value.object
      [("", .null), ("a", .array [.null, .object [("b-1", .string "x")]])]
    data.KeysDistinct ∧ data.ArraysWithin (2 ^ 64) ∧
      Reaches data ["a", "+01", "b-1"] (.string "x") ∧
      ∃ path, parse "a.1.b-1" = .ok path ∧
        language.evaluate path data = .ok (some (.string "x")) := by
  intro data
  have distinct : data.KeysDistinct := by
    simp [data, Value.KeysDistinct, Value.MemberKeysDistinct, Value.ItemKeysDistinct]
  have bounded : data.ArraysWithin (2 ^ 64) := by
    have null (limit : Nat) : Value.null.ArraysWithin limit := by rintro _ ⟨⟩
    have string (limit : Nat) : (Value.string "x").ArraysWithin limit := by rintro _ ⟨⟩
    simp [data, Value.arraysWithin_array, Value.arraysWithin_object, null, string]
  have located : data.NodeAt [.key "a", .index 1, .key "b-1"] (.string "x") :=
    .member (List.mem_cons_of_mem _ List.mem_cons_self)
      (.item rfl (.member List.mem_cons_self (.root _)))
  obtain ⟨sound, _, _, _, addresses⟩ := evaluate_exact data distinct bounded
  obtain ⟨found, evaluated, reached⟩ := sound (.segments ["a", "+01", "b-1"])
  cases evaluated
  refine ⟨distinct, bounded, (reached (.string "x")).mp rfl, (addresses _ _ located).2 ?_⟩
  have nameChars : ['a', 'b', '-', '1'].all isNameChar = true := by decide +kernel
  simpa [IsName] using nameChars

end Stencil.Path
