import Stencil.Proofs.Records
import Stencil.Value.Json

namespace Stencil.Value

variable {items : List Value} {members : List (String × Value)} {item value : Value}
  {key : String}

theorem itemKeysDistinct_iff :
    ItemKeysDistinct items ↔ ∀ item ∈ items, item.KeysDistinct := by
  induction items with
  | nil => simp [ItemKeysDistinct]
  | cons item rest ih => rw [ItemKeysDistinct, ih, List.forall_mem_cons]

theorem memberKeysDistinct_iff :
    MemberKeysDistinct members ↔ ∀ member ∈ members, member.2.KeysDistinct := by
  induction members with
  | nil => simp [MemberKeysDistinct]
  | cons member rest ih => rw [MemberKeysDistinct, ih, List.forall_mem_cons]

theorem KeysDistinct.of_item (distinct : (array items).KeysDistinct) (listed : item ∈ items) :
    item.KeysDistinct :=
  itemKeysDistinct_iff.mp distinct item listed

theorem KeysDistinct.of_member (distinct : (object members).KeysDistinct)
    (listed : (key, value) ∈ members) : value.KeysDistinct :=
  memberKeysDistinct_iff.mp distinct.2 _ listed

theorem KeysDistinct.member?_eq_some_iff (distinct : (object members).KeysDistinct) :
    member? key (object members) = some value ↔ (key, value) ∈ members :=
  Record.lookup_eq_some_iff distinct.1

/-! ### Data that is read -/

/-- The members can be those of an object: their keys ascend, so that none occurs twice. -/
structure AreMembers (members : List (String × Value)) : Prop where
  ascending : (members.map Prod.fst).Pairwise (· < ·)
  distinct : ∀ member ∈ members, member.2.KeysDistinct

theorem AreMembers.keysDistinct (areMembers : AreMembers members) :
    (object members).KeysDistinct := by
  refine ⟨areMembers.ascending.imp ?_, memberKeysDistinct_iff.mpr areMembers.distinct⟩
  rintro first _ before rfl
  exact String.lt_irrefl first before

theorem mem_of_mem_insertMember {member : String × Value}
    (listed : member ∈ insertMember key value members) :
    member = (key, value) ∨ member ∈ members := by
  induction members with
  | nil => simpa [insertMember] using listed
  | cons first rest ih =>
      obtain ⟨other, present⟩ := first
      simp only [insertMember] at listed
      split at listed
      · exact List.mem_cons.mp listed
      · split at listed
        · exact (List.mem_cons.mp listed).imp_right (List.mem_cons_of_mem _)
        · rcases List.mem_cons.mp listed with same | listed
          · exact .inr (same ▸ List.mem_cons_self)
          · exact (ih listed).imp_right (List.mem_cons_of_mem _)

theorem ascending_insertMember (ascending : (members.map Prod.fst).Pairwise (· < ·)) :
    ((insertMember key value members).map Prod.fst).Pairwise (· < ·) := by
  induction members with
  | nil => simp [insertMember]
  | cons first rest ih =>
      obtain ⟨other, present⟩ := first
      obtain ⟨least, tail⟩ := List.pairwise_cons.mp ascending
      simp only [insertMember]
      split
      · rename_i before
        refine .cons ?_ ascending
        intro later listed
        rcases List.mem_cons.mp listed with rfl | listed
        · exact before
        · exact Std.lt_trans before (least later listed)
      · rename_i notBefore
        split
        · rename_i same
          subst same
          exact ascending
        · rename_i different
          have after : other < key :=
            Std.lt_of_le_of_ne (Std.not_lt.mp notBefore) (Ne.symm different)
          refine .cons ?_ (ih tail)
          intro later listed
          obtain ⟨member, inserted, rfl⟩ := List.mem_map.mp listed
          rcases mem_of_mem_insertMember inserted with rfl | old
          · exact after
          · exact least _ (List.mem_map_of_mem old)

theorem AreMembers.insertMember (areMembers : AreMembers members)
    (distinct : value.KeysDistinct) : AreMembers (insertMember key value members) where
  ascending := ascending_insertMember areMembers.ascending
  distinct member listed := by
    rcases mem_of_mem_insertMember listed with rfl | old
    · exact distinct
    · exact areMembers.distinct member old

theorem AreMembers.foldl {entries : List (String × Value)} (areMembers : AreMembers members)
    (distinct : ∀ entry ∈ entries, entry.2.KeysDistinct) :
    AreMembers
      (entries.foldl (fun before entry => Value.insertMember entry.1 entry.2 before) members) := by
  induction entries generalizing members with
  | nil => exact areMembers
  | cons entry rest ih =>
      obtain ⟨first, others⟩ := List.forall_mem_cons.mp distinct
      exact ih (areMembers.insertMember first) others

mutual

theorem keysDistinct_of_ofDocument? {value : Value} : (levels : Nat) →
    (document : Json.Document) → ofDocument? levels document = some value → value.KeysDistinct
  | _, .null, read | _, .bool _, read => by
      cases read
      trivial
  | _, .number _, read | _, .string _, read => by
      obtain ⟨_, _, rfl⟩ := Option.map_eq_some_iff.mp read
      trivial
  | levels + 1, .array items, read => by
      obtain ⟨values, readItems, rfl⟩ := Option.map_eq_some_iff.mp read
      exact itemKeysDistinct_iff.mpr (keysDistinct_of_ofItems? levels items readItems)
  | levels + 1, .object members, read => by
      obtain ⟨entries, readMembers, rfl⟩ := Option.map_eq_some_iff.mp read
      have distinct := keysDistinct_of_ofMembers? levels members readMembers
      exact (AreMembers.foldl ⟨.nil, by simp⟩ distinct).keysDistinct

theorem keysDistinct_of_ofItems? {values : List Value} : (levels : Nat) →
    (items : List Json.Document) → ofItems? levels items = some values →
      ∀ value ∈ values, value.KeysDistinct
  | _, [], read => by
      cases read
      simp
  | levels, item :: rest, read => by
      simp only [ofItems?, Option.bind_eq_bind, Option.bind_eq_some_iff, Option.some.injEq]
        at read
      obtain ⟨value, first, values, others, rfl⟩ := read
      exact List.forall_mem_cons.mpr ⟨keysDistinct_of_ofDocument? levels item first,
        keysDistinct_of_ofItems? levels rest others⟩

theorem keysDistinct_of_ofMembers? {entries : List (String × Value)} : (levels : Nat) →
    (members : List (List Json.Piece × Json.Document)) →
      ofMembers? levels members = some entries → ∀ entry ∈ entries, entry.2.KeysDistinct
  | _, [], read => by
      cases read
      simp
  | levels, (pieces, item) :: rest, read => by
      simp only [ofMembers?, Option.bind_eq_bind, Option.bind_eq_some_iff, Option.some.injEq]
        at read
      obtain ⟨key, _, value, first, entries, others, rfl⟩ := read
      exact List.forall_mem_cons.mpr ⟨keysDistinct_of_ofDocument? levels item first,
        keysDistinct_of_ofMembers? levels rest others⟩

end

/-- Of repeated members only the last is read, so the keys of all objects are distinct. -/
theorem keysDistinct_of_ofJson? {text : String} (read : ofJson? text = some value) :
    value.KeysDistinct := by
  obtain ⟨document, _, read⟩ := Option.bind_eq_some_iff.mp read
  exact keysDistinct_of_ofDocument? maxDepth document read

end Stencil.Value
