import Mathlib.Data.List.Forall2
import Mathlib.Data.List.Nodup
import Mathlib.Data.List.Perm.Basic
import Stencil.Json.Record
import Stencil.Proofs.JsonText

namespace Stencil

namespace Record

variable {δ : Type} {names : List String} {members : List (String × δ)}
  {record other : Record δ} {name : String} {value : δ}

/-- Where no name occurs twice, the place of a member does not matter. -/
theorem lookup_eq_some_iff (nodup : (members.map Prod.fst).Nodup) :
    members.lookup name = some value ↔ (name, value) ∈ members := by
  induction members with
  | nil => simp
  | cons member rest ih =>
      obtain ⟨first, item⟩ := member
      rw [List.map_cons, List.nodup_cons] at nodup
      by_cases same : name = first
      · subst same
        have absent : (name, value) ∉ rest := fun inside =>
          nodup.1 (List.mem_map.mpr ⟨_, inside, rfl⟩)
        simp [absent, eq_comm]
      · simp [List.lookup_cons, beq_false_of_ne same, same, ih nodup.2]

theorem field?_eq_some_iff (nodup : (record.fields.map Prod.fst).Nodup) :
    record.field? name = some value ↔ (name, value) ∈ record.fields :=
  lookup_eq_some_iff nodup

theorem field?_eq_none_iff : record.field? name = none ↔ name ∉ record.fields.map Prod.fst := by
  simp only [field?, List.lookup_eq_none_iff, bne_iff_ne, List.mem_map, not_exists, not_and]
  exact forall₂_congr fun field _ => ne_comm

theorem field?_perm (perm : other.fields.Perm record.fields)
    (nodup : (record.fields.map Prod.fst).Nodup) (name : String) :
    other.field? name = record.field? name := by
  have otherNodup : (other.fields.map Prod.fst).Nodup := (perm.map Prod.fst).nodup_iff.mpr nodup
  ext value
  rw [field?_eq_some_iff otherNodup, field?_eq_some_iff nodup, perm.mem_iff]

theorem ofMembers?_eq_some_iff :
    ofMembers? names members = some record ↔
      record.fields = members.filter (fun member => names.contains member.1) ∧
        (record.fields.map Prod.fst).Nodup := by
  obtain ⟨fields⟩ := record
  simp only [ofMembers?, Option.ite_none_right_eq_some, Option.some.injEq, Record.mk.injEq]
  constructor
  · rintro ⟨nodup, rfl⟩
    exact ⟨rfl, nodup⟩
  · rintro ⟨rfl, nodup⟩
    exact ⟨nodup, rfl⟩

/-- The same fields with other values. -/
def map (change : δ → δ) (record : Record δ) : Record δ :=
  ⟨record.fields.map fun field => (field.1, change field.2)⟩

theorem field?_map (change : δ → δ) (record : Record δ) (name : String) :
    (record.map change).field? name = (record.field? name).map change := by
  obtain ⟨fields⟩ := record
  induction fields with
  | nil => rfl
  | cons field rest ih =>
      simp only [field?, map, List.map_cons] at ih ⊢
      rw [List.lookup_cons, List.lookup_cons]
      split
      · rfl
      · exact ih

theorem ofMembers?_map (change : δ → δ) (names : List String) (members : List (String × δ)) :
    ofMembers? names (members.map fun member => (member.1, change member.2)) =
      (ofMembers? names members).map (Record.map change) := by
  have sameNames (kept : List (String × δ)) :
      (kept.map fun member => (member.1, change member.2)).map Prod.fst = kept.map Prod.fst := by
    simp
  have kept : (members.map fun member => (member.1, change member.2)).filter
        (fun member => names.contains member.1) =
      (members.filter fun member => names.contains member.1).map
        fun member => (member.1, change member.2) :=
    List.filter_map
  simp only [ofMembers?, kept, sameNames]
  split <;> rfl

end Record

namespace Json.Document

variable {names : List String} {record : Record Document} {name : String}
  {key : List Piece} {item : Document} {first second : List (List Piece × Document)}
  {members added others : List (List Piece × Document)} {items : List Document}

/-- A member of an object and the same member by its name. -/
def Named (member : List Piece × Document) (named : String × Document) : Prop :=
  text? member.1 = some named.1 ∧ member.2 = named.2

theorem namedMembers?_eq_some_iff {named : List (String × Document)} :
    namedMembers? members = some named ↔ List.Forall₂ Named members named := by
  induction members generalizing named with
  | nil => simp [namedMembers?, eq_comm]
  | cons member rest ih =>
      obtain ⟨key, item⟩ := member
      simp only [namedMembers?, Option.bind_eq_bind, Option.bind_eq_some_iff, Option.some.injEq]
      constructor
      · rintro ⟨name, found, tail, read, rfl⟩
        exact .cons ⟨found, rfl⟩ (ih.mp read)
      · rintro (_ | ⟨⟨found, rfl⟩, tail⟩)
        exact ⟨_, found, _, ih.mpr tail, rfl⟩

/-- An object is a record if its members have names, and those that are known occur once. -/
theorem record?_object_eq_some_iff :
    record? names (.object members) = some record ↔
      ∃ named, List.Forall₂ Named members named ∧
        record.fields = named.filter (fun member => names.contains member.1) ∧
        (record.fields.map Prod.fst).Nodup := by
  simp only [record?, Option.bind_eq_some_iff, namedMembers?_eq_some_iff,
    Record.ofMembers?_eq_some_iff]

theorem record?_array (enough : items.length ≤ names.length) :
    record? names (.array items) = some ⟨names.zip items⟩ :=
  if_pos enough

theorem nodup_zip (nodup : names.Nodup) (items : List Document) :
    ((names.zip items).map Prod.fst).Nodup := by
  rw [List.zip_eq_zip_take_min, List.map_fst_zip (by simp)]
  exact nodup.sublist (List.take_sublist _ _)

theorem unknown_named
    (unknown : ∀ member ∈ added, ∃ name, text? member.1 = some name ∧ name ∉ names) :
    ∃ extra, List.Forall₂ Named added extra ∧ ∀ member ∈ extra, member.1 ∉ names := by
  induction added with
  | nil => exact ⟨[], .nil, by simp⟩
  | cons member rest ih =>
      obtain ⟨⟨name, found, new⟩, unknown⟩ := List.forall_mem_cons.mp unknown
      obtain ⟨extra, named, outside⟩ := ih unknown
      exact ⟨(name, member.2) :: extra, .cons ⟨found, rfl⟩ named,
        List.forall_mem_cons.mpr ⟨new, outside⟩⟩

/-- Members that the record does not know count for nothing, and neither does the order. -/
theorem record?_rearranged (accepted : record? names (.object members) = some record)
    (unknown : ∀ member ∈ added, ∃ name, text? member.1 = some name ∧ name ∉ names)
    (perm : others.Perm (members ++ added)) :
    ∃ other, record? names (.object others) = some other ∧
      ∀ name, other.field? name = record.field? name := by
  obtain ⟨named, members, fields, nodup⟩ := record?_object_eq_some_iff.mp accepted
  obtain ⟨extra, added, outside⟩ := unknown_named unknown
  obtain ⟨shuffled, others, same⟩ := List.perm_comp_forall₂ perm (List.rel_append members added)
  have fieldsPerm : (shuffled.filter fun member => names.contains member.1).Perm record.fields := by
    have kept := same.filter fun member => names.contains member.1
    have dropped : (extra.filter fun member => names.contains member.1) = [] := by
      simpa using outside
    rwa [List.filter_append, dropped, List.append_nil, ← fields] at kept
  have other := record?_object_eq_some_iff.mpr
    ⟨shuffled, others, rfl, (fieldsPerm.map Prod.fst).nodup_iff.mpr nodup⟩
  exact ⟨_, other, Record.field?_perm fieldsPerm nodup⟩

/-- Without one of its known members the object has all other fields. -/
theorem record?_deleted
    (accepted : record? names (.object (first ++ (key, item) :: second)) = some record)
    (named : text? key = some name) (known : name ∈ names) :
    record.field? name = some item ∧
      ∃ other, record? names (.object (first ++ second)) = some other ∧
        other.field? name = none ∧
        ∀ different ≠ name, other.field? different = record.field? different := by
  -- At the front the member is the head of the fields, and the others are the tail.
  have perm : ((key, item) :: (first ++ second)).Perm (first ++ (key, item) :: second ++ []) := by
    rw [List.append_nil]
    exact List.perm_middle.symm
  obtain ⟨front, accepted, same⟩ := record?_rearranged accepted (by simp) perm
  obtain ⟨_, both, fields, nodup⟩ := record?_object_eq_some_iff.mp accepted
  obtain ⟨⟨_, item⟩, rest, ⟨found, rfl⟩, tail, rfl⟩ := List.forall₂_cons_left_iff.mp both
  obtain rfl : name = _ := Option.some.inj (named.symm.trans found)
  rw [List.filter_cons_of_pos (by simpa using known)] at fields
  rw [fields, List.map_cons, List.nodup_cons] at nodup
  have other := record?_object_eq_some_iff.mpr ⟨rest, tail, rfl, nodup.2⟩
  refine ⟨?here, _, other, Record.field?_eq_none_iff.mpr nodup.1, ?elsewhere⟩
  case here => rw [← same, Record.field?, fields, List.lookup_cons_self]
  case elsewhere =>
    intro different ne
    rw [← same, Record.field?, Record.field?, fields, List.lookup_cons, beq_false_of_ne ne]

/-- The members with names of fields are the fields. -/
theorem field?_object (accepted : record? names (.object members) = some record)
    (member : (key, item) ∈ members) (named : text? key = some name) (known : name ∈ names) :
    record.field? name = some item := by
  obtain ⟨first, second, rfl⟩ := List.append_of_mem member
  exact (record?_deleted accepted named known).1

theorem exists_member {named : List (String × Document)}
    (each : List.Forall₂ Named members named) (inside : (name, item) ∈ named) :
    ∃ key, (key, item) ∈ members ∧ text? key = some name := by
  induction each with
  | nil => contradiction
  | @cons member _ _ _ same _ ih =>
      obtain ⟨found, valued⟩ := same
      rcases List.mem_cons.mp inside with rfl | inside
      · obtain rfl : member.2 = item := valued
        exact ⟨member.1, List.mem_cons_self, found⟩
      · obtain ⟨key, present, found⟩ := ih inside
        exact ⟨key, List.mem_cons_of_mem _ present, found⟩

/-- A field that no member names is missing. -/
theorem field?_object_absent (accepted : record? names (.object members) = some record)
    (absent : ∀ member ∈ members, text? member.1 ≠ some name) :
    record.field? name = none := by
  obtain ⟨named, each, fields, _⟩ := record?_object_eq_some_iff.mp accepted
  rw [Record.field?_eq_none_iff, fields]
  intro present
  obtain ⟨⟨_, item⟩, kept, rfl⟩ := List.mem_map.mp present
  obtain ⟨key, member, found⟩ := exists_member each (List.mem_of_mem_filter kept)
  exact absent _ member found

/-- The items of an array are the first fields. -/
theorem field?_array (accepted : record? names (.array items) = some record)
    (nodup : names.Nodup) {place : Nat} (named : names[place]? = some name)
    (present : items[place]? = some item) :
    record.field? name = some item := by
  simp only [record?, Record.ofValues?, Option.ite_none_right_eq_some, Option.some.injEq]
    at accepted
  obtain ⟨_, rfl⟩ := accepted
  have inside : (name, item) ∈ names.zip items :=
    List.mem_of_getElem? (List.getElem?_zip_eq_some.mpr ⟨named, present⟩)
  exact (Record.lookup_eq_some_iff (nodup_zip nodup items)).mpr inside

/-- The written object is the record of its fields. -/
theorem record?_record (nodup : names.Nodup) (items : List Document) :
    record? names (.record (names.zip items)) = some ⟨names.zip items⟩ := by
  refine record?_object_eq_some_iff.mpr ⟨names.zip items, ?_, ?_, nodup_zip nodup items⟩
  · rw [List.forall₂_map_left_iff, List.forall₂_same]
    exact fun member _ => ⟨text?_pieces member.1, rfl⟩
  · symm
    rw [List.filter_eq_self]
    intro member inside
    simpa using (List.of_mem_zip inside).1

/-! ### Records in a document that has been read again -/

theorem namedMembers?_reread (members : List (List Piece × Document)) :
    namedMembers? (rereadMembers members) =
      (namedMembers? members).map (List.map fun member => (member.1, member.2.reread)) := by
  induction members with
  | nil => rfl
  | cons member rest ih =>
      obtain ⟨key, item⟩ := member
      rw [rereadMembers, namedMembers?, namedMembers?, text?_reread, ih]
      cases text? key <;> cases namedMembers? rest <;> rfl

theorem record?_reread (names : List String) (document : Document) :
    document.reread.record? names = (document.record? names).map (Record.map reread) := by
  cases document with
  | null | bool _ | number _ | string _ => rfl
  | array items =>
      rw [reread, rereadItems_eq_map, record?, record?, Record.ofValues?, Record.ofValues?,
        List.length_map]
      split
      · simp [Record.map, List.zip_map_right, Prod.map]
      · rfl
  | object members =>
      rw [reread, record?, record?, namedMembers?_reread, Option.bind_map, Option.map_bind]
      congr 1
      funext named
      exact Record.ofMembers?_map reread names named

end Json.Document

end Stencil
