import Stencil.Proofs.Records

namespace Stencil.Json

/-! Kinds of records that are written and read in JSON. What a record means does not depend
on how it is presented: that holds of every kind of record that consists of its fields, each
of which is read by its name alone and in the same way wherever it stands. -/

/-- How the values of a field are read and written. -/
structure Codec (β : Type) where
  read? : Document → Option β
  write : β → Document
  /-- The values that a field can have. -/
  Holds : β → Prop

namespace Codec

variable {β : Type}

/-- What is written for a value is read as this value, also where it has gone through a
text. -/
structure Lawful (codec : Codec β) : Prop where
  read?_write : ∀ value, codec.Holds value → codec.read? (codec.write value) = some value
  read?_reread : ∀ document, codec.read? document.reread = codec.read? document
  write_fits : ∀ value, (codec.write value).Fits
  write_injective : Function.Injective codec.write

def text : Codec String :=
  ⟨Document.fieldFormat.text?, .ofString, fun _ => True⟩

def nullableText : Codec (Option String) :=
  ⟨Document.fieldFormat.nullableText?, .ofOption .ofString, fun _ => True⟩

def choice (ofName? : String → Option β) (name : β → String) : Codec β where
  read? document := (Document.fieldFormat.choice? document).bind ofName?
  write value := .ofString (name value)
  Holds _ := True

def word : Codec Nat :=
  ⟨Document.word?, .ofNat, (· < 2 ^ 64)⟩

def bool : Codec Bool :=
  ⟨Document.fieldFormat.bool?, .bool, fun _ => True⟩

def list (codec : Codec β) : Codec (List β) where
  read? := Document.fieldFormat.list? codec.read?
  write := .ofList codec.write
  Holds values := ∀ value ∈ values, codec.Holds value

theorem injective_of_read? {codec : Codec β}
    (read : ∀ value, codec.read? (codec.write value) = some value) :
    Function.Injective codec.write := fun value other same => by
  have both : some value = some other := by rw [← read value, same, read other]
  exact Option.some.inj both

theorem lawful_text : text.Lawful where
  read?_write value _ := text?_pieces value
  read?_reread document := by
    cases document with
    | string pieces => exact text?_reread pieces
    | null | bool _ | number _ | array _ | object _ => rfl
  write_fits := Document.pieces_fit
  write_injective := injective_of_read? text?_pieces

theorem lawful_nullableText : nullableText.Lawful := by
  have read : ∀ value, nullableText.read? (nullableText.write value) = some value := by
    intro value
    cases value with
    | none => rfl
    | some text => exact congrArg (Option.map some) (text?_pieces text)
  refine ⟨fun value _ => read value, ?_, ?_, injective_of_read? read⟩
  · intro document
    cases document with
    | string pieces => exact congrArg (Option.map some) (text?_reread pieces)
    | null | bool _ | number _ | array _ | object _ => rfl
  · intro value
    cases value with
    | none => exact trivial
    | some text => exact Document.pieces_fit text

theorem choice?_reread (document : Document) :
    Document.fieldFormat.choice? document.reread = Document.fieldFormat.choice? document := by
  match document with
  | .string pieces => exact text?_reread pieces
  | .object [] => rfl
  | .object [(key, item)] =>
      cases item with
      | null => exact text?_reread key
      | bool _ | number _ | string _ | array _ | object _ => rfl
  | .object ((_, item) :: (_, _) :: _) => cases item <;> rfl
  | .null | .bool _ | .number _ | .array _ => rfl

theorem lawful_choice {ofName? : String → Option β} {name : β → String}
    (named : ∀ value, ofName? (name value) = some value) :
    (choice ofName? name).Lawful := by
  have read : ∀ value, (choice ofName? name).read? ((choice ofName? name).write value) =
      some value := by
    intro value
    have text : Document.fieldFormat.choice? (.ofString (name value)) = some (name value) :=
      text?_pieces (name value)
    simp only [choice, text, Option.bind_some, named]
  refine ⟨fun value _ => read value, ?_, fun value => Document.pieces_fit (name value),
    injective_of_read? read⟩
  intro document
  simp only [choice, choice?_reread]

theorem lawful_word : word.Lawful where
  read?_write value small := by
    have small : value < Nat.pow 2 64 := small
    simp [word, Document.word?, Document.ofNat, Numeral.ofInt, Numeral.IsInteger, small]
  read?_reread document := by
    cases document <;> rfl
  write_fits value := trivial
  write_injective value other same := by
    have digits := congrArg Numeral.digits (Document.number.inj same)
    simpa [Numeral.ofInt] using digits

theorem lawful_bool : bool.Lawful where
  read?_write _ _ := rfl
  read?_reread document := by
    cases document <;> rfl
  write_fits value := trivial
  write_injective := injective_of_read? fun _ => rfl

theorem mapM_read?_write {codec : Codec β} (lawful : codec.Lawful) {values : List β}
    (holds : ∀ value ∈ values, codec.Holds value) :
    (values.map codec.write).mapM codec.read? = some values := by
  induction values with
  | nil => rfl
  | cons value rest ih =>
      obtain ⟨head, tail⟩ := List.forall_mem_cons.mp holds
      rw [List.map_cons, List.mapM_cons, lawful.read?_write value head, ih tail]
      rfl

theorem lawful_list {codec : Codec β} (lawful : codec.Lawful) : codec.list.Lawful where
  read?_write _ holds := mapM_read?_write lawful holds
  read?_reread document := by
    cases document with
    | array items =>
        have each : codec.read? ∘ Document.reread = codec.read? := funext lawful.read?_reread
        rw [Document.reread, Document.rereadItems_eq_map]
        change (items.map Document.reread).mapM codec.read? = items.mapM codec.read?
        rw [List.mapM_map, each]
    | null | bool _ | number _ | string _ | object _ => rfl
  write_fits _ :=
    Document.itemsFit_iff.mpr (List.forall_mem_map.mpr fun value _ => lawful.write_fits value)
  write_injective values others same := by
    have same := Document.array.inj same
    exact List.map_injective_iff.mpr lawful.write_injective same

end Codec

/-- A field of a kind of record. -/
structure RecordField (α : Type) where
  {Part : Type}
  name : String
  part : α → Part
  codec : Codec Part
  /-- The value where the field is missing, if it may be. -/
  missing? : Option Part

namespace RecordField

variable {α Part : Type} {field : RecordField α} {record other : Record Document}

def required (name : String) (part : α → Part) (codec : Codec Part) : RecordField α :=
  ⟨name, part, codec, none⟩

def optional (name : String) (part : α → Part) (codec : Codec Part) (missing : Part) :
    RecordField α :=
  ⟨name, part, codec, some missing⟩

/-- The value of the field in a record, if it can be read. -/
def found? (field : RecordField α) (record : Record Document) : Option field.Part :=
  match record.field? field.name with
  | some document => field.codec.read? document
  | none => field.missing?

def document (field : RecordField α) (value : α) : Document :=
  field.codec.write (field.part value)

theorem found?_required (name : String) (part : α → Part) (codec : Codec Part)
    (record : Record Document) :
    (required name part codec).found? record = record.required name codec.read? := by
  simp only [found?, required, Record.required]
  cases record.field? name <;> rfl

theorem found?_optional (name : String) (part : α → Part) (codec : Codec Part) (missing : Part)
    (record : Record Document) :
    (optional name part codec missing).found? record =
      record.optional name missing codec.read? := by
  simp only [found?, optional, Record.optional]
  cases record.field? name <;> rfl

theorem found?_congr (same : other.field? field.name = record.field? field.name) :
    field.found? other = field.found? record := by
  rw [found?, found?, same]

theorem found?_reread (lawful : field.codec.Lawful) (record : Record Document) :
    field.found? (record.map Document.reread) = field.found? record := by
  rw [found?, found?, Record.field?_map]
  cases record.field? field.name with
  | none => rfl
  | some document => exact lawful.read?_reread document

end RecordField

/-- A kind of record in JSON: the names of its fields, those that may not be missing and
those that may be null, and how records are written and read. -/
structure RecordFormat (α : Type) where
  names : List String
  required : List String
  nullable : List String
  /-- The values of all fields in the order of their names. -/
  documents : α → List Document
  ofDocument? : Document → Option α
  json : α → String
  ofJson? : String → Option α
  /-- The same required fields, and the default of every other field. -/
  standard : α → α
  /-- The numbers in it are not too large. -/
  InRange : α → Prop

namespace RecordFormat

variable {α : Type} {format : RecordFormat α}
  {fields : List (RecordField α)} {field : RecordField α}
  {value : α} {document : Document} {record : Record Document}

def object (format : RecordFormat α) (value : α) : Document :=
  .record (format.names.zip (format.documents value))

def array (format : RecordFormat α) (value : α) : Document :=
  .array (format.documents value)

/-- What is written for one field. -/
def field? (format : RecordFormat α) (value : α) (name : String) : Option Document :=
  (format.names.zip (format.documents value)).lookup name

/-- A record can be presented in more than one way, and it is refused where something is
missing or null that may not be. -/
structure Lawful (format : RecordFormat α) : Prop where
  ofDocument?_object : ∀ value, format.InRange value →
    format.ofDocument? (format.object value) = some value
  ofDocument?_array : ∀ value, format.InRange value →
    format.ofDocument? (format.array value) = some value
  json_eq : ∀ value, format.json value = (format.object value).text
  ofJson?_json : ∀ value, format.InRange value → format.ofJson? (format.json value) = some value
  ofJson?_array : ∀ value, format.InRange value →
    format.ofJson? (format.array value).text = some value
  /-- Nothing is lost where the document of a record goes through its text. -/
  ofJson?_text : ∀ document, document.Fits →
    format.ofJson? document.text = format.ofDocument? document
  /-- The order of members does not matter, and members with other names do not. -/
  rearranged : ∀ members added others value,
    format.ofDocument? (.object members) = some value →
    (∀ member ∈ added, ∃ name, text? member.1 = some name ∧ name ∉ format.names) →
    others.Perm (members ++ added) →
    format.ofDocument? (.object others) = some value
  /-- A member that has the default of its field may as well be missing. -/
  default_deleted : ∀ first second key item name value,
    format.ofDocument? (.object (first ++ (key, item) :: second)) = some value →
    text? key = some name → name ∈ format.names → name ∉ format.required →
    format.field? value name = format.field? (format.standard value) name →
    format.ofDocument? (.object (first ++ second)) = some value
  required_deleted : ∀ first second key item name value,
    format.ofDocument? (.object (first ++ (key, item) :: second)) = some value →
    text? key = some name → name ∈ format.required →
    format.ofDocument? (.object (first ++ second)) = none
  required_missing : ∀ members, ∀ name ∈ format.required,
    (∀ member ∈ members, text? member.1 ≠ some name) →
    format.ofDocument? (.object members) = none
  null_member : ∀ members key name, (key, .null) ∈ members → text? key = some name →
    name ∈ format.names → name ∉ format.nullable →
    format.ofDocument? (.object members) = none
  null_item : ∀ items (place : Nat) name, items[place]? = some .null →
    format.names[place]? = some name → name ∉ format.nullable →
    format.ofDocument? (.array items) = none

/-- The field is read and written, and may be missing or null, as the format has it. -/
structure Suits (format : RecordFormat α) (field : RecordField α) : Prop where
  codec_lawful : field.codec.Lawful
  holds : ∀ value, format.InRange value → field.codec.Holds (field.part value)
  missing_required : field.name ∈ format.required → field.missing? = none
  missing_standard : field.name ∉ format.required →
    ∀ value, field.missing? = some (field.part (format.standard value))
  null_refused : field.name ∉ format.nullable → field.codec.read? .null = none

theorem suits_required {Part : Type} {name : String} {part : α → Part} {codec : Codec Part}
    (lawful : codec.Lawful) (holds : ∀ value, format.InRange value → codec.Holds (part value))
    (required : name ∈ format.required) (null : name ∈ format.nullable ∨ codec.read? .null = none) :
    format.Suits (.required name part codec) where
  codec_lawful := lawful
  holds := holds
  missing_required _ := rfl
  missing_standard optional := absurd required optional
  null_refused := null.resolve_left

theorem suits_optional {Part : Type} {name : String} {part : α → Part} {codec : Codec Part}
    {missing : Part}
    (lawful : codec.Lawful) (holds : ∀ value, format.InRange value → codec.Holds (part value))
    (optional : name ∉ format.required)
    (standard : ∀ value, missing = part (format.standard value))
    (null : name ∈ format.nullable ∨ codec.read? .null = none) :
    format.Suits (.optional name part codec missing) where
  codec_lawful := lawful
  holds := holds
  missing_required required := absurd required optional
  missing_standard _ value := congrArg some (standard value)
  null_refused := null.resolve_left

/-- The records of a format are just the values of these fields, each of which is read on
its own. -/
structure ConsistsOf (format : RecordFormat α) (fields : List (RecordField α)) : Prop where
  names_eq : format.names = fields.map RecordField.name
  nodup : format.names.Nodup
  required_subset : format.required ⊆ format.names
  suits : ∀ field ∈ fields, format.Suits field
  documents_eq : ∀ value, format.documents value = fields.map (RecordField.document · value)
  ofDocument?_eq_some_iff : ∀ document value, format.ofDocument? document = some value ↔
    ∃ record, document.record? format.names = some record ∧
      ∀ field ∈ fields, field.found? record = some (field.part value)
  json_eq : ∀ value, format.json value = (format.object value).text
  ofJson?_eq : ∀ text, format.ofJson? text = (Document.ofText? text).bind format.ofDocument?

namespace ConsistsOf

variable (parts : format.ConsistsOf fields)
include parts

theorem exists_field {name : String} (known : name ∈ format.names) :
    ∃ field ∈ fields, field.name = name := by
  rw [parts.names_eq] at known
  exact List.mem_map.mp known

theorem zip_documents (value : α) :
    format.names.zip (format.documents value) =
      fields.map fun field => (field.name, field.document value) := by
  rw [parts.names_eq, parts.documents_eq, List.zip_map']

theorem field?_written (member : field ∈ fields) (value : α) :
    format.field? value field.name = some (field.document value) := by
  rw [RecordFormat.field?, Record.lookup_eq_some_iff (Document.nodup_zip parts.nodup _),
    parts.zip_documents]
  exact List.mem_map_of_mem member

theorem found?_written (inRange : format.InRange value) (member : field ∈ fields) :
    field.found? ⟨format.names.zip (format.documents value)⟩ = some (field.part value) := by
  have written : Record.field? ⟨format.names.zip (format.documents value)⟩ field.name =
      some (field.document value) := parts.field?_written member value
  have suits := parts.suits field member
  rw [RecordField.found?, written]
  exact suits.codec_lawful.read?_write _ (suits.holds value inRange)

theorem ofDocument?_object (inRange : format.InRange value) :
    format.ofDocument? (format.object value) = some value :=
  (parts.ofDocument?_eq_some_iff _ _).mpr
    ⟨_, Document.record?_record parts.nodup _, fun _ => parts.found?_written inRange⟩

theorem ofDocument?_array (inRange : format.InRange value) :
    format.ofDocument? (format.array value) = some value := by
  have enough : (format.documents value).length ≤ format.names.length := by
    simp [parts.names_eq, parts.documents_eq]
  exact (parts.ofDocument?_eq_some_iff _ _).mpr
    ⟨_, Document.record?_array enough, fun _ => parts.found?_written inRange⟩

theorem ofDocument?_reread (document : Document) :
    format.ofDocument? document.reread = format.ofDocument? document := by
  ext value
  rw [parts.ofDocument?_eq_some_iff, parts.ofDocument?_eq_some_iff, Document.record?_reread]
  cases document.record? format.names with
  | none => simp
  | some record =>
      simp only [Option.map_some, Option.some.injEq, exists_eq_left']
      refine forall₂_congr fun field member => ?_
      rw [RecordField.found?_reread (parts.suits field member).codec_lawful]

theorem ofJson?_text (fits : document.Fits) :
    format.ofJson? document.text = format.ofDocument? document := by
  rw [parts.ofJson?_eq, Document.ofText?_text fits, Option.bind_some, parts.ofDocument?_reread]

theorem documents_fit (value : α) : ∀ document ∈ format.documents value, document.Fits := by
  rw [parts.documents_eq]
  intro document written
  obtain ⟨field, member, rfl⟩ := List.mem_map.mp written
  exact (parts.suits field member).codec_lawful.write_fits _

theorem object_fits (value : α) : (format.object value).Fits :=
  Document.record_fits fun _ member => parts.documents_fit value _ (List.of_mem_zip member).2

theorem array_fits (value : α) : (format.array value).Fits :=
  Document.itemsFit_iff.mpr (parts.documents_fit value)

theorem rearranged {members added others : List (List Piece × Document)}
    (accepted : format.ofDocument? (.object members) = some value)
    (unknown : ∀ member ∈ added, ∃ name, text? member.1 = some name ∧ name ∉ format.names)
    (perm : others.Perm (members ++ added)) :
    format.ofDocument? (.object others) = some value := by
  obtain ⟨record, accepted, found⟩ := (parts.ofDocument?_eq_some_iff _ _).mp accepted
  obtain ⟨other, rearranged, same⟩ := Document.record?_rearranged accepted unknown perm
  refine (parts.ofDocument?_eq_some_iff _ _).mpr ⟨other, rearranged, fun field member => ?_⟩
  rw [RecordField.found?_congr (same field.name), found field member]

theorem default_deleted {first second : List (List Piece × Document)} {key : List Piece}
    {item : Document} {name : String}
    (accepted : format.ofDocument? (.object (first ++ (key, item) :: second)) = some value)
    (named : text? key = some name) (known : name ∈ format.names)
    (optional : name ∉ format.required)
    (isDefault : format.field? value name = format.field? (format.standard value) name) :
    format.ofDocument? (.object (first ++ second)) = some value := by
  obtain ⟨record, accepted, found⟩ := (parts.ofDocument?_eq_some_iff _ _).mp accepted
  obtain ⟨_, other, remaining, missing, same⟩ := Document.record?_deleted accepted named known
  refine (parts.ofDocument?_eq_some_iff _ _).mpr ⟨other, remaining, fun field member => ?_⟩
  by_cases deleted : field.name = name
  · subst deleted
    -- The default is known by what is written for it, so writing must tell values apart.
    have written : field.document value = field.document (format.standard value) := by
      rw [parts.field?_written member, parts.field?_written member] at isDefault
      exact Option.some.inj isDefault
    have part : field.part value = field.part (format.standard value) :=
      (parts.suits field member).codec_lawful.write_injective written
    rw [RecordField.found?, missing, part]
    exact (parts.suits field member).missing_standard optional value
  · rw [RecordField.found?_congr (same field.name deleted), found field member]

/-- A record is refused for any one field that cannot be read. -/
theorem refused_of_field (member : field ∈ fields)
    (unread : ∀ record, document.record? format.names = some record →
      field.found? record = none) :
    format.ofDocument? document = none := by
  rw [Option.eq_none_iff_forall_ne_some]
  intro value accepted
  obtain ⟨record, accepted, found⟩ := (parts.ofDocument?_eq_some_iff _ _).mp accepted
  have impossible := found field member
  rw [unread record accepted] at impossible
  contradiction

theorem refused_of_missing {name : String} (required : name ∈ format.required)
    (missing : ∀ record, document.record? format.names = some record →
      record.field? name = none) :
    format.ofDocument? document = none := by
  obtain ⟨field, member, rfl⟩ := parts.exists_field (parts.required_subset required)
  refine parts.refused_of_field member fun record accepted => ?_
  rw [RecordField.found?, missing record accepted]
  exact (parts.suits field member).missing_required required

theorem refused_of_null {name : String} (known : name ∈ format.names)
    (strict : name ∉ format.nullable)
    (null : ∀ record, document.record? format.names = some record →
      record.field? name = some .null) :
    format.ofDocument? document = none := by
  obtain ⟨field, member, rfl⟩ := parts.exists_field known
  refine parts.refused_of_field member fun record accepted => ?_
  rw [RecordField.found?, null record accepted]
  exact (parts.suits field member).null_refused strict

theorem required_deleted {first second : List (List Piece × Document)} {key : List Piece}
    {item : Document} {name : String}
    (accepted : format.ofDocument? (.object (first ++ (key, item) :: second)) = some value)
    (named : text? key = some name) (required : name ∈ format.required) :
    format.ofDocument? (.object (first ++ second)) = none := by
  obtain ⟨record, accepted, _⟩ := (parts.ofDocument?_eq_some_iff _ _).mp accepted
  obtain ⟨_, other, remaining, missing, _⟩ :=
    Document.record?_deleted accepted named (parts.required_subset required)
  refine parts.refused_of_missing required fun record present => ?_
  rw [Option.some.inj (present.symm.trans remaining), missing]

/-- Where each field is read on its own, presentation does not matter. -/
theorem lawful : format.Lawful where
  ofDocument?_object _ := parts.ofDocument?_object
  ofDocument?_array _ := parts.ofDocument?_array
  json_eq := parts.json_eq
  ofJson?_json value inRange := by
    rw [parts.json_eq, parts.ofJson?_text (parts.object_fits value),
      parts.ofDocument?_object inRange]
  ofJson?_array value inRange := by
    rw [parts.ofJson?_text (parts.array_fits value), parts.ofDocument?_array inRange]
  ofJson?_text _ := parts.ofJson?_text
  rearranged _ _ _ _ := parts.rearranged
  default_deleted _ _ _ _ _ _ := parts.default_deleted
  required_deleted _ _ _ _ _ _ := parts.required_deleted
  required_missing _ _ required absent :=
    parts.refused_of_missing required fun _ accepted =>
      Document.field?_object_absent accepted absent
  null_member _ _ _ member named known strict :=
    parts.refused_of_null known strict fun _ accepted =>
      Document.field?_object accepted member named known
  null_item _ _ _ item named strict :=
    parts.refused_of_null (List.mem_of_getElem? named) strict fun _ accepted =>
      Document.field?_array accepted parts.nodup named item

end ConsistsOf

end RecordFormat

end Stencil.Json
