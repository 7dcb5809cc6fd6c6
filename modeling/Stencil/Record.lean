namespace Stencil

/-- A record as it is read: named fields, each with the document `δ` for its value. -/
structure Record (δ : Type) where
  fields : List (String × δ)

namespace Record

variable {δ α : Type}

/-- The record of these names among the given members, if none of them occurs
twice. -/
def ofMembers? (names : List String) (members : List (String × δ)) : Option (Record δ) :=
  let fields := members.filter fun member => names.contains member.1
  if (fields.map Prod.fst).Nodup then some ⟨fields⟩ else none

/-- The record with these values of the first of the names in their order. -/
def ofValues? (names : List String) (values : List δ) : Option (Record δ) :=
  if values.length ≤ names.length then some ⟨names.zip values⟩ else none

def field? (record : Record δ) (name : String) : Option δ :=
  record.fields.lookup name

def required (record : Record δ) (name : String) (read? : δ → Option α) : Option α :=
  (record.field? name).bind read?

/-- A field that has a value of its own where it is missing. -/
def optional (record : Record δ) (name : String) (missing : α)
    (read? : δ → Option α) : Option α :=
  match record.field? name with
  | some document => read? document
  | none => some missing

end Record

/-- How the documents of a format stand for the values of fields. -/
structure FieldFormat (δ : Type) where
  text? : δ → Option String
  choice? : δ → Option String
  bool? : δ → Option Bool
  isNull : δ → Bool
  items? : δ → Option (List δ)

namespace FieldFormat

variable {δ α : Type}

def nullableText? (format : FieldFormat δ) (document : δ) : Option (Option String) :=
  if format.isNull document then some none else (format.text? document).map some

def list? (format : FieldFormat δ) (read? : δ → Option α) (document : δ) : Option (List α) :=
  (format.items? document).bind fun items => items.mapM read?

end FieldFormat

end Stencil
