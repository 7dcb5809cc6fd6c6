import Stencil.Fragment
import Stencil.Json.Printer
import Stencil.Json.Reader
import Stencil.Json.Record

namespace Stencil.Fragment

open Json (Document)

namespace Kind

def all : List Kind := [.content, .placeholder, .tag]

def name : Kind → String
  | .content => "content"
  | .placeholder => "placeholder"
  | .tag => "tag"

def ofName? (name : String) : Option Kind :=
  all.find? fun kind => kind.name = name

theorem ofName?_name (kind : Kind) : ofName? kind.name = some kind := by
  cases kind <;> rfl

end Kind

namespace TagPosition

def all : List TagPosition := [.start, .end, .selfClosing, .none]

def name : TagPosition → String
  | .start => "start"
  | .end => "end"
  | .selfClosing => "selfclosing"
  | .none => "none"

def ofName? (name : String) : Option TagPosition :=
  all.find? fun position => position.name = name

theorem ofName?_name (position : TagPosition) : ofName? position.name = some position := by
  cases position <;> rfl

end TagPosition

def fieldNames : List String :=
  ["kind", "stream_index", "text", "raw_expression", "xml_tag", "tag_position",
   "source_offset", "owner_module"]

def ofDocument? (document : Document) : Option Fragment := do
  let format := Document.fieldFormat
  let record ← document.record? fieldNames
  let kind ← record.required "kind" fun field => (format.choice? field).bind Kind.ofName?
  let streamIndex ← record.required "stream_index" Document.word?
  let text ← record.optional "text" "" format.text?
  let rawExpression ← record.optional "raw_expression" none format.nullableText?
  let xmlTag ← record.optional "xml_tag" none format.nullableText?
  let tagPosition ← record.optional "tag_position" .none
    fun field => (format.choice? field).bind TagPosition.ofName?
  let sourceOffset ← record.optional "source_offset" 0 Document.word?
  let ownerModule ← record.optional "owner_module" none format.nullableText?
  some { kind, streamIndex, text, rawExpression, xmlTag, tagPosition, sourceOffset, ownerModule }

/-- Reads a fragment from the text of a JSON document. -/
def ofJson? (text : String) : Option Fragment :=
  (Document.ofText? text).bind ofDocument?

/-- The values of all fields in the order of `fieldNames`. -/
def fieldDocuments (fragment : Fragment) : List Document :=
  [.ofString fragment.kind.name,
   .ofNat fragment.streamIndex,
   .ofString fragment.text,
   .ofOption .ofString fragment.rawExpression,
   .ofOption .ofString fragment.xmlTag,
   .ofString fragment.tagPosition.name,
   .ofNat fragment.sourceOffset,
   .ofOption .ofString fragment.ownerModule]

def toDocument (fragment : Fragment) : Document :=
  .record (fieldNames.zip fragment.fieldDocuments)

/-- The text of a fragment as a compact JSON document. -/
def json (fragment : Fragment) : String :=
  fragment.toDocument.text

end Stencil.Fragment
