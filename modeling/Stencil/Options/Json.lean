import Stencil.Json.Printer
import Stencil.Json.Reader
import Stencil.Json.Record
import Stencil.Options.Record

namespace Stencil.Options

open Json (Document)

def ofDocument? (document : Document) : Option Options :=
  (document.record? fieldNames).bind (ofRecord? Document.fieldFormat)

/-- Reads options from the text of a JSON document. -/
def ofJson? (text : String) : Option Options :=
  (Document.ofText? text).bind ofDocument?

/-- The values of all fields in the order of `fieldNames`. -/
def fieldDocuments (options : Options) : List Document :=
  [.ofString options.dialect.name,
   .ofOption .ofString options.contentType,
   .bool options.linebreaks,
   .bool options.stripForbidden,
   .ofList (fun dialect => .ofString dialect.name) options.strictDialects,
   .ofList .ofString options.linebreakDisabledContentTypes]

def toDocument (options : Options) : Document :=
  .record (fieldNames.zip options.fieldDocuments)

/-- The text of options as a compact JSON document. -/
def json (options : Options) : String :=
  options.toDocument.text

end Stencil.Options
