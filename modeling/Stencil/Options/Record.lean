import Stencil.Options.Basic
import Stencil.Record

namespace Stencil.Options

variable {δ : Type}

def fieldNames : List String :=
  ["dialect", "content_type", "linebreaks", "strip_invalid_xml_chars", "strict_dialects",
   "linebreak_disabled_content_types"]

def ofRecord? (format : FieldFormat δ) (record : Record δ) : Option Options := do
  let missing : Options := {}
  let dialect? (field : δ) := (format.choice? field).bind Dialect.ofName?
  let dialect ← record.optional "dialect" missing.dialect dialect?
  let contentType ← record.optional "content_type" missing.contentType format.nullableText?
  let linebreaks ← record.optional "linebreaks" missing.linebreaks format.bool?
  let stripForbidden ←
    record.optional "strip_invalid_xml_chars" missing.stripForbidden format.bool?
  let strictDialects ←
    record.optional "strict_dialects" missing.strictDialects (format.list? dialect?)
  let linebreakDisabledContentTypes ← record.optional "linebreak_disabled_content_types"
    missing.linebreakDisabledContentTypes (format.list? format.text?)
  some { dialect, contentType, linebreaks, stripForbidden, strictDialects
         linebreakDisabledContentTypes }

end Stencil.Options
