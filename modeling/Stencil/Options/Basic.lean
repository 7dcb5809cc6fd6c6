import Stencil.ContentType
import Stencil.Dialect

namespace Stencil

structure Options where
  dialect : Dialect := .docx
  contentType : Option String := none
  /-- Line feeds in values become line breaks of the document. -/
  linebreaks : Bool := false
  stripForbidden : Bool := false
  /-- The dialects where a forbidden character that is not removed is an error. -/
  strictDialects : List Dialect := [.docx, .pptx, .xlsx]
  linebreakDisabledContentTypes : List String := ContentType.metadata
deriving DecidableEq, Repr

namespace Options

def ofDialect (dialect : Dialect) : Options :=
  { dialect }

def withContentType (options : Options) (contentType : String) : Options :=
  { options with contentType := some contentType }

def withLinebreaks (options : Options) (linebreaks : Bool) : Options :=
  { options with linebreaks }

def withStripForbidden (options : Options) (stripForbidden : Bool) : Options :=
  { options with stripForbidden }

def linebreaksActive (options : Options) : Bool :=
  options.linebreaks &&
    !options.contentType.any fun contentType =>
      options.linebreakDisabledContentTypes.contains contentType

/-- A forbidden character in a value is an error unless it is removed. -/
def isStrict (options : Options) : Bool :=
  options.strictDialects.contains options.dialect

/-- The run markup for splitting a value at its line feeds, if that is to be done. -/
def splitVocabulary? (options : Options) : Option RunVocabulary :=
  if options.linebreaksActive then options.dialect.vocabulary? else none

end Options

end Stencil
