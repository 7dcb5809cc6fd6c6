namespace Stencil

inductive Dialect where
  | docx
  | pptx
  | xlsx
  | text
deriving DecidableEq, Repr

/-- The markup of runs: element names, and what stands between two runs at a
line break. -/
structure RunVocabulary where
  runTag : String
  runPropertiesTag : String
  textTag : String
  breakMarkup : String
  /-- A text element that continues a value says that its white space counts. -/
  preserveSpace : Bool
deriving DecidableEq, Repr

namespace Dialect

def all : List Dialect := [.docx, .pptx, .xlsx, .text]

def name : Dialect → String
  | .docx => "docx"
  | .pptx => "pptx"
  | .xlsx => "xlsx"
  | .text => "text"

def ofName? (name : String) : Option Dialect :=
  all.find? fun dialect => dialect.name = name

/-- The run markup of a dialect that can split a run at a line break. A cell of a
sheet keeps its line feeds, and plain text has no runs. -/
def vocabulary? : Dialect → Option RunVocabulary
  | .docx => some
      { runTag := "w:r", runPropertiesTag := "w:rPr", textTag := "w:t"
        breakMarkup := "<w:r><w:br/></w:r>", preserveSpace := true }
  | .pptx => some
      { runTag := "a:r", runPropertiesTag := "a:rPr", textTag := "a:t"
        breakMarkup := "<a:br/>", preserveSpace := false }
  | .xlsx => none
  | .text => none

def isPlainText (dialect : Dialect) : Bool :=
  dialect == .text

theorem ofName?_name (dialect : Dialect) : ofName? dialect.name = some dialect := by
  cases dialect <;> rfl

end Dialect

end Stencil
