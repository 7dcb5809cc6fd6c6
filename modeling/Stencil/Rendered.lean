import Stencil.Markup.Escape
import Stencil.Options.Basic
import Stencil.Value.Text

namespace Stencil

/-- What a value becomes in the document. -/
inductive Rendered where
  | raw (value : Value)
  | escaped (text : String)
  /-- The escaped lines of the value, with the markup of a line break between each
  two of them. -/
  | segments (parts : List String)

namespace Rendered

def markup : Rendered → String
  | .raw value => value.text
  | .escaped text => text
  | .segments parts => String.join parts

end Rendered

/-- The markup between two lines of a value: it ends the run, breaks the line and
starts a run with the same properties. -/
def RunVocabulary.transition (vocabulary : RunVocabulary) (properties : String) : String :=
  let space := if vocabulary.preserveSpace then " xml:space=\"preserve\"" else ""
  "</" ++ vocabulary.textTag ++ "></" ++ vocabulary.runTag ++ ">" ++ vocabulary.breakMarkup ++
    "<" ++ vocabulary.runTag ++ ">" ++ properties ++ "<" ++ vocabulary.textTag ++ space ++ ">"

/-- The lines of a text, of which there is one more than line feeds. -/
def lines (text : String) : List String :=
  (text.toList.splitOn '\n').map String.ofList

namespace Rendered

def ofLines (transition text : String) : Rendered :=
  .segments (((lines text).map Markup.escape).intersperse transition)

/-- A value in the document, given the properties of the run it stands in. -/
def ofValue (options : Options) (properties : String) (value : Value) : Rendered :=
  if options.dialect.isPlainText then .raw value
  else match value, options.splitVocabulary? with
    | .string text, some vocabulary =>
        if text.toList.contains '\n' then ofLines (vocabulary.transition properties) text
        else .escaped value.escapedText
    | _, _ => .escaped value.escapedText

end Rendered

end Stencil
