import Stencil.Dialect
import Stencil.Fragment

namespace Stencil

/-- The markup of the properties of the current run, gathered from the fragments as they
pass. -/
structure RunFormatting where
  vocabulary? : Option RunVocabulary
  /-- A properties element has been opened and not yet closed. -/
  insideProperties : Bool := false
  properties : List String := []
deriving DecidableEq, Repr

namespace RunFormatting

/-- The state before the first fragment. -/
def initial (dialect : Dialect) : RunFormatting :=
  { vocabulary? := dialect.vocabulary? }

/-- The state after one more fragment. The start of a run discards what was
gathered, and the start of its properties begins anew. -/
def observe (formatting : RunFormatting) (fragment : Fragment) : RunFormatting :=
  match formatting.vocabulary? with
  | none => formatting
  | some vocabulary =>
      if fragment.hasTag vocabulary.runTag then
        if fragment.tagPosition = .start then { formatting with properties := [] }
        else formatting
      else if fragment.hasTag vocabulary.runPropertiesTag then
        match fragment.tagPosition with
        | .start => { formatting with insideProperties := true, properties := [fragment.text] }
        | .end | .selfClosing =>
            { formatting with
              insideProperties := false, properties := formatting.properties ++ [fragment.text] }
        | .none => formatting
      else if formatting.insideProperties then
        { formatting with properties := formatting.properties ++ [fragment.text] }
      else formatting

/-- The markup of the properties of the current run, empty if it has none. -/
def snapshot (formatting : RunFormatting) : String :=
  String.join formatting.properties

end RunFormatting

end Stencil
