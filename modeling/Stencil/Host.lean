import Stencil.Failure
import Stencil.Fragment
import Stencil.Path.Evaluate

namespace Stencil

/-- An expression language, with `ε` for its compiled expressions. A value of
`none` says that the expression leads to nothing. -/
structure Language (ε : Type) where
  parse : (expression : String) → Fragment → Except Cause ε
  evaluate : ε → Value → Except Cause (Option Value)

/-- The source of the value of a placeholder. -/
abbrev Resolver := (expression : String) → Fragment → Except Cause (Option Value)

/-- The value of a placeholder that resolves to nothing or to null. -/
abbrev NullPolicy := Fragment → Value

/-- The word `undefined`, and nothing for a placeholder that another module fills. -/
def NullPolicy.standard : NullPolicy := fun fragment =>
  if fragment.isClaimed then .string "" else .string "undefined"

/-- The language of dotted paths. Evaluating one never fails. -/
def Path.language : Language Path where
  parse expression _ := (Path.parse expression).mapError .path
  evaluate path data := .ok (path.evaluate data)

/-- The version of the library, which a host can report. -/
def version : String := "1.0.0"

end Stencil
