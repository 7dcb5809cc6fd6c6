import Stencil.Compilation
import Stencil.Session

namespace Stencil

/-- What a fragment contributes to the rendered part. -/
inductive Output where
  | literal (text : String)
  /-- Nothing yet: another module fills the placeholder. -/
  | claimed
  | rendered (result : Rendered)
  /-- Nothing, since the placeholder could not be filled. -/
  | failed

def Output.markup : Output → String
  | .literal text => text
  | .claimed => ""
  | .rendered result => result.markup
  | .failed => ""

structure Report where
  outputs : List Output
  compileErrors : List CompileError
  renderErrors : List RenderError

namespace Report

def isSuccess (report : Report) : Bool :=
  report.compileErrors.isEmpty && report.renderErrors.isEmpty

def markup (report : Report) : String :=
  String.join (report.outputs.map Output.markup)

/-- The output for the outcome of a fragment, and the error if it failed. -/
def outputOf (fragment : Fragment) : Outcome → Output × List RenderError
  | .skipped =>
      (if fragment.isPlaceholder then .claimed else .literal fragment.text, [])
  | .rendered result => (.rendered result, [])
  | .failed error => (.failed, [error])

/-- Renders fragments that begin at a position. A placeholder at one of the given
positions has no expression, and the session only takes note of it. -/
def renderFrom (uncompiled : List Nat) (position : Nat) (session : Session) :
    List Fragment → List Output × List RenderError
  | [] => ([], [])
  | fragment :: rest =>
      if uncompiled.contains position then
        let (outputs, errors) :=
          renderFrom uncompiled (position + 1) (session.observe fragment) rest
        (.failed :: outputs, errors)
      else
        let (next, outcome) := session.render fragment
        let (output, error) := outputOf fragment outcome
        let (outputs, errors) := renderFrom uncompiled (position + 1) next rest
        (output :: outputs, error ++ errors)

end Report

def renderPart {ε : Type} (language : Language ε) (options : Options)
    (nullPolicy : NullPolicy) (fragments : List Fragment) (data : Value) : Report :=
  let (cache, compileErrors) := (∅ : Cache ε).compile language fragments
  let session := Session.start options (cache.resolver language data) nullPolicy
  let (outputs, renderErrors) :=
    Report.renderFrom (compileErrors.map CompileError.position) 0 session fragments
  { outputs, compileErrors, renderErrors }

end Stencil
