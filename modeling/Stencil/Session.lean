import Stencil.Host
import Stencil.Markup.Forbidden
import Stencil.Rendered
import Stencil.RunFormatting

namespace Stencil

structure Session where
  options : Options
  resolver : Resolver
  nullPolicy : NullPolicy
  formatting : RunFormatting

inductive Outcome where
  /-- The fragment is no placeholder, or another module fills it. -/
  | skipped
  | rendered (result : Rendered)
  | failed (error : RenderError)

/-- Removes forbidden characters from a text or refuses a text that has any, as
the options say. Values other than texts are left alone. -/
def sanitize (options : Options) (fragment : Fragment) (value : Value) :
    Except RenderError Value :=
  match value with
  | .string text =>
      if options.stripForbidden then .ok (.string (Markup.stripForbidden text))
      else if options.isStrict && Markup.hasForbidden text then
        .error (.forbiddenCharacters fragment.expression text fragment.sourceOffset)
      else .ok (.string text)
  | value => .ok value

/-- Null and nothing are replaced by the value of the policy. -/
def NullPolicy.apply (nullPolicy : NullPolicy) (fragment : Fragment) :
    Option Value → Value
  | some value => if value.isNull then nullPolicy fragment else value
  | none => nullPolicy fragment

/-- What becomes of a placeholder, given what its expression resolves to and the
properties of the run it stands in. -/
def fill (options : Options) (nullPolicy : NullPolicy) (properties : String)
    (fragment : Fragment) (resolved : Except Cause (Option Value)) : Outcome :=
  match resolved with
  | .error cause => .failed (.resolution fragment.expression fragment.sourceOffset cause)
  | .ok value =>
      match sanitize options fragment (nullPolicy.apply fragment value) with
      | .error error => .failed error
      | .ok value => .rendered (.ofValue options properties value)

namespace Session

def start (options : Options) (resolver : Resolver)
    (nullPolicy : NullPolicy := .standard) : Session :=
  { options, resolver, nullPolicy, formatting := .initial options.dialect }

/-- Takes note of a fragment without filling it. Runs matter only where line
breaks are active. -/
def observe (session : Session) (fragment : Fragment) : Session :=
  if session.options.linebreaksActive then
    { session with formatting := session.formatting.observe fragment }
  else session

/-- Takes note of the next fragment and fills it if it is an unclaimed
placeholder. -/
def render (session : Session) (fragment : Fragment) : Session × Outcome :=
  let session := session.observe fragment
  if fragment.isPlaceholder && !fragment.isClaimed then
    (session, fill session.options session.nullPolicy session.formatting.snapshot fragment
      (session.resolver fragment.expression fragment))
  else (session, .skipped)

end Session

end Stencil
