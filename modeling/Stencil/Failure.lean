import Stencil.Path.Basic

namespace Stencil

/-- Why a placeholder has no expression or an expression no value. -/
inductive Cause where
  /-- Another placeholder with this stream index was compiled before. -/
  | indexTaken (index : Nat)
  /-- No expression was compiled for this stream index. -/
  | notCompiled (expression : String) (index : Nat)
  | path (fault : Path.Fault)
  /-- A failure of an expression language or a data source of the host. -/
  | host (message : String)
deriving DecidableEq, Repr

def Cause.message : Cause → String
  | .indexTaken index => s!"stream index {index} is already taken by another placeholder"
  | .notCompiled expression index =>
      s!"no compiled evaluator for `{expression}` at stream index {index}"
  | .path fault => fault.message
  | .host message => message

structure CompileError where
  expression : String
  offset : Nat
  /-- The position of the placeholder among the fragments. -/
  position : Nat
  cause : Cause
deriving DecidableEq, Repr

def CompileError.message (error : CompileError) : String :=
  s!"COMPILE/`{error.expression}` at offset {error.offset}: {error.cause.message}"

inductive RenderError where
  | resolution (expression : String) (offset : Nat) (cause : Cause)
  /-- The value holds characters that the document must not hold. -/
  | forbiddenCharacters (expression : String) (value : String) (offset : Nat)
deriving DecidableEq, Repr

namespace RenderError

def expression : RenderError → String
  | .resolution expression _ _ => expression
  | .forbiddenCharacters expression _ _ => expression

def offset : RenderError → Nat
  | .resolution _ offset _ => offset
  | .forbiddenCharacters _ _ offset => offset

def message : RenderError → String
  | .resolution expression offset cause =>
      s!"RESOLVE/`{expression}` at offset {offset}: {cause.message}"
  | .forbiddenCharacters expression _ offset =>
      s!"CORRUPT/`{expression}` at offset {offset} resolved to text containing " ++
        "characters invalid in XML"

end RenderError

inductive ConfigError where
  | read (detail : String)
  | parse (detail : String)
deriving DecidableEq, Repr

def ConfigError.message : ConfigError → String
  | .read detail => s!"CONFIG/read: {detail}"
  | .parse detail => s!"CONFIG/parse: {detail}"

end Stencil
