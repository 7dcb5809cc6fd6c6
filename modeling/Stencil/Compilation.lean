import Std.Data.TreeMap
import Stencil.Host

namespace Stencil

/-- The compiled expressions by stream index. -/
abbrev Cache (ε : Type) := Std.TreeMap Nat ε

variable {ε : Type}

namespace Cache

/-- The compiled expression of a placeholder. The index must be free, even if the
expression is one that would not be accepted. -/
def compileOne (cache : Cache ε) (language : Language ε) (fragment : Fragment) :
    Except Cause ε :=
  if cache.contains fragment.streamIndex then .error (.indexTaken fragment.streamIndex)
  else language.parse fragment.expression fragment

def compileFrom (language : Language ε) (position : Nat) (cache : Cache ε) :
    List Fragment → Cache ε × List CompileError
  | [] => (cache, [])
  | fragment :: rest =>
      if fragment.isPlaceholder then
        match cache.compileOne language fragment with
        | .ok compiled =>
            compileFrom language (position + 1) (cache.insert fragment.streamIndex compiled) rest
        | .error cause =>
            let (cache, errors) := compileFrom language (position + 1) cache rest
            let error := ⟨fragment.expression, fragment.sourceOffset, position, cause⟩
            (cache, error :: errors)
      else compileFrom language (position + 1) cache rest

/-- Adds the compiled expressions of all placeholders, and reports those that
gave none in their order. What is in the cache already stays as it is. -/
def compile (cache : Cache ε) (language : Language ε) (fragments : List Fragment) :
    Cache ε × List CompileError :=
  compileFrom language 0 cache fragments

/-- The values of placeholders by their compiled expressions on the data. A
placeholder is known by its stream index alone. -/
def resolver (cache : Cache ε) (language : Language ε) (data : Value) : Resolver :=
  fun expression fragment =>
    match cache[fragment.streamIndex]? with
    | some compiled => language.evaluate compiled data
    | none => .error (.notCompiled expression fragment.streamIndex)

/-- For every compiled index the data that it is evaluated on. -/
def renderedMap (cache : Cache ε) (data : Value) : List (Nat × Value) :=
  cache.keys.map fun index => (index, data)

end Cache

end Stencil
