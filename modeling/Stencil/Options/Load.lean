import Stencil.Failure
import Stencil.Options.Json
import Stencil.Options.Yaml

namespace Stencil.Options

/-- What is found under the name of a file. -/
inductive File where
  | missing
  | directory
  | bytes (content : ByteArray)

/-- The text of a file, which must be UTF-8. -/
def File.text : File → Except String String
  | .missing => .error "No such file or directory (os error 2)"
  | .directory => .error "Is a directory (os error 21)"
  | .bytes content =>
      match String.fromUTF8? content with
      | some text => .ok text
      | none => .error "stream did not contain valid UTF-8"

/-- The part of a file name behind its last dot. A dot at the beginning does not
count. -/
def extension? (name : String) : Option String :=
  match name.toList.splitOn '.' with
  | [] | [_] | [[], _] => none
  | parts => parts.getLast?.map String.ofList

/-- Reads options from the text of a file with this name. -/
def ofText? (name text : String) : Option Options :=
  if extension? name = some "json" then ofJson? text else ofYaml? text

def load (name : String) (file : File) : Except ConfigError Options := do
  let text ← file.text.mapError fun reason => .read s!"{name}: {reason}"
  match ofText? name text with
  | some options => .ok options
  | none => .error (.parse s!"`{name}` holds no options")

example : extension? "o.yaml.json" = some "json" := by decide +kernel

example : extension? ".json" = none := by decide +kernel

end Stencil.Options
