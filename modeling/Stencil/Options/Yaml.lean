import Stencil.Options.Record
import Stencil.Yaml.Record

namespace Stencil.Options

open Yaml (Node)

def ofNode? (node : Node) : Option Options :=
  (node.record? fieldNames).bind (ofRecord? Node.fieldFormat)

/-- Reads options from the text of a YAML document. -/
def ofYaml? (text : String) : Option Options :=
  (Node.ofText? text).bind ofNode?

example : ofYaml? "dialect: pptx\nlinebreaks: true # on\n" =
    some { dialect := .pptx, linebreaks := true } := by decide +kernel

example : ofYaml? "content_type: \"a\\\n b\"" = some { contentType := some "ab" } := by
  decide +kernel

example : ofYaml? "linebreaks: 'true'" = none := by decide +kernel

end Stencil.Options
