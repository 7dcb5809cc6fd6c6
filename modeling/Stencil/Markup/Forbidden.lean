namespace Stencil.Markup

/-- A control character that no document may hold. -/
def isForbidden (c : Char) : Bool :=
  c.toNat < 0x20 && c != '\t' && c != '\n' && c != '\r'

def hasForbidden (text : String) : Bool :=
  text.toList.any isForbidden

/-- The text without its forbidden characters. -/
def stripForbidden (text : String) : String :=
  String.ofList (text.toList.filter fun c => !isForbidden c)

@[simp] theorem toList_stripForbidden (text : String) :
    (stripForbidden text).toList = text.toList.filter fun c => !isForbidden c := by
  simp [stripForbidden]

end Stencil.Markup
