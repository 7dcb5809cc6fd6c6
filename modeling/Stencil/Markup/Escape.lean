namespace Stencil.Markup

/-- The predefined entities, each with the character it stands for. -/
def entities : List (Char × List Char) :=
  [('&', ['&', 'a', 'm', 'p', ';']),
   ('<', ['&', 'l', 't', ';']),
   ('>', ['&', 'g', 't', ';']),
   ('"', ['&', 'q', 'u', 'o', 't', ';']),
   ('\'', ['&', 'a', 'p', 'o', 's', ';'])]

/-- A character as it is written inside an element. -/
def escapeChar (c : Char) : List Char :=
  (entities.lookup c).getD [c]

def escapeChars (text : List Char) : List Char :=
  text.flatMap escapeChar

/-- The text as it is written inside an element. -/
def escape (text : String) : String :=
  String.ofList (escapeChars text.toList)

/-- One pass from left to right that puts characters in place of the entities.
An ampersand that begins no entity stands for itself. -/
def unescapeChars : List Char → List Char
  | '&' :: 'a' :: 'm' :: 'p' :: ';' :: rest => '&' :: unescapeChars rest
  | '&' :: 'l' :: 't' :: ';' :: rest => '<' :: unescapeChars rest
  | '&' :: 'g' :: 't' :: ';' :: rest => '>' :: unescapeChars rest
  | '&' :: 'q' :: 'u' :: 'o' :: 't' :: ';' :: rest => '"' :: unescapeChars rest
  | '&' :: 'a' :: 'p' :: 'o' :: 's' :: ';' :: rest => '\'' :: unescapeChars rest
  | c :: rest => c :: unescapeChars rest
  | [] => []

def unescape (text : String) : String :=
  String.ofList (unescapeChars text.toList)

@[simp] theorem toList_escape (text : String) : (escape text).toList = escapeChars text.toList := by
  simp [escape]

@[simp] theorem escapeChars_append (first second : List Char) :
    escapeChars (first ++ second) = escapeChars first ++ escapeChars second := by
  simp [escapeChars]

end Stencil.Markup
