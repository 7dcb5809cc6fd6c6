namespace Stencil

namespace Fragment

inductive Kind where
  | content
  | placeholder
  | tag
deriving DecidableEq, Repr

inductive TagPosition where
  | start
  | «end»
  | selfClosing
  | none
deriving DecidableEq, Repr

end Fragment

/-- A token of a document part: literal text, a tag or a placeholder for a value. -/
structure Fragment where
  kind : Fragment.Kind
  /-- The position in the stream, by which a compiled expression is found again. -/
  streamIndex : Nat
  text : String := ""
  rawExpression : Option String := none
  xmlTag : Option String := none
  tagPosition : Fragment.TagPosition := .none
  /-- The offset in the source document, for error messages. -/
  sourceOffset : Nat := 0
  /-- The module that fills this placeholder itself. -/
  ownerModule : Option String := none
deriving DecidableEq, Repr

namespace Fragment

def content (streamIndex : Nat) (text : String) : Fragment :=
  { kind := .content, streamIndex, text }

/-- A tag with its own markup as text. -/
def tag (streamIndex : Nat) (xmlTag : String) (tagPosition : TagPosition) (text : String) :
    Fragment :=
  { kind := .tag, streamIndex, text, xmlTag := some xmlTag, tagPosition }

/-- A placeholder, whose text is the expression in braces. -/
def placeholder (streamIndex : Nat) (expression : String) (sourceOffset : Nat) : Fragment :=
  { kind := .placeholder, streamIndex, text := "\x7b" ++ expression ++ "\x7d"
    rawExpression := some expression, sourceOffset }

def ownedBy (fragment : Fragment) (owner : String) : Fragment :=
  { fragment with ownerModule := some owner }

def isPlaceholder (fragment : Fragment) : Bool :=
  fragment.kind == .placeholder

def isClaimed (fragment : Fragment) : Bool :=
  fragment.ownerModule.isSome

def expression (fragment : Fragment) : String :=
  fragment.rawExpression.getD ""

def hasTag (fragment : Fragment) (tag : String) : Bool :=
  fragment.xmlTag == some tag

end Fragment

end Stencil
