import Stencil.Path.Basic
import Stencil.Value.Basic

namespace Stencil.Path

/-- The greatest index is the greatest number of 64 bits. -/
def maxIndex : Nat := Nat.pow 2 64 - 1

/-- The index that a name writes: decimal digits, with a plus sign before them
or without, and any number of leading zeros. -/
def index? (name : String) : Option Nat :=
  let digits := match name.toList with
    | '+' :: digits => digits
    | digits => digits
  if digits ≠ [] ∧ digits.all Char.isDigit then
    let index := Nat.ofDigitChars 10 digits 0
    if index ≤ maxIndex then some index else none
  else none

/-- One step into the data. -/
def step? (value : Value) (name : String) : Option Value :=
  match value with
  | .object _ => value.member? name
  | .array items => (index? name).bind fun index => items[index]?
  | _ => none

def follow? (value : Value) : List String → Option Value
  | [] => some value
  | name :: rest => (step? value name).bind fun next => follow? next rest

/-- The part of the data that the path leads to, if there is one. -/
def evaluate (path : Path) (data : Value) : Option Value :=
  match path with
  | .current => some data
  | .segments names => follow? data names

end Stencil.Path
