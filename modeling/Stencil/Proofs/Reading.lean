import Stencil.Proofs.ElementTree
import Stencil.Text.Characters

namespace Stencil.Markup

def isNameChar (c : Char) : Bool :=
  !Text.isBlank c && c != '/'

def tagOf (inner : List Char) : Fragment :=
  let name (chars : List Char) := String.ofList (chars.takeWhile isNameChar)
  let text := String.ofList ('<' :: (inner ++ ['>']))
  if inner.head? = some '/' then .tag 0 (name inner.tail) .end text
  else if inner.getLast? = some '/' then .tag 0 (name inner) .selfClosing text
  else .tag 0 (name inner) .start text

/-- Reads from outside of tags, or from within a tag of which a part has been read. -/
def readFrom : Option (List Char) → List Char → Option (List Fragment)
  | none, [] => some []
  | some _, [] => none
  | none, c :: rest =>
      if c = '<' then readFrom (some []) rest
      else if c = '>' then none
      else (readFrom none rest).map (.content 0 (String.singleton c) :: ·)
  | some inner, c :: rest =>
      if c = '>' then (readFrom none rest).map (tagOf inner :: ·)
      else if c = '<' then none
      else readFrom (some (inner ++ [c])) rest

/-- The tags and characters of a text. There are none if a tag is not finished or an
angle bracket stands in the wrong place. -/
def read? (text : String) : Option (List Fragment) :=
  readFrom none text.toList

variable {text first second : String} {tokens firstTokens secondTokens : List Fragment}
  {chars more : List Char} {inside : Option (List Char)}

theorem readFrom_append (read : readFrom inside chars = some tokens) :
    readFrom inside (chars ++ more) = (readFrom none more).map (tokens ++ ·) := by
  induction chars generalizing inside tokens with
  | nil =>
      cases inside with
      | none =>
          cases read
          simp
      | some inner => contradiction
  | cons c rest ih =>
      cases inside with
      | none =>
          simp only [readFrom] at read
          simp only [List.cons_append, readFrom]
          split
          · rename_i opening
            rw [if_pos opening] at read
            exact ih read
          · rename_i noOpening
            rw [if_neg noOpening] at read
            split
            · rename_i closing
              simp [closing] at read
            · rename_i noClosing
              rw [if_neg noClosing, Option.map_eq_some_iff] at read
              obtain ⟨later, read, rfl⟩ := read
              rw [ih read, Option.map_map]
              rfl
      | some inner =>
          simp only [readFrom] at read
          simp only [List.cons_append, readFrom]
          split
          · rename_i closing
            rw [if_pos closing, Option.map_eq_some_iff] at read
            obtain ⟨later, read, rfl⟩ := read
            rw [ih read, Option.map_map]
            rfl
          · rename_i noClosing
            rw [if_neg noClosing] at read
            split
            · rename_i opening
              simp [opening] at read
            · rename_i noOpening
              rw [if_neg noOpening] at read
              exact ih read

theorem read?_append (firstRead : read? first = some firstTokens)
    (secondRead : read? second = some secondTokens) :
    read? (first ++ second) = some (firstTokens ++ secondTokens) := by
  unfold read? at firstRead secondRead ⊢
  rw [String.toList_append, readFrom_append firstRead, secondRead, Option.map_some]

theorem toList_text_tagOf (inner : List Char) :
    (tagOf inner).text.toList = '<' :: (inner ++ ['>']) := by
  unfold tagOf
  split
  · simp [Fragment.tag]
  · split <;> simp [Fragment.tag]

theorem joined_of_readFrom (read : readFrom inside chars = some tokens) :
    (Fragment.joined tokens).toList = (inside.elim [] fun inner => '<' :: inner) ++ chars := by
  induction chars generalizing inside tokens with
  | nil =>
      cases inside with
      | none =>
          cases read
          simp [Fragment.joined_nil]
      | some inner => contradiction
  | cons c rest ih =>
      cases inside with
      | none =>
          simp only [readFrom] at read
          split at read
          · rename_i opening
            simpa [opening] using ih read
          · split at read
            · contradiction
            · rw [Option.map_eq_some_iff] at read
              obtain ⟨later, read, rfl⟩ := read
              simp [Fragment.content, ih read]
      | some inner =>
          simp only [readFrom] at read
          split at read
          · rename_i closing
            rw [Option.map_eq_some_iff] at read
            obtain ⟨later, read, rfl⟩ := read
            simp [toList_text_tagOf, closing, ih read]
          · split at read
            · contradiction
            · simpa using ih read

theorem joined_of_read? (read : read? text = some tokens) : Fragment.joined tokens = text := by
  rw [← String.toList_inj, joined_of_readFrom read]
  simp

def Plain (text : String) : Prop :=
  ∀ c ∈ text.toList, c ≠ '<' ∧ c ≠ '>'

instance (text : String) : Decidable (Plain text) :=
  List.decidableBAll _ text.toList

theorem read?_of_plain (plain : Plain text) :
    read? text = some (text.toList.map fun c => .content 0 (String.singleton c)) := by
  unfold Plain at plain
  unfold read?
  generalize text.toList = chars at plain ⊢
  induction chars with
  | nil => rfl
  | cons c rest ih =>
      obtain ⟨noOpening, noClosing⟩ := plain c (by simp)
      rw [readFrom, if_neg noOpening, if_neg noClosing,
        ih (fun other member => plain other (by simp [member]))]
      rfl

end Stencil.Markup
