import Stencil.Proofs.Splitting
import Stencil.Rendered

namespace Stencil

section

variable {α : Type}

def evenItems : List α → List α
  | [] => []
  | [item] => [item]
  | item :: _ :: rest => item :: evenItems rest

def oddItems (items : List α) : List α :=
  evenItems items.tail

theorem getElem?_evenItems (items : List α) (index : Nat) :
    (evenItems items)[index]? = items[2 * index]? := by
  induction items using evenItems.induct generalizing index with
  | case1 => rfl
  | case2 item =>
      cases index with
      | zero => rfl
      | succ index => simp [evenItems, Nat.mul_add]
  | case3 item other rest ih =>
      cases index with
      | zero => rfl
      | succ index => simp [evenItems, ih, Nat.mul_add]

theorem getElem?_oddItems (items : List α) (index : Nat) :
    (oddItems items)[index]? = items[2 * index + 1]? := by
  rw [oddItems, getElem?_evenItems, List.getElem?_tail]

theorem oddItems_cons_cons (item other : α) (rest : List α) :
    oddItems (item :: other :: rest) = other :: oddItems rest := by
  cases rest <;> rfl

@[simp] theorem evenItems_intersperse (separator : α) (items : List α) :
    evenItems (items.intersperse separator) = items := by
  refine List.ext_getElem? fun index => ?_
  rw [getElem?_evenItems, List.getElem?_intersperse_two_mul]

theorem eq_of_mem_oddItems_intersperse {separator item : α} {items : List α}
    (member : item ∈ oddItems (items.intersperse separator)) : item = separator := by
  obtain ⟨index, found⟩ := List.mem_iff_getElem?.mp member
  rw [getElem?_oddItems] at found
  have inside := (List.getElem?_eq_some_iff.mp found).1
  rw [List.length_intersperse] at inside
  rw [List.getElem?_intersperse_two_mul_add_one (by omega), Option.some.injEq] at found
  exact found.symm

end

/-- The text is the value's, written as it stands in the document: the whole of it,
or one of its lines, which are the parts at even places. -/
def Rendered.Inserts : Rendered → String → Prop
  | .raw value, text => text = value.text
  | .escaped content, text => text = content
  | .segments parts, text => ∃ line, parts[2 * line]? = some text

theorem Rendered.inserts_ofLines {transition text inserted : String} :
    (Rendered.ofLines transition text).Inserts inserted ↔
      ∃ line ∈ lines text, Markup.escape line = inserted := by
  simp only [ofLines, Inserts, List.getElem?_intersperse_two_mul, ← List.mem_iff_getElem?,
    List.mem_map]

/-- The lines of a text with line feeds between them are the text. -/
theorem intercalate_lines (text : String) :
    ['\n'].intercalate ((lines text).map String.toList) = text.toList := by
  have split : (lines text).map String.toList = text.toList.splitOn '\n' := by
    simp [lines]
  rw [split, List.intercalate_splitOn]

theorem join_lines (text : String) : "\n".intercalate (lines text) = text := by
  apply String.toList_injective
  rw [String.toList_intercalate]
  exact intercalate_lines text

/-- A property of characters that the line feed does not have holds somewhere in a
text if and only if it does in one of its lines. -/
theorem any_lines (property : Char → Bool) (plain : property '\n' = false) (text : String) :
    (lines text).any (·.toList.any property) = text.toList.any property := by
  rw [← intercalate_lines text, any_intercalate property ['\n'] (by simp [plain]), List.any_map]
  rfl

end Stencil
