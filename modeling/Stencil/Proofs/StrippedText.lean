import Mathlib.Data.List.Perm.Basic
import Stencil.Proofs.XmlCharacters

namespace Stencil

/-- What a filter leaves is the only part of a list that has all of the kept items in their
order, as often as they occurred, and none of the others. -/
theorem eq_filter_iff {α : Type} [BEq α] [LawfulBEq α] {keeps : α → Bool} {items left : List α} :
    items.filter keeps = left ↔
      left.Sublist items ∧ ∀ a, left.count a = if keeps a then items.count a else 0 := by
  have counts (a : α) :
      (items.filter keeps).count a = if keeps a then items.count a else 0 := by
    split
    · rename_i kept
      exact List.count_filter kept
    · rename_i dropped
      exact List.count_eq_zero_of_not_mem fun member => dropped (List.mem_filter.mp member).2
  constructor
  · rintro rfl
    exact ⟨List.filter_sublist, counts⟩
  · rintro ⟨part, same⟩
    have arranged : left.Perm (items.filter keeps) :=
      List.perm_iff_count.mpr fun a => (same a).trans (counts a).symm
    have kept : left.filter keeps = left :=
      List.filter_eq_self.mpr fun a member => (List.mem_filter.mp (arranged.subset member)).2
    have within : left.Sublist (items.filter keeps) := by
      rw [← kept]
      exact part.filter keeps
    exact (within.eq_of_length arranged.length_eq).symm

namespace Markup

/-- The class of forbidden characters, by their code points. -/
def forbiddenRanges : Text.CodeRanges :=
  [(0x00, 0x08), (0x0B, 0x0B), (0x0C, 0x0C), (0x0E, 0x1F)]

theorem isForbidden_eq (c : Char) : isForbidden c = forbiddenRanges.contains c := by
  rw [Bool.eq_iff_iff, isForbidden_iff, Text.CodeRanges.contains_iff]
  simp only [forbiddenRanges, List.mem_cons, List.not_mem_nil, or_false, exists_eq_or_imp,
    exists_eq_left]
  omega

variable {text stripped : String}

theorem stripForbidden_eq_iff :
    stripForbidden text = stripped ↔
      stripped.toList.Sublist text.toList ∧
        ∀ c, stripped.toList.count c =
          if forbiddenRanges.contains c then 0 else text.toList.count c := by
  have swapped (c : Char) (present : Nat) :
      (if forbiddenRanges.contains c then 0 else present) =
        if !isForbidden c then present else 0 := by
    rw [isForbidden_eq]
    cases forbiddenRanges.contains c <;> rfl
  simp only [swapped]
  rw [← eq_filter_iff, ← String.toList_inj, toList_stripForbidden]

theorem hasForbidden_iff_exists :
    hasForbidden text = true ↔ ∃ c ∈ text.toList, forbiddenRanges.contains c = true := by
  simp only [hasForbidden, List.any_eq_true, isForbidden_eq]

theorem stripForbidden_eq_self_iff : stripForbidden text = text ↔ hasForbidden text = false := by
  rw [← String.toList_inj, toList_stripForbidden, List.filter_eq_self, hasForbidden,
    List.any_eq_false]
  simp

theorem stripForbidden_escape (text : String) :
    stripForbidden (escape text) = escape (stripForbidden text) := by
  apply String.toList_injective
  rw [toList_stripForbidden, toList_escape, toList_escape, toList_stripForbidden,
    filter_escapeChars _ (by decide)]

theorem lines_stripForbidden (text : String) :
    lines (stripForbidden text) = (lines text).map stripForbidden := by
  have kept : (!isForbidden '\n') = true := by decide
  rw [lines, toList_stripForbidden, Text.splitOn_filter (fun c => !isForbidden c) kept, lines,
    List.map_map, List.map_map]
  refine List.map_congr_left fun line _ => ?_
  simp [stripForbidden]

/-- A text is changed by stripping exactly if it holds a character of the class, and then
loses these and no others. Escaping neither adds nor hides any, and each line is stripped by
itself. -/
theorem stripping_commutes (text : String) :
    (∀ stripped, stripForbidden text = stripped ↔
      stripped.toList.Sublist text.toList ∧
        ∀ c, stripped.toList.count c =
          if forbiddenRanges.contains c then 0 else text.toList.count c) ∧
    (hasForbidden text = true ↔ ∃ c ∈ text.toList, forbiddenRanges.contains c = true) ∧
    hasForbidden (stripForbidden text) = false ∧
    (stripForbidden text = text ↔ hasForbidden text = false) ∧
    hasForbidden (escape text) = hasForbidden text ∧
    stripForbidden (escape text) = escape (stripForbidden text) ∧
    lines (stripForbidden text) = (lines text).map stripForbidden ∧
    (lines (stripForbidden text)).length = (lines text).length := by
  refine ⟨fun _ => stripForbidden_eq_iff, hasForbidden_iff_exists, hasForbidden_stripForbidden text,
    stripForbidden_eq_self_iff, hasForbidden_escape text, stripForbidden_escape text,
    lines_stripForbidden text, ?count⟩
  case count => rw [lines_stripForbidden, List.length_map]

/-- A line of nothing but forbidden characters stays as an empty line, and the ampersand beside
one is escaped in full. -/
example : (lines (stripForbidden "\x01\n\x1f&\x0c")).map escape = ["", "&amp;"] := by decide

end Markup

end Stencil
