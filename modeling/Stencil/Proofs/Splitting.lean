namespace Stencil

theorem any_intercalate {α : Type} (property : α → Bool) (separator : List α)
    (plain : separator.any property = false) (pieces : List (List α)) :
    (separator.intercalate pieces).any property = pieces.any (·.any property) := by
  induction pieces with
  | nil => rfl
  | cons first rest ih =>
      cases rest with
      | nil => simp
      | cons next rest =>
          rw [List.intercalate_cons_cons, List.any_cons, ← ih]
          simp [plain]

/-- With a separator before each piece, also before the first. -/
theorem flatMap_cons_eq_intercalate {α : Type} {separator : α} {pieces : List (List α)}
    (present : pieces ≠ []) :
    pieces.flatMap (separator :: ·) = separator :: [separator].intercalate pieces := by
  induction pieces with
  | nil => contradiction
  | cons first rest ih =>
      cases rest with
      | nil => simp
      | cons next rest =>
          rw [List.flatMap_cons, ih (by simp), List.intercalate_cons_cons]
          simp

namespace Text

section

variable {α : Type} [BEq α] {separator : α} {items piece : List α}

theorem length_splitOn (items : List α) :
    (items.splitOn separator).length = items.count separator + 1 := by
  induction items with
  | nil => simp
  | cons item rest ih =>
      rw [List.splitOn_cons_eq_if_modifyHead, List.count_cons]
      split
      · rw [List.length_cons, ih]
      · rw [List.length_modifyHead, ih]

variable [LawfulBEq α]

theorem not_mem_of_mem_splitOn (member : piece ∈ items.splitOn separator) :
    separator ∉ piece := by
  induction items generalizing piece with
  | nil => simp_all
  | cons item rest ih =>
      rw [List.splitOn_cons_eq_if_modifyHead] at member
      split at member
      · rcases List.mem_cons.mp member with same | member
        · simp [same]
        · exact ih member
      · rename_i different
        cases cut : rest.splitOn separator with
        | nil => exact absurd cut (List.splitOn_ne_nil separator rest)
        | cons first others =>
            rw [cut] at ih
            rw [cut, List.modifyHead_cons] at member
            rcases List.mem_cons.mp member with same | member
            · rw [same, List.mem_cons, not_or]
              exact ⟨fun same => different (by simp [same]), ih (by simp)⟩
            · exact ih (by simp [member])

/-- What a filter that keeps the separators leaves is cut at the same places. -/
theorem splitOn_filter (keeps : α → Bool) (kept : keeps separator = true) (items : List α) :
    (items.filter keeps).splitOn separator =
      (items.splitOn separator).map (List.filter keeps) := by
  induction items with
  | nil => simp
  | cons item rest ih =>
      rw [List.splitOn_cons_eq_if_modifyHead, List.filter_cons]
      by_cases here : item == separator
      · have keptItem : keeps item = true := by rw [eq_of_beq here, kept]
        rw [if_pos here, if_pos keptItem, List.splitOn_cons_eq_if_modifyHead, if_pos here, ih]
        rfl
      · cases cut : rest.splitOn separator with
        | nil => exact absurd cut (List.splitOn_ne_nil separator rest)
        | cons first others =>
            rw [cut, List.map_cons] at ih
            rw [if_neg here, List.modifyHead_cons, List.map_cons, List.filter_cons]
            split
            · rw [List.splitOn_cons_eq_if_modifyHead, if_neg here, ih, List.modifyHead_cons]
            · exact ih

end

/-- The pieces of a text around the occurrences of a pattern, which are looked for from left
to right and do not overlap. The number says how much of the last one is still to pass. -/
def piecesFrom (pattern : List Char) : Nat → List Char → List (List Char)
  | _, [] => [[]]
  | passing + 1, _ :: rest => piecesFrom pattern passing rest
  | 0, c :: rest =>
      if pattern.isPrefixOf (c :: rest) then
        [] :: piecesFrom pattern (pattern.length - 1) rest
      else (piecesFrom pattern 0 rest).modifyHead (c :: ·)

def pieces (pattern text : String) : List String :=
  (piecesFrom pattern.toList 0 text.toList).map String.ofList

variable {first : Char} {tail plain rest : List Char}

theorem piecesFrom_pass (pattern passed rest : List Char) :
    piecesFrom pattern passed.length (passed ++ rest) = piecesFrom pattern 0 rest := by
  induction passed with
  | nil => rfl
  | cons c passed ih => rw [List.length_cons, List.cons_append, piecesFrom, ih]

theorem piecesFrom_found (rest : List Char) :
    piecesFrom (first :: tail) 0 (first :: tail ++ rest) =
      [] :: piecesFrom (first :: tail) 0 rest := by
  have found : (first :: tail).isPrefixOf (first :: tail ++ rest) = true :=
    List.isPrefixOf_iff_prefix.mpr (List.prefix_append _ _)
  rw [List.cons_append] at found ⊢
  rw [piecesFrom, if_pos found, List.length_cons, Nat.add_sub_cancel, piecesFrom_pass]

/-- No occurrence begins in a text without the first character of the pattern. -/
theorem piecesFrom_plain (absent : first ∉ plain) (rest : List Char) :
    piecesFrom (first :: tail) 0 (plain ++ rest) =
      (piecesFrom (first :: tail) 0 rest).modifyHead (plain ++ ·) := by
  induction plain with
  | nil =>
      rw [List.nil_append]
      cases piecesFrom (first :: tail) 0 rest <;> rfl
  | cons c plain ih =>
      rw [List.mem_cons, not_or] at absent
      have notHere : ¬ (first :: tail).isPrefixOf (c :: (plain ++ rest)) = true := by
        simp [List.isPrefixOf, absent.1]
      rw [List.cons_append, piecesFrom, if_neg notHere, ih absent.2, List.modifyHead_modifyHead]
      rfl

theorem piecesFrom_intercalate {parts : List (List Char)}
    (absent : ∀ part ∈ parts, first ∉ part) (present : parts ≠ []) :
    piecesFrom (first :: tail) 0 ((first :: tail).intercalate parts) = parts := by
  induction parts with
  | nil => contradiction
  | cons part rest ih =>
      have own := absent part (by simp)
      cases rest with
      | nil =>
          rw [List.intercalate_singleton, ← List.append_nil part, piecesFrom_plain own]
          simp [piecesFrom]
      | cons next rest =>
          have later := ih (fun part member => absent part (by simp [member])) (by simp)
          rw [List.intercalate_cons_cons, List.append_assoc, piecesFrom_plain own,
            piecesFrom_found, later]
          simp

theorem pieces_intercalate {pattern : String} {parts : List String}
    (begins : pattern.toList = first :: tail) (absent : ∀ part ∈ parts, first ∉ part.toList)
    (present : parts ≠ []) : pieces pattern (pattern.intercalate parts) = parts := by
  rw [pieces, String.toList_intercalate, begins, piecesFrom_intercalate]
  · simp
  · intro part member
    obtain ⟨source, listed, same⟩ := List.mem_map.mp member
    rw [← same]
    exact absent source listed
  · simpa using present

end Text

end Stencil
