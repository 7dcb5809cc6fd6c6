import Stencil.Markup.Escape

namespace Stencil.Markup

variable {c d : Char} {chars : List Char}

theorem escapeChar_of_mem {entity : List Char} (listed : (c, entity) ∈ entities) :
    escapeChar c = entity := by
  simp only [entities, List.mem_cons, Prod.mk.injEq, List.not_mem_nil, or_false] at listed
  rcases listed with ⟨rfl, rfl⟩ | ⟨rfl, rfl⟩ | ⟨rfl, rfl⟩ | ⟨rfl, rfl⟩ | ⟨rfl, rfl⟩ <;> rfl

theorem escapeChar_of_not_mem (plain : c ∉ entities.map Prod.fst) : escapeChar c = [c] := by
  have absent : entities.lookup c = none := by
    rw [List.lookup_eq_none_iff]
    intro entry member
    have different : c ≠ entry.1 := by
      rintro rfl
      exact plain (List.mem_map_of_mem member)
    simpa using different
  simp [escapeChar, absent]

theorem escapeChar_cases (c : Char) :
    (c, escapeChar c) ∈ entities ∨ (c ∉ entities.map Prod.fst ∧ escapeChar c = [c]) := by
  by_cases special : c ∈ entities.map Prod.fst
  · obtain ⟨⟨first, entity⟩, listed, rfl⟩ := List.mem_map.mp special
    exact .inl (by rw [escapeChar_of_mem listed]; exact listed)
  · exact .inr ⟨special, escapeChar_of_not_mem special⟩

/-- Every property of characters that no special character has, but those that
entities are written with, carries over to escaped text. -/
theorem any_escapeChar (property : Char → Bool)
    (entity : ∀ entry ∈ entities, entry.2.any property = property entry.1) (c : Char) :
    (escapeChar c).any property = property c := by
  rcases escapeChar_cases c with listed | ⟨_, same⟩
  · exact entity _ listed
  · simp [same]

theorem any_escapeChars (property : Char → Bool)
    (entity : ∀ entry ∈ entities, entry.2.any property = property entry.1)
    (chars : List Char) : (escapeChars chars).any property = chars.any property := by
  simp only [escapeChars, List.any_flatMap, any_escapeChar property entity]

/-- Removing characters before or after escaping is the same, where neither a special
character nor one that entities are written with is removed. -/
theorem filter_escapeChars (keeps : Char → Bool)
    (entity : ∀ entry ∈ entities, keeps entry.1 = true ∧ entry.2.all keeps = true)
    (chars : List Char) : (escapeChars chars).filter keeps = escapeChars (chars.filter keeps) := by
  have each (c : Char) :
      (escapeChar c).filter keeps = if keeps c then escapeChar c else [] := by
    rcases escapeChar_cases c with listed | ⟨_, same⟩
    · obtain ⟨special, written⟩ := entity _ listed
      rw [if_pos special]
      exact List.filter_eq_self.mpr (List.all_eq_true.mp written)
    · rw [same, List.filter_cons, List.filter_nil]
  induction chars with
  | nil => rfl
  | cons c rest ih =>
      rw [escapeChars, List.flatMap_cons, List.filter_append, each, ← escapeChars, ih,
        List.filter_cons]
      split
      · rw [escapeChars, escapeChars, List.flatMap_cons]
      · rfl

/-- The characters that delimit markup do not occur in escaped text. -/
theorem not_delimiter_of_mem_escapeChar (member : d ∈ escapeChar c) :
    d ≠ '<' ∧ d ≠ '>' ∧ d ≠ '"' ∧ d ≠ '\'' := by
  rcases escapeChar_cases c with listed | ⟨plain, same⟩
  · have written : ∀ entry ∈ entities, ∀ d ∈ entry.2, d ≠ '<' ∧ d ≠ '>' ∧ d ≠ '"' ∧ d ≠ '\'' := by
      simp [entities]
    exact written _ listed d member
  · rw [same, List.mem_singleton] at member
    subst d
    simp only [entities, List.map_cons, List.map_nil, List.mem_cons, List.not_mem_nil,
      or_false, not_or] at plain
    exact ⟨plain.2.1, plain.2.2.1, plain.2.2.2.1, plain.2.2.2.2⟩

theorem not_delimiter_of_mem_escapeChars (member : d ∈ escapeChars chars) :
    d ≠ '<' ∧ d ≠ '>' ∧ d ≠ '"' ∧ d ≠ '\'' := by
  obtain ⟨c, _, within⟩ := List.mem_flatMap.mp member
  exact not_delimiter_of_mem_escapeChar within

theorem escapeChars_intercalate {separator : List Char}
    (plain : escapeChars separator = separator) (pieces : List (List Char)) :
    escapeChars (separator.intercalate pieces) =
      separator.intercalate (pieces.map escapeChars) := by
  induction pieces with
  | nil => rfl
  | cons first rest ih =>
      cases rest with
      | nil => simp
      | cons next rest =>
          rw [List.intercalate_cons_cons, escapeChars_append, escapeChars_append, plain, ih]
          simp [List.intercalate_cons_cons]

/-- Escaping a joined text is joining the escaped pieces, where what stands between
them is written as it is. -/
theorem escape_intercalate {separator : String} (plain : escape separator = separator)
    (pieces : List String) :
    escape (separator.intercalate pieces) = separator.intercalate (pieces.map escape) := by
  have chars : escapeChars separator.toList = separator.toList := by
    rw [← toList_escape, plain]
  apply String.toList_injective
  rw [toList_escape, String.toList_intercalate, escapeChars_intercalate chars,
    String.toList_intercalate, List.map_map, List.map_map]
  congr 2
  funext piece
  simp

theorem unescapeChars_cons (plain : c ≠ '&') (rest : List Char) :
    unescapeChars (c :: rest) = c :: unescapeChars rest := by
  rw [unescapeChars.eq_def]
  split <;> simp_all

theorem unescapeChars_escapeChar (c : Char) (rest : List Char) :
    unescapeChars (escapeChar c ++ rest) = c :: unescapeChars rest := by
  rcases escapeChar_cases c with listed | ⟨plain, same⟩
  · have readBack : ∀ entry ∈ entities,
        unescapeChars (entry.2 ++ rest) = entry.1 :: unescapeChars rest := by
      intro entry member
      simp only [entities, List.mem_cons, List.not_mem_nil, or_false] at member
      rcases member with rfl | rfl | rfl | rfl | rfl <;> rfl
    exact readBack _ listed
  · rw [same]
    refine unescapeChars_cons ?_ rest
    intro ampersand
    exact plain (by simp [ampersand, entities])

theorem unescapeChars_escapeChars (chars : List Char) :
    unescapeChars (escapeChars chars) = chars := by
  induction chars with
  | nil => rfl
  | cons c rest ih =>
      rw [escapeChars, List.flatMap_cons, unescapeChars_escapeChar, ← escapeChars, ih]

@[simp] theorem unescape_escape (text : String) : unescape (escape text) = text := by
  rw [unescape, toList_escape, unescapeChars_escapeChars, String.ofList_toList]

end Stencil.Markup
