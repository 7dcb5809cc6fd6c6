import Mathlib.Data.List.Infix
import Stencil.Proofs.Escaping

namespace Stencil.Markup

structure EscapedChars (chars : List Char) : Prop where
  undelimited : ∀ c ∈ chars, c ≠ '<' ∧ c ≠ '>' ∧ c ≠ '"' ∧ c ≠ '\''
  ampersand : ∀ rest, '&' :: rest <:+ chars →
    ∃ entity ∈ entities.map Prod.snd, entity <+: '&' :: rest

/-- No angle bracket and no quote is in the text, and where an ampersand is, one of the
predefined entities begins. -/
def IsEscaped (text : String) : Prop :=
  EscapedChars text.toList

variable {c : Char} {chars part rest : List Char}

theorem EscapedChars.suffix (escaped : EscapedChars chars) (ends : part <:+ chars) :
    EscapedChars part where
  undelimited c member := escaped.undelimited c (ends.subset member)
  ampersand rest within := escaped.ampersand rest (within.trans ends)

/-- An ampersand in an escaped character is the first character of an entity. -/
theorem entity_of_suffix_escapeChar (ends : '&' :: part <:+ escapeChar c) :
    '&' :: part ∈ entities.map Prod.snd := by
  rcases escapeChar_cases c with listed | ⟨plain, same⟩
  · have whole : ∀ entry ∈ entities, ∀ tail ∈ entry.2.tails, tail.head? = some '&' →
        tail = entry.2 := by decide
    rw [whole _ listed ('&' :: part) ((List.mem_tails _ _).mpr ends) rfl]
    exact List.mem_map_of_mem listed
  · rw [same, List.suffix_cons_iff] at ends
    rcases ends with equal | within
    · obtain ⟨rfl, _⟩ := List.cons.inj equal
      exact absurd (by decide) plain
    · simp at within

theorem ampersand_of_escapeChars (ends : '&' :: rest <:+ escapeChars chars) :
    ∃ entity ∈ entities.map Prod.snd, entity <+: '&' :: rest := by
  induction chars with
  | nil => simp [escapeChars] at ends
  | cons c chars ih =>
      rw [escapeChars, List.flatMap_cons, ← escapeChars] at ends
      obtain ⟨before, parts⟩ := ends
      -- the ampersand is in the first character as it is written, or behind that
      rcases List.append_eq_append_iff.mp parts with ⟨part, first, behind⟩ | ⟨more, _, behind⟩
      · cases part with
        | nil => exact ih ⟨[], behind⟩
        | cons d part =>
            obtain ⟨rfl, tail⟩ := List.cons.inj behind
            exact ⟨'&' :: part, entity_of_suffix_escapeChar ⟨before, first.symm⟩,
              ⟨escapeChars chars, behind.symm⟩⟩
      · exact ih ⟨more, behind.symm⟩

theorem escaped_escapeChars (chars : List Char) : EscapedChars (escapeChars chars) where
  undelimited _ := not_delimiter_of_mem_escapeChars
  ampersand _ := ampersand_of_escapeChars

/-- Escaped text begins with a character as it is written. -/
theorem EscapedChars.exists_first (escaped : EscapedChars (c :: rest)) :
    ∃ d tail, c :: rest = escapeChar d ++ tail := by
  by_cases special : c = '&'
  · subst special
    obtain ⟨entity, listed, tail, same⟩ := escaped.ampersand rest (List.suffix_refl _)
    obtain ⟨entry, member, rfl⟩ := List.mem_map.mp listed
    exact ⟨entry.1, tail, by rw [escapeChar_of_mem member, same]⟩
  · have undelimited := escaped.undelimited c List.mem_cons_self
    have plain : c ∉ entities.map Prod.fst := by
      simpa [entities, special] using undelimited
    exact ⟨c, rest, by rw [escapeChar_of_not_mem plain]; rfl⟩

theorem escapeChar_ne_nil (c : Char) : escapeChar c ≠ [] := by
  rcases escapeChar_cases c with listed | ⟨_, same⟩
  · have written : ∀ entry ∈ entities, entry.2 ≠ [] := by decide
    exact written _ listed
  · simp [same]

theorem EscapedChars.exists_source (escaped : EscapedChars chars) :
    ∃ source, escapeChars source = chars := by
  -- an entity is taken off as a whole, so the length decreases and not the list by one
  induction size : chars.length using Nat.strongRecOn generalizing chars with
  | ind length ih =>
      cases chars with
      | nil => exact ⟨[], rfl⟩
      | cons c rest =>
          obtain ⟨first, tail, parts⟩ := escaped.exists_first
          have shorter : tail.length < length := by
            have written := List.length_pos_iff.mpr (escapeChar_ne_nil first)
            rw [← size, parts, List.length_append]
            omega
          obtain ⟨source, same⟩ :=
            ih tail.length shorter (escaped.suffix ⟨_, parts.symm⟩) rfl
          refine ⟨first :: source, ?_⟩
          rw [escapeChars, List.flatMap_cons, ← escapeChars, same, parts]

theorem isEscaped_iff {text : String} : IsEscaped text ↔ ∃ source, escape source = text := by
  constructor
  · intro escaped
    obtain ⟨source, same⟩ := escaped.exists_source
    exact ⟨String.ofList source, by simp [escape, same]⟩
  · rintro ⟨source, rfl⟩
    rw [IsEscaped, toList_escape]
    exact escaped_escapeChars source.toList

/-- Every text is read back from its escaped form, whatever it holds. The escaped texts are
exactly those that the pass back and forth leaves as they are. -/
theorem escape_faithful (text more : String) :
    unescape (escape text) = text ∧ Function.Injective escape ∧ IsEscaped (escape text) ∧
      escape (text ++ more) = escape text ++ escape more ∧
      (IsEscaped text ↔ escape (unescape text) = text) := by
  refine ⟨unescape_escape text, Function.LeftInverse.injective unescape_escape,
    isEscaped_iff.mpr ⟨text, rfl⟩, ?concatenation, ?image⟩
  case concatenation =>
    apply String.toList_injective
    simp
  case image =>
    constructor
    · intro escaped
      obtain ⟨source, rfl⟩ := isEscaped_iff.mp escaped
      rw [unescape_escape]
    · intro same
      exact isEscaped_iff.mpr ⟨unescape text, same⟩

/-- The ampersand of an entity is escaped like any other. -/
example : escape "&lt; &" = "&amp;lt; &amp;" ∧ unescape "&amp;lt; &amp;" = "&lt; &" := by
  decide

end Stencil.Markup
