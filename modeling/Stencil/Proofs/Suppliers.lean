import Stencil.Proofs.Compilation

namespace Stencil

variable {ε : Type} {language : Language ε} {fragments : List Fragment} {fragment : Fragment}
  {position index : Nat} {compiled : ε} {cause : Cause} {cache : Cache ε}

theorem split_at_position (found : fragments[position]? = some fragment) :
    fragments = fragments.take position ++ fragment :: fragments.drop (position + 1) := by
  obtain ⟨inside, rfl⟩ := List.getElem?_eq_some_iff.mp found
  rw [← List.drop_eq_getElem_cons inside, List.take_append_drop]

namespace Language

/-- What a fragment has for a stream index: the expression of a placeholder with this
index, if it is accepted. -/
def supplied? (language : Language ε) (index : Nat) (fragment : Fragment) : Option ε :=
  if fragment.isPlaceholder && fragment.streamIndex == index then
    (language.parse fragment.expression fragment).toOption
  else none

/-- The fragment at the position is the first that has an expression for the index. -/
structure Supplies (language : Language ε) (fragments : List Fragment) (index position : Nat)
    (compiled : ε) : Prop where
  present : fragments[position]?.bind (language.supplied? index) = some compiled
  first : ∀ earlier ∈ fragments.take position, language.supplied? index earlier = none

theorem supplied?_of_accepted (placeholder : fragment.isPlaceholder = true)
    (accepted : language.parse fragment.expression fragment = .ok compiled) :
    language.supplied? fragment.streamIndex fragment = some compiled := by
  simp [supplied?, placeholder, accepted, Except.toOption]

theorem supplied?_of_refused
    (refused : language.parse fragment.expression fragment = .error cause) (index : Nat) :
    language.supplied? index fragment = none := by
  simp [supplied?, refused, Except.toOption]

theorem supplied?_of_not_placeholder (other : fragment.isPlaceholder = false) (index : Nat) :
    language.supplied? index fragment = none := by
  simp [supplied?, other]

theorem supplied?_of_ne (different : fragment.streamIndex ≠ index) :
    language.supplied? index fragment = none := by
  simp [supplied?, different]

theorem placeholder_of_supplied (supplied : language.supplied? index fragment = some compiled) :
    fragment.isPlaceholder = true ∧ fragment.streamIndex = index := by
  unfold supplied? at supplied
  split at supplied
  · rename_i supplier
    simpa using supplier
  · contradiction

theorem findSome?_supplied (language : Language ε) (fragments : List Fragment) (index : Nat) :
    fragments.findSome? (language.supplied? index) = some compiled ↔
      ∃ position, language.Supplies fragments index position compiled := by
  constructor
  · intro found
    obtain ⟨before, supplier, rest, rfl, supplied, first⟩ := List.findSome?_eq_some_iff.mp found
    refine ⟨before.length, ?_, ?_⟩
    · simpa using supplied
    · simpa using first
  · rintro ⟨position, present, first⟩
    obtain ⟨supplier, found, supplied⟩ := Option.bind_eq_some_iff.mp present
    exact List.findSome?_eq_some_iff.mpr ⟨fragments.take position, supplier,
      fragments.drop (position + 1), split_at_position found, supplied, first⟩

end Language

namespace Cache

theorem compileOne_eq_ok_iff :
    cache.compileOne language fragment = .ok compiled ↔
      cache[fragment.streamIndex]? = none ∧
        language.parse fragment.expression fragment = .ok compiled := by
  constructor
  · intro accepted
    refine ⟨absent_of_compiled accepted, ?_⟩
    unfold compileOne at accepted
    split at accepted
    · contradiction
    · exact accepted
  · rintro ⟨free, accepted⟩
    simp [compileOne, Std.TreeMap.contains_eq_isSome_getElem?, free, accepted]

theorem supplied?_of_free (free : cache[index]? = none)
    (refused : cache.compileOne language fragment = .error cause) :
    language.supplied? index fragment = none := by
  by_cases same : fragment.streamIndex = index
  · subst same
    -- the index is free, so it is the expression that was refused
    cases parsed : language.parse fragment.expression fragment with
    | ok compiled =>
        rw [compileOne_eq_ok_iff.mpr ⟨free, parsed⟩] at refused
        contradiction
    | error reason => exact Language.supplied?_of_refused parsed _
  · exact Language.supplied?_of_ne same

/-- An index leads to what it led to before, else to what its first supplier has. -/
theorem getElem?_compileFrom (language : Language ε) (position : Nat) (cache : Cache ε)
    (fragments : List Fragment) (index : Nat) :
    (compileFrom language position cache fragments).1[index]? =
      cache[index]?.or (fragments.findSome? (language.supplied? index)) := by
  induction fragments generalizing cache position with
  | nil => simp [compileFrom]
  | cons fragment rest ih =>
      cases kind : fragment.isPlaceholder with
      | false =>
          rw [compileFrom_of_not_placeholder kind, ih, List.findSome?_cons,
            Language.supplied?_of_not_placeholder kind]
      | true =>
          cases result : cache.compileOne language fragment with
          | ok compiled =>
              obtain ⟨free, accepted⟩ := compileOne_eq_ok_iff.mp result
              rw [compileFrom_of_compiled kind result, ih, List.findSome?_cons,
                Std.TreeMap.getElem?_insert]
              by_cases same : fragment.streamIndex = index
              · subst same
                simp [free, Language.supplied?_of_accepted kind accepted]
              · simp [same, Language.supplied?_of_ne same]
          | error cause =>
              rw [compileFrom_of_refused kind result, ih, List.findSome?_cons]
              cases present : cache[index]? with
              | some compiled => simp
              | none => rw [supplied?_of_free present result]

theorem getElem?_compile (language : Language ε) (fragments : List Fragment) (index : Nat) :
    ((∅ : Cache ε).compile language fragments).1[index]? =
      fragments.findSome? (language.supplied? index) := by
  rw [compile, getElem?_compileFrom]
  simp

/-- A placeholder compiles exactly if it is the one that supplies its index. -/
theorem compileOne_take_iff (found : fragments[position]? = some fragment)
    (placeholder : fragment.isPlaceholder = true) :
    ((∅ : Cache ε).compile language (fragments.take position)).1.compileOne language fragment =
        .ok compiled ↔
      language.Supplies fragments fragment.streamIndex position compiled := by
  rw [compileOne_eq_ok_iff, getElem?_compile, List.findSome?_eq_none_iff]
  constructor
  · rintro ⟨first, accepted⟩
    refine ⟨?_, first⟩
    rw [found, Option.bind_some, Language.supplied?_of_accepted placeholder accepted]
  · rintro ⟨present, first⟩
    refine ⟨first, ?_⟩
    rw [found, Option.bind_some] at present
    cases parsed : language.parse fragment.expression fragment with
    | ok accepted =>
        rw [Language.supplied?_of_accepted placeholder parsed, Option.some.injEq] at present
        rw [present]
    | error reason =>
        rw [Language.supplied?_of_refused parsed] at present
        contradiction

theorem no_error_outside {other : Nat} (cache : Cache ε)
    (outside : other < position ∨ position + fragments.length ≤ other) :
    (compileFrom language position cache fragments).2.filter (·.position = other) = [] := by
  rw [List.filter_eq_nil_iff]
  intro error member
  have low := position_le_of_mem member
  have high := position_lt_of_mem member
  simp only [decide_eq_true_eq]
  omega

/-- About a position there is the error of its placeholder, if that does not compile
with what the placeholders before have left in the cache, and no other error. -/
theorem errors_at (language : Language ε) (found : fragments[position]? = some fragment)
    (placeholder : fragment.isPlaceholder = true) :
    ((∅ : Cache ε).compile language fragments).2.filter (·.position = position) =
      match ((∅ : Cache ε).compile language (fragments.take position)).1.compileOne language
          fragment with
      | .ok _ => []
      | .error cause => [⟨fragment.expression, fragment.sourceOffset, position, cause⟩] := by
  have length : (fragments.take position).length = position := by
    have inside := (List.getElem?_eq_some_iff.mp found).1
    rw [List.length_take]
    omega
  have whole := compileFrom_append language 0 ∅ (fragments.take position)
    (fragment :: fragments.drop (position + 1))
  rw [← split_at_position found, length, Nat.zero_add, ← compile, ← compile] at whole
  have earlier : ((∅ : Cache ε).compile language (fragments.take position)).2.filter
      (·.position = position) = [] := no_error_outside ∅ (by omega)
  have later (cache : Cache ε) : (compileFrom language (position + 1) cache
      (fragments.drop (position + 1))).2.filter (·.position = position) = [] :=
    no_error_outside cache (by omega)
  rw [whole, List.filter_append, earlier, List.nil_append]
  cases result : ((∅ : Cache ε).compile language (fragments.take position)).1.compileOne language
      fragment with
  | ok compiled =>
      rw [compileFrom_of_compiled placeholder result]
      exact later _
  | error cause =>
      rw [compileFrom_of_refused placeholder result]
      simp [later]

theorem unreported_iff (language : Language ε) (found : fragments[position]? = some fragment)
    (placeholder : fragment.isPlaceholder = true) :
    (∀ error ∈ ((∅ : Cache ε).compile language fragments).2, error.position ≠ position) ↔
      ∃ compiled, language.Supplies fragments fragment.streamIndex position compiled := by
  have errors := errors_at language found placeholder
  have none_at : (∀ error ∈ ((∅ : Cache ε).compile language fragments).2,
      error.position ≠ position) ↔
      ((∅ : Cache ε).compile language fragments).2.filter (·.position = position) = [] := by
    simp [List.filter_eq_nil_iff]
  simp only [none_at, ← compileOne_take_iff found placeholder]
  rw [errors]
  split
  · rename_i compiled result
    simp [result]
  · rename_i cause result
    simp [result]

theorem error_at_of_unsupplied (found : fragments[position]? = some fragment)
    (placeholder : fragment.isPlaceholder = true)
    (unsupplied : ∀ compiled,
      ¬ language.Supplies fragments fragment.streamIndex position compiled) :
    ∃ cause, ((∅ : Cache ε).compile language fragments).2.filter (·.position = position) =
      [⟨fragment.expression, fragment.sourceOffset, position, cause⟩] := by
  rw [errors_at language found placeholder]
  split
  · rename_i compiled result
    exact absurd ((compileOne_take_iff found placeholder).mp result) (unsupplied compiled)
  · rename_i cause _
    exact ⟨cause, rfl⟩

end Cache

end Stencil
