import Stencil.Compilation

namespace Stencil.Cache

variable {ε : Type} {language : Language ε} {cache : Cache ε} {fragment : Fragment}
  {fragments rest : List Fragment} {position index : Nat} {compiled : ε} {cause : Cause}

theorem compileFrom_of_not_placeholder (other : fragment.isPlaceholder = false) :
    compileFrom language position cache (fragment :: rest) =
      compileFrom language (position + 1) cache rest := by
  simp [compileFrom, other]

theorem compileFrom_of_compiled (placeholder : fragment.isPlaceholder = true)
    (accepted : cache.compileOne language fragment = .ok compiled) :
    compileFrom language position cache (fragment :: rest) =
      compileFrom language (position + 1) (cache.insert fragment.streamIndex compiled) rest := by
  simp [compileFrom, placeholder, accepted]

theorem compileFrom_of_refused (placeholder : fragment.isPlaceholder = true)
    (refused : cache.compileOne language fragment = .error cause) :
    compileFrom language position cache (fragment :: rest) =
      ((compileFrom language (position + 1) cache rest).1,
        ⟨fragment.expression, fragment.sourceOffset, position, cause⟩ ::
          (compileFrom language (position + 1) cache rest).2) := by
  simp [compileFrom, placeholder, refused]

theorem absent_of_compiled (accepted : cache.compileOne language fragment = .ok compiled) :
    cache[fragment.streamIndex]? = none := by
  unfold compileOne at accepted
  split at accepted
  · contradiction
  · rename_i free
    rw [Std.TreeMap.contains_eq_isSome_getElem?] at free
    simpa using free

theorem getElem?_insert_of_present (free : cache[fragment.streamIndex]? = none)
    (present : cache[index]? = some compiled) (other : ε) :
    (cache.insert fragment.streamIndex other)[index]? = some compiled := by
  rw [Std.TreeMap.getElem?_insert]
  have different : fragment.streamIndex ≠ index := by
    rintro rfl
    simp [free] at present
  simp [different, present]

/-- No entry is changed or removed by compiling more placeholders. -/
theorem compileFrom_keeps (present : cache[index]? = some compiled) :
    (compileFrom language position cache fragments).1[index]? = some compiled := by
  induction fragments generalizing cache position with
  | nil => simpa only [compileFrom] using present
  | cons fragment rest ih =>
      cases kind : fragment.isPlaceholder with
      | false =>
          rw [compileFrom_of_not_placeholder kind]
          exact ih present
      | true =>
          cases result : cache.compileOne language fragment with
          | ok added =>
              rw [compileFrom_of_compiled kind result]
              exact ih (getElem?_insert_of_present (absent_of_compiled result) present added)
          | error cause =>
              rw [compileFrom_of_refused kind result]
              exact ih present

theorem position_le_of_mem {error : CompileError}
    (member : error ∈ (compileFrom language position cache fragments).2) :
    position ≤ error.position := by
  induction fragments generalizing cache position with
  | nil => simp [compileFrom] at member
  | cons fragment rest ih =>
      cases kind : fragment.isPlaceholder with
      | false =>
          rw [compileFrom_of_not_placeholder kind] at member
          have later := ih member
          omega
      | true =>
          cases result : cache.compileOne language fragment with
          | ok added =>
              rw [compileFrom_of_compiled kind result] at member
              have later := ih member
              omega
          | error cause =>
              rw [compileFrom_of_refused kind result] at member
              rcases List.mem_cons.mp member with rfl | member
              · exact Nat.le_refl _
              · have later := ih member
                omega

theorem position_lt_of_mem {error : CompileError}
    (member : error ∈ (compileFrom language position cache fragments).2) :
    error.position < position + fragments.length := by
  induction fragments generalizing cache position with
  | nil => simp [compileFrom] at member
  | cons fragment rest ih =>
      rw [List.length_cons]
      cases kind : fragment.isPlaceholder with
      | false =>
          rw [compileFrom_of_not_placeholder kind] at member
          have earlier := ih member
          omega
      | true =>
          cases result : cache.compileOne language fragment with
          | ok added =>
              rw [compileFrom_of_compiled kind result] at member
              have earlier := ih member
              omega
          | error cause =>
              rw [compileFrom_of_refused kind result] at member
              rcases List.mem_cons.mp member with rfl | member
              · simp
              · have earlier := ih member
                omega

theorem positions_ascending (language : Language ε) (position : Nat) (cache : Cache ε)
    (fragments : List Fragment) :
    ((compileFrom language position cache fragments).2.map CompileError.position).Pairwise
      (· < ·) := by
  induction fragments generalizing cache position with
  | nil => exact .nil
  | cons fragment rest ih =>
      cases kind : fragment.isPlaceholder with
      | false =>
          rw [compileFrom_of_not_placeholder kind]
          exact ih _ _
      | true =>
          cases result : cache.compileOne language fragment with
          | ok added =>
              rw [compileFrom_of_compiled kind result]
              exact ih _ _
          | error cause =>
              rw [compileFrom_of_refused kind result, List.map_cons]
              refine .cons ?_ (ih _ _)
              intro later listed
              obtain ⟨error, member, rfl⟩ := List.mem_map.mp listed
              exact position_le_of_mem member

/-- The placeholders of a second list find in the cache what those of the first have
left there. -/
theorem compileFrom_append (language : Language ε) (position : Nat) (cache : Cache ε)
    (first second : List Fragment) :
    compileFrom language position cache (first ++ second) =
      ((compileFrom language (position + first.length)
          (compileFrom language position cache first).1 second).1,
        (compileFrom language position cache first).2 ++
          (compileFrom language (position + first.length)
            (compileFrom language position cache first).1 second).2) := by
  induction first generalizing cache position with
  | nil => rfl
  | cons fragment rest ih =>
      have next : position + (fragment :: rest).length = position + 1 + rest.length := by
        rw [List.length_cons]
        omega
      rw [List.cons_append, next]
      cases kind : fragment.isPlaceholder with
      | false =>
          rw [compileFrom_of_not_placeholder kind, compileFrom_of_not_placeholder kind, ih]
      | true =>
          cases result : cache.compileOne language fragment with
          | ok added =>
              rw [compileFrom_of_compiled kind result, compileFrom_of_compiled kind result, ih]
          | error cause =>
              rw [compileFrom_of_refused kind result, compileFrom_of_refused kind result, ih,
                List.cons_append]

end Stencil.Cache
