import Stencil.Proofs.OnePass

namespace Stencil

namespace OnePass

section

variable {ε : Type} (language : Language ε) (options : Options) (nullPolicy : NullPolicy)
  (data : Value)

/-- The memory after some fragments. It depends neither on their position nor on the data. -/
def after (memory : Memory) (fragments : List Fragment) : Memory :=
  fragments.foldl
    (fun memory fragment => (step language options nullPolicy data 0 memory fragment).1) memory

end

variable {ε : Type} {language : Language ε} {options : Options} {nullPolicy : NullPolicy}
  {data : Value} {memory : Memory} {fragment : Fragment} {fragments : List Fragment}
  {position : Nat}

theorem step_fst (other : Value) (position : Nat) :
    (step language options nullPolicy data position memory fragment).1 =
      (step language options nullPolicy other 0 memory fragment).1 := by
  simp only [step]
  split
  · split
    · rfl
    · split <;> rfl
  · rfl

theorem after_of_data (other : Value) :
    after language options nullPolicy data memory fragments =
      after language options nullPolicy other memory fragments := by
  rw [after, after]
  congr 1
  funext memory fragment
  exact step_fst other 0

theorem formatting_step :
    (step language options nullPolicy data position memory fragment).1.formatting =
      (memory.observe options fragment).formatting := by
  simp only [step]
  split
  · split
    · rfl
    · split <;> rfl
  · rfl

theorem formatting_after (active : options.linebreaksActive = true) :
    (after language options nullPolicy data memory fragments).formatting =
      fragments.foldl RunFormatting.observe memory.formatting := by
  induction fragments generalizing memory with
  | nil => rfl
  | cons fragment rest ih =>
      have observed : (memory.observe options fragment).formatting =
          memory.formatting.observe fragment := by
        simp [Memory.observe, active]
      rw [after, List.foldl_cons, ← after, ih, formatting_step, observed, List.foldl_cons]

theorem getElem?_runFrom (language : Language ε) (options : Options) (nullPolicy : NullPolicy)
    (data : Value) (memory : Memory) (fragments : List Fragment) (position index : Nat) :
    (runFrom language options nullPolicy data position memory fragments)[index]? =
      fragments[index]?.map fun fragment =>
        (step language options nullPolicy data (position + index)
          (after language options nullPolicy data memory (fragments.take index)) fragment).2 := by
  induction fragments generalizing memory position index with
  | nil => simp [runFrom]
  | cons first rest ih =>
      cases index with
      | zero => simp [runFrom, after]
      | succ index =>
          simp only [runFrom, List.getElem?_cons_succ, List.take_succ_cons]
          rw [ih, step_fst data position, after, after, List.foldl_cons]
          simp only [Nat.add_assoc, Nat.add_comm 1 index]

theorem length_runFrom :
    (runFrom language options nullPolicy data position memory fragments).length =
      fragments.length := by
  induction fragments generalizing memory position with
  | nil => rfl
  | cons fragment rest ih => simp [runFrom, ih]

theorem getElem?_run (found : fragments[position]? = some fragment) :
    (run language options nullPolicy data fragments)[position]? =
      some (step language options nullPolicy data position
        (after language options nullPolicy data (.initial options) (fragments.take position))
        fragment).2 := by
  rw [run, getElem?_runFrom, found, Option.map_some, Nat.zero_add]

/-- A placeholder is refused, or else its expression is accepted and it is filled
unless it is claimed. -/
theorem entry_cases (language : Language ε) (options : Options) (nullPolicy : NullPolicy)
    (data : Value) (position : Nat) (memory : Memory)
    (placeholder : fragment.isPlaceholder = true) :
    (∃ cause, (step language options nullPolicy data position memory fragment).2 =
        .refused position fragment cause) ∨
      ∃ compiled, language.parse fragment.expression fragment = .ok compiled ∧
        (step language options nullPolicy data position memory fragment).2 =
          .ofOutcome
            (if fragment.isClaimed then .skipped
            else fill options nullPolicy (memory.observe options fragment).formatting.snapshot
              fragment (language.evaluate compiled data)) := by
  simp only [step, placeholder, if_true]
  split
  · exact .inl ⟨_, rfl⟩
  · split
    · exact .inl ⟨_, rfl⟩
    · rename_i compiled accepted
      exact .inr ⟨compiled, accepted, rfl⟩

theorem Entry.rendered_of_ofOutcome {outcome : Outcome} {result : Rendered}
    (output : (Entry.ofOutcome outcome).output = .rendered result) :
    outcome = .rendered result := by
  cases outcome with
  | skipped => cases output
  | failed error => cases output
  | rendered made => cases output; rfl

end OnePass

/-- The value of a placeholder: that of its expression on the data, or that of the
policy in place of nothing and null. -/
def Language.value? {ε : Type} (language : Language ε) (nullPolicy : NullPolicy) (data : Value)
    (fragment : Fragment) : Option Value :=
  match language.parse fragment.expression fragment with
  | .error _ => none
  | .ok compiled =>
      match language.evaluate compiled data with
      | .error _ => none
      | .ok resolved => some (nullPolicy.apply fragment resolved)

section

variable {ε : Type} {language : Language ε} {options : Options} {nullPolicy : NullPolicy}
  {data value : Value} {fragment : Fragment} {fragments : List Fragment} {position : Nat}
  {properties : String} {compiled : ε}

theorem fill_of_value (accepted : language.parse fragment.expression fragment = .ok compiled)
    (valued : language.value? nullPolicy data fragment = some value) :
    fill options nullPolicy properties fragment (language.evaluate compiled data) =
      match sanitize options fragment value with
      | .error error => .failed error
      | .ok sanitized => .rendered (.ofValue options properties sanitized) := by
  cases evaluated : language.evaluate compiled data with
  | error cause => simp [Language.value?, accepted, evaluated] at valued
  | ok resolved =>
      simp only [Language.value?, accepted, evaluated, Option.some.injEq] at valued
      subst valued
      rfl

theorem value_of_fill {result : Rendered}
    (accepted : language.parse fragment.expression fragment = .ok compiled)
    (filled : fill options nullPolicy properties fragment (language.evaluate compiled data) =
      .rendered result) :
    ∃ value, language.value? nullPolicy data fragment = some value := by
  cases evaluated : language.evaluate compiled data with
  | error cause => simp [fill, evaluated] at filled
  | ok resolved => simp [Language.value?, accepted, evaluated]

open OnePass

theorem output_at {output : Output}
    (present : (renderPart language options nullPolicy fragments data).outputs[position]? =
      some output) :
    ∃ fragment, fragments[position]? = some fragment ∧
      (step language options nullPolicy data position
        (after language options nullPolicy data (.initial options) (fragments.take position))
        fragment).2.output = output := by
  rw [renderPart_outputs, run, List.getElem?_map, getElem?_runFrom] at present
  cases found : fragments[position]? with
  | none => simp [found] at present
  | some fragment =>
      refine ⟨fragment, rfl, ?_⟩
      simpa [found] using present

theorem length_outputs (language : Language ε) (options : Options) (nullPolicy : NullPolicy)
    (fragments : List Fragment) (data : Value) :
    (renderPart language options nullPolicy fragments data).outputs.length = fragments.length := by
  rw [renderPart_outputs, run, List.length_map, length_runFrom]

/-- Only placeholders become something else than their text. -/
theorem output_kinds {output : Output}
    (present : (renderPart language options nullPolicy fragments data).outputs[position]? =
      some output) (found : fragments[position]? = some fragment) :
    (fragment.isPlaceholder = false ∧ output = .literal fragment.text) ∨
      (fragment.isPlaceholder = true ∧
        (output = .claimed ∨ output = .failed ∨ ∃ result, output = .rendered result)) := by
  obtain ⟨other, same, made⟩ := output_at present
  rw [found, Option.some.injEq] at same
  subst same
  cases kind : fragment.isPlaceholder with
  | false =>
      rw [step_of_not_placeholder kind] at made
      exact .inl ⟨rfl, made.symm⟩
  | true =>
      refine .inr ⟨rfl, ?_⟩
      rcases entry_cases language options nullPolicy data position _ kind with
        ⟨cause, refused⟩ | ⟨compiled, accepted, filled⟩
      · rw [refused] at made
        exact .inr (.inl made.symm)
      · rw [filled] at made
        subst made
        generalize (if fragment.isClaimed then _ else _ : Outcome) = outcome
        cases outcome with
        | skipped => exact .inl rfl
        | failed error => exact .inr (.inl rfl)
        | rendered result => exact .inr (.inr ⟨result, rfl⟩)

theorem output_cases {output : Output}
    (present : (renderPart language options nullPolicy fragments data).outputs[position]? =
      some output) (found : fragments[position]? = some fragment) :
    (fragment.isPlaceholder = false ∧ output = .literal fragment.text) ∨
      (fragment.isPlaceholder = true ∧
        (output.markup = "" ∨ ∃ result, output = .rendered result)) := by
  rcases output_kinds present found with other | ⟨placeholder, rfl | rfl | rendered⟩
  · exact .inl other
  · exact .inr ⟨placeholder, .inl rfl⟩
  · exact .inr ⟨placeholder, .inl rfl⟩
  · exact .inr ⟨placeholder, .inr rendered⟩

theorem rendered_at {result : Rendered}
    (present : (renderPart language options nullPolicy fragments data).outputs[position]? =
      some (.rendered result)) :
    ∃ fragment value sanitized, fragments[position]? = some fragment ∧
      fragment.isPlaceholder = true ∧ fragment.isClaimed = false ∧
      language.value? nullPolicy data fragment = some value ∧
      sanitize options fragment value = .ok sanitized ∧
      result = .ofValue options
        ((after language options nullPolicy data (.initial options)
          (fragments.take position)).observe options fragment).formatting.snapshot sanitized := by
  obtain ⟨fragment, found, output⟩ := output_at present
  cases kind : fragment.isPlaceholder with
  | false => simp [step_of_not_placeholder kind] at output
  | true =>
      rcases entry_cases language options nullPolicy data position _ kind with
        ⟨cause, refused⟩ | ⟨compiled, accepted, filled⟩
      · rw [refused] at output
        cases output
      · rw [filled] at output
        have outcome := Entry.rendered_of_ofOutcome output
        cases claimed : fragment.isClaimed with
        | true => simp [claimed] at outcome
        | false =>
            simp only [claimed, Bool.false_eq_true, if_false] at outcome
            obtain ⟨value, valued⟩ := value_of_fill accepted outcome
            rw [fill_of_value accepted valued] at outcome
            cases cleaned : sanitize options fragment value with
            | error error => simp [cleaned] at outcome
            | ok sanitized =>
                simp only [cleaned, Outcome.rendered.injEq] at outcome
                exact ⟨fragment, value, sanitized, found, kind, claimed, valued, cleaned,
                  outcome.symm⟩

theorem entry_of_value (options : Options) (placeholder : fragment.isPlaceholder = true)
    (unclaimed : fragment.isClaimed = false)
    (found : fragments[position]? = some fragment)
    (compiled : ∀ error ∈ (renderPart language options nullPolicy fragments data).compileErrors,
      error.position ≠ position)
    (valued : language.value? nullPolicy data fragment = some value) :
    ∃ properties, (run language options nullPolicy data fragments)[position]? =
      some (.ofOutcome
        (match sanitize options fragment value with
        | .error error => .failed error
        | .ok sanitized => .rendered (.ofValue options properties sanitized))) := by
  have entry := getElem?_runFrom language options nullPolicy data (.initial options) fragments
    0 position
  rw [found, Option.map_some, Nat.zero_add] at entry
  rcases entry_cases language options nullPolicy data position _ placeholder with
    ⟨cause, refused⟩ | ⟨expression, accepted, filled⟩
  · rw [refused] at entry
    rw [renderPart_compileErrors] at compiled
    have listed : (Entry.refused position fragment cause) ∈
        run language options nullPolicy data fragments := List.mem_of_getElem? entry
    exact absurd rfl (compiled
      ⟨fragment.expression, fragment.sourceOffset, position, cause⟩
      (List.mem_filterMap.mpr ⟨_, listed, rfl⟩))
  · rw [filled, unclaimed] at entry
    simp only [Bool.false_eq_true, if_false, fill_of_value accepted valued] at entry
    exact ⟨_, entry⟩

end

end Stencil
