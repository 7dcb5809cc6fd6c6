import Stencil.Proofs.Outputs
import Stencil.Proofs.Suppliers

namespace Stencil

/-- The error in a part where so many fragments stand before. -/
def CompileError.shift (distance : Nat) (error : CompileError) : CompileError :=
  { error with position := distance + error.position }

namespace OnePass

def Entry.shift (distance : Nat) (entry : Entry) : Entry :=
  { entry with compileError? := entry.compileError?.map (·.shift distance) }

@[simp] theorem Entry.shift_zero (entry : Entry) : entry.shift 0 = entry := by
  obtain ⟨output, compileError?, renderError?⟩ := entry
  cases compileError? <;> simp [shift, CompileError.shift]

@[simp] theorem Entry.shift_ofOutcome (distance : Nat) (outcome : Outcome) :
    (Entry.ofOutcome outcome).shift distance = .ofOutcome outcome := by
  cases outcome <;> rfl

section

variable {ε : Type} (language : Language ε) (options : Options) (nullPolicy : NullPolicy)
  (data : Value)

theorem runFrom_cons (position : Nat) (memory : Memory) (fragment : Fragment)
    (rest : List Fragment) :
    runFrom language options nullPolicy data position memory (fragment :: rest) =
      (step language options nullPolicy data position memory fragment).2 ::
        runFrom language options nullPolicy data (position + 1)
          (step language options nullPolicy data position memory fragment).1 rest := rfl

theorem runFrom_append (position : Nat) (memory : Memory) (first second : List Fragment) :
    runFrom language options nullPolicy data position memory (first ++ second) =
      runFrom language options nullPolicy data position memory first ++
        runFrom language options nullPolicy data (position + first.length)
          (after language options nullPolicy data memory first) second := by
  induction first generalizing position memory with
  | nil => rfl
  | cons fragment rest ih =>
      have next : position + (fragment :: rest).length = position + 1 + rest.length := by
        rw [List.length_cons]
        omega
      rw [List.cons_append, runFrom_cons, runFrom_cons, ih, next, after, after,
        List.foldl_cons, step_fst data position, List.cons_append]

theorem run_append (first second : List Fragment) :
    run language options nullPolicy data (first ++ second) =
      run language options nullPolicy data first ++
        runFrom language options nullPolicy data first.length
          (after language options nullPolicy data (.initial options) first) second := by
  rw [run, runFrom_append, Nat.zero_add, ← run]

end

variable {ε : Type} {language : Language ε} {options : Options} {nullPolicy : NullPolicy}
  {data : Value} {memory one other : Memory} {fragment : Fragment}
  {fragments rest : List Fragment} {position index : Nat}

theorem Memory.formatting_observe (memory : Memory) (options : Options) (fragment : Fragment) :
    (memory.observe options fragment).formatting =
      if options.linebreaksActive then memory.formatting.observe fragment
      else memory.formatting := by
  unfold Memory.observe
  split <;> rfl

/-- One fragment takes its index if it is a placeholder whose expression is accepted,
whether it is the first to do so or not. -/
theorem mem_taken_step :
    index ∈ (step language options nullPolicy data position memory fragment).1.taken ↔
      index ∈ memory.taken ∨ (language.supplied? index fragment).isSome = true := by
  cases kind : fragment.isPlaceholder with
  | false =>
      rw [step_of_not_placeholder kind, Memory.taken_observe,
        Language.supplied?_of_not_placeholder kind]
      simp
  | true =>
      simp only [step, kind, if_true, Memory.taken_observe]
      by_cases same : fragment.streamIndex = index
      · subst same
        split
        · rename_i taken
          simp [Memory.taken_observe, taken]
        · cases parsed : language.parse fragment.expression fragment with
          | ok compiled => simp [Language.supplied?_of_accepted kind parsed]
          | error cause => simp [Memory.taken_observe, Language.supplied?_of_refused parsed]
      · rw [Language.supplied?_of_ne same]
        have different : index ≠ fragment.streamIndex := fun equal => same equal.symm
        split
        · simp [Memory.taken_observe]
        · cases language.parse fragment.expression fragment with
          | ok compiled => simp [different]
          | error cause => simp [Memory.taken_observe]

theorem mem_taken_after :
    index ∈ (after language options nullPolicy data memory fragments).taken ↔
      index ∈ memory.taken ∨
        ∃ fragment ∈ fragments, (language.supplied? index fragment).isSome = true := by
  induction fragments generalizing memory with
  | nil => simp [after]
  | cons fragment rest ih =>
      rw [after, List.foldl_cons, ← after, ih, mem_taken_step]
      simp [or_assoc]

/-- The memories do not differ in what the fragments look at: in the indices of their
placeholders, and in the formatting once the first of them has been seen. -/
structure Memory.AgreeOn (options : Options) (fragments : List Fragment)
    (one other : Memory) : Prop where
  taken : ∀ fragment ∈ fragments, fragment.isPlaceholder = true →
    (fragment.streamIndex ∈ one.taken ↔ fragment.streamIndex ∈ other.taken)
  formatting : ∀ fragment ∈ fragments.head?,
    (one.observe options fragment).formatting = (other.observe options fragment).formatting

theorem Memory.AgreeOn.step (agree : Memory.AgreeOn options (fragment :: rest) one other)
    (position following : Nat) :
    Memory.AgreeOn options rest
      (step language options nullPolicy data position one fragment).1
      (step language options nullPolicy data following other fragment).1 where
  taken := by
    intro later member placeholder
    rw [mem_taken_step, mem_taken_step, agree.taken later (by simp [member]) placeholder]
  formatting := by
    intro next _
    rw [formatting_observe, formatting_observe, formatting_step, formatting_step,
      agree.formatting fragment rfl]

theorem entry_of_agreeOn (agree : Memory.AgreeOn options (fragment :: rest) one other)
    (distance position : Nat) :
    (step language options nullPolicy data (distance + position) one fragment).2 =
      (step language options nullPolicy data position other fragment).2.shift distance := by
  have formatting := agree.formatting fragment rfl
  cases kind : fragment.isPlaceholder with
  | false => rw [step_of_not_placeholder kind, step_of_not_placeholder kind]; rfl
  | true =>
      have taken := agree.taken fragment (by simp) kind
      simp only [OnePass.step, kind, if_true, Memory.taken_observe, taken]
      split
      · rfl
      · cases language.parse fragment.expression fragment with
        | error cause => rfl
        | ok compiled => rw [Entry.shift_ofOutcome, formatting]

/-- The rest of a part gets the same entries after memories that agree on it, with the
positions counted from where it begins. -/
theorem runFrom_of_agreeOn (agree : Memory.AgreeOn options fragments one other)
    (distance position : Nat) :
    runFrom language options nullPolicy data (distance + position) one fragments =
      (runFrom language options nullPolicy data position other fragments).map
        (·.shift distance) := by
  induction fragments generalizing position one other with
  | nil => rfl
  | cons fragment rest ih =>
      rw [runFrom_cons, runFrom_cons, List.map_cons, entry_of_agreeOn agree, Nat.add_assoc,
        ih (agree.step (distance + position) position)]

theorem runFrom_congr (agree : Memory.AgreeOn options fragments one other) (position : Nat) :
    runFrom language options nullPolicy data position one fragments =
      runFrom language options nullPolicy data position other fragments := by
  have shifted : runFrom language options nullPolicy data (0 + position) one fragments = _ :=
    runFrom_of_agreeOn agree 0 position
  simpa only [Nat.zero_add, Entry.shift_zero, List.map_id'] using shifted

end OnePass

end Stencil
