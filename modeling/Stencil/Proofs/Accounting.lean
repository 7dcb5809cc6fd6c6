import Stencil.Proofs.Failures

namespace Stencil

/-- The error is one of compiling the placeholder at its position. -/
def CompileError.IsAbout (fragments : List Fragment) (error : CompileError) : Prop :=
  ∃ fragment, fragments[error.position]? = some fragment ∧ fragment.isPlaceholder = true ∧
    error.expression = fragment.expression ∧ error.offset = fragment.sourceOffset

structure Report.Accounts (fragments : List Fragment) (report : Report) : Prop where
  length : report.outputs.length = fragments.length
  /-- The fragments that are no placeholders, and no others, keep their own text. -/
  literal : ∀ (position : Nat) (text : String),
    report.outputs[position]? = some (.literal text) ↔
      ∃ fragment, fragments[position]? = some fragment ∧ fragment.isPlaceholder = false ∧
        fragment.text = text
  ascending : (report.compileErrors.map CompileError.position).Pairwise (· < ·)
  compile : ∀ error ∈ report.compileErrors,
    error.IsAbout fragments ∧ report.outputs[error.position]? = some .failed
  /-- The other failed outputs belong to the render errors, one by one and in order. -/
  render : List.Forall₂ (fun position error => error.IsAbout fragments position)
    report.renderFailures report.renderErrors
  total : report.outputs.countP Output.isFailed =
    report.compileErrors.length + report.renderErrors.length
  success : report.isSuccess = true ↔ ∀ output ∈ report.outputs, output ≠ .failed

variable {ε : Type} {language : Language ε} {options : Options} {nullPolicy : NullPolicy}
  {data : Value} {fragments : List Fragment} {fragment : Fragment} {position : Nat}

theorem Output.isFailed_iff {output : Output} : output.isFailed = true ↔ output = .failed := by
  cases output <;> simp [isFailed]

namespace OnePass

theorem compileError_of_run {entry : Entry} {error : CompileError}
    (listed : (run language options nullPolicy data fragments)[position]? = some entry)
    (reported : entry.compileError? = some error) :
    error.position = position ∧ error.IsAbout fragments ∧ entry.output = .failed := by
  cases found : fragments[position]? with
  | none =>
      rw [run, getElem?_runFrom, found] at listed
      contradiction
  | some fragment =>
      rw [getElem?_run found, Option.some.injEq] at listed
      subst listed
      cases kind : fragment.isPlaceholder with
      | false =>
          rw [step_of_not_placeholder kind] at reported
          contradiction
      | true =>
          rcases entry_cases language options nullPolicy data position _ kind with
            ⟨cause, refused⟩ | ⟨compiled, _, filled⟩
          · rw [refused] at reported ⊢
            cases reported
            exact ⟨rfl, ⟨fragment, found, kind, rfl, rfl⟩, rfl⟩
          · rw [filled, Entry.compileError?_ofOutcome] at reported
            contradiction

/-- An entry that failed has one error, and one that did not has none. -/
theorem failed_once (language : Language ε) (options : Options) (nullPolicy : NullPolicy)
    (data : Value) (position : Nat) (memory : Memory) (fragment : Fragment) :
    let entry := (step language options nullPolicy data position memory fragment).2
    (if entry.output.isFailed then 1 else 0) =
      (if entry.compileError?.isSome then 1 else 0) +
        (if entry.renderError?.isSome then 1 else 0) := by
  intro entry
  cases kind : fragment.isPlaceholder with
  | false =>
      have kept : entry = { output := .literal fragment.text } := by
        simp only [entry, step_of_not_placeholder kind]
      rw [kept]
      rfl
  | true =>
      rcases entry_cases language options nullPolicy data position memory kind with
        ⟨cause, refused⟩ | ⟨compiled, _, filled⟩
      · simp only [entry, refused]
        rfl
      · simp only [entry, filled, Entry.isFailed_ofOutcome, Entry.compileError?_ofOutcome]
        simp

theorem countP_isFailed (language : Language ε) (options : Options) (nullPolicy : NullPolicy)
    (data : Value) (position : Nat) (memory : Memory) (fragments : List Fragment) :
    let entries := runFrom language options nullPolicy data position memory fragments
    entries.countP (·.output.isFailed) =
      (entries.filterMap Entry.compileError?).length +
        (entries.filterMap Entry.renderError?).length := by
  simp only [List.length_filterMap_eq_countP]
  induction fragments generalizing position memory with
  | nil => rfl
  | cons fragment rest ih =>
      have once := failed_once language options nullPolicy data position memory fragment
      simp only [runFrom, List.countP_cons, ih]
      omega

end OnePass

open OnePass

theorem literal_iff (language : Language ε) (options : Options) (nullPolicy : NullPolicy)
    (fragments : List Fragment) (data : Value) (position : Nat) (text : String) :
    (renderPart language options nullPolicy fragments data).outputs[position]? =
        some (.literal text) ↔
      ∃ fragment, fragments[position]? = some fragment ∧ fragment.isPlaceholder = false ∧
        fragment.text = text := by
  constructor
  · intro present
    obtain ⟨fragment, found, _⟩ := output_at present
    rcases output_kinds present found with ⟨other, same⟩ | ⟨_, claimed | failed | ⟨_, rendered⟩⟩
    · cases same
      exact ⟨fragment, found, other, rfl⟩
    · cases claimed
    · cases failed
    · cases rendered
  · rintro ⟨fragment, found, other, rfl⟩
    rw [renderPart_outputs, List.getElem?_map, getElem?_run found, step_of_not_placeholder other]
    rfl

theorem compileError_about {error : CompileError}
    (listed : error ∈
      (renderPart language options nullPolicy fragments data).compileErrors) :
    error.IsAbout fragments ∧
      (renderPart language options nullPolicy fragments data).outputs[error.position]? =
        some .failed := by
  rw [renderPart_compileErrors] at listed
  obtain ⟨entry, member, reported⟩ := List.mem_filterMap.mp listed
  obtain ⟨position, present⟩ := List.mem_iff_getElem?.mp member
  obtain ⟨rfl, about, failed⟩ := compileError_of_run present reported
  refine ⟨about, ?_⟩
  rw [renderPart_outputs, List.getElem?_map, present, Option.map_some, failed]

theorem countP_failed (language : Language ε) (options : Options) (nullPolicy : NullPolicy)
    (fragments : List Fragment) (data : Value) :
    let report := renderPart language options nullPolicy fragments data
    report.outputs.countP Output.isFailed =
      report.compileErrors.length + report.renderErrors.length := by
  intro report
  rw [renderPart_outputs, renderPart_compileErrors, renderPart_renderErrors, List.countP_map]
  exact countP_isFailed language options nullPolicy data 0 (.initial options) fragments

theorem isSuccess_iff (report : Report)
    (total : report.outputs.countP Output.isFailed =
      report.compileErrors.length + report.renderErrors.length) :
    report.isSuccess = true ↔ ∀ output ∈ report.outputs, output ≠ .failed := by
  calc report.isSuccess = true
      ↔ report.compileErrors.length + report.renderErrors.length = 0 := by
        simp [Report.isSuccess]
    _ ↔ ∀ output ∈ report.outputs, ¬ output.isFailed = true := by
        rw [← total, List.countP_eq_zero]
    _ ↔ ∀ output ∈ report.outputs, output ≠ .failed := by
        simp only [Output.isFailed_iff, ne_eq]

/-- A report accounts for all failures of its part, whatever mixture of faulty
expressions, colliding stream indices, claimed placeholders and refused values it has. -/
theorem renderPart_accounts (language : Language ε) (options : Options)
    (nullPolicy : NullPolicy) (fragments : List Fragment) (data : Value) :
    (renderPart language options nullPolicy fragments data).Accounts fragments where
  length := length_outputs language options nullPolicy fragments data
  literal := literal_iff language options nullPolicy fragments data
  ascending := Cache.positions_ascending language 0 ∅ fragments
  compile := fun _ listed => compileError_about listed
  render := renderErrors_about_renderFailures language options nullPolicy fragments data
  total := countP_failed language options nullPolicy fragments data
  success := isSuccess_iff _ (countP_failed language options nullPolicy fragments data)

end Stencil
