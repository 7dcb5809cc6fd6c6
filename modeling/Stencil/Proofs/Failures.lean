import Mathlib.Data.List.Forall2
import Stencil.Proofs.Outputs
import Stencil.Proofs.Suppliers

namespace Stencil

def Output.isFailed : Output → Bool
  | .failed => true
  | _ => false

/-- The positions of the failed outputs that no compile error names. -/
def Report.renderFailures (report : Report) : List Nat :=
  report.outputs.zipIdx.filterMap fun (output, position) =>
    if output.isFailed && !report.compileErrors.any (·.position == position) then some position
    else none

/-- The error is one of rendering the fragment at the position, which is an unclaimed
placeholder. -/
def RenderError.IsAbout (fragments : List Fragment) (position : Nat) (error : RenderError) :
    Prop :=
  ∃ fragment, fragments[position]? = some fragment ∧ fragment.isPlaceholder = true ∧
    fragment.isClaimed = false ∧ error.expression = fragment.expression ∧
      error.offset = fragment.sourceOffset

variable {ε : Type} {language : Language ε} {options : Options} {nullPolicy : NullPolicy}
  {data : Value} {fragments : List Fragment} {fragment : Fragment} {position : Nat}
  {compiled : ε}

theorem about_of_fill {properties : String} {resolved : Except Cause (Option Value)}
    {error : RenderError}
    (failed : fill options nullPolicy properties fragment resolved = .failed error) :
    error.expression = fragment.expression ∧ error.offset = fragment.sourceOffset := by
  cases resolved with
  | error cause =>
      simp only [fill, Outcome.failed.injEq] at failed
      subst failed
      exact ⟨rfl, rfl⟩
  | ok value =>
      simp only [fill] at failed
      split at failed
      · rename_i refusal refused
        cases failed
        unfold sanitize at refused
        split at refused
        · split at refused
          · contradiction
          · split at refused
            · cases refused
              exact ⟨rfl, rfl⟩
            · contradiction
        · contradiction
      · contradiction

namespace OnePass

theorem agrees_after (language : Language ε) (options : Options) (nullPolicy : NullPolicy)
    (data : Value) {memory : Memory} {cache : Cache ε} (agrees : Agrees memory cache)
    (position : Nat) (fragments : List Fragment) :
    Agrees (after language options nullPolicy data memory fragments)
      (Cache.compileFrom language position cache fragments).1 := by
  induction fragments generalizing memory cache position with
  | nil => exact agrees
  | cons fragment rest ih =>
      have observed := agrees.observe options fragment
      rw [after, List.foldl_cons, ← after]
      cases kind : fragment.isPlaceholder with
      | false =>
          rw [Cache.compileFrom_of_not_placeholder kind, step_of_not_placeholder kind]
          exact ih observed _
      | true =>
          cases result : cache.compileOne language fragment with
          | ok compiled =>
              rw [Cache.compileFrom_of_compiled kind result, step_of_compiled agrees kind result]
              exact ih (observed.insert fragment.streamIndex compiled) _
          | error cause =>
              rw [Cache.compileFrom_of_refused kind result, step_of_refused agrees kind result]
              exact ih observed _

/-- A placeholder that supplies its stream index is left alone or filled. -/
theorem entry_of_supplies (options : Options) (nullPolicy : NullPolicy) (data : Value)
    (found : fragments[position]? = some fragment)
    (placeholder : fragment.isPlaceholder = true)
    (supplies : language.Supplies fragments fragment.streamIndex position compiled) :
    (run language options nullPolicy data fragments)[position]? =
      some (.ofOutcome
        (if fragment.isClaimed then .skipped
        else fill options nullPolicy
          ((after language options nullPolicy data (.initial options)
            (fragments.take position)).observe options fragment).formatting.snapshot
          fragment (language.evaluate compiled data))) := by
  have accepted := (Cache.compileOne_take_iff found placeholder).mpr supplies
  have agrees := agrees_after language options nullPolicy data (agrees_initial options) 0
    (fragments.take position)
  rw [getElem?_run found, step_of_compiled agrees placeholder accepted]

theorem entry_of_unsupplied (options : Options) (nullPolicy : NullPolicy) (data : Value)
    (found : fragments[position]? = some fragment)
    (placeholder : fragment.isPlaceholder = true)
    (unsupplied : ∀ compiled,
      ¬ language.Supplies fragments fragment.streamIndex position compiled) :
    ∃ cause, (run language options nullPolicy data fragments)[position]? =
      some (.refused position fragment cause) := by
  have agrees := agrees_after language options nullPolicy data (agrees_initial options) 0
    (fragments.take position)
  cases result : ((∅ : Cache ε).compile language (fragments.take position)).1.compileOne language
      fragment with
  | ok compiled =>
      exact absurd ((Cache.compileOne_take_iff found placeholder).mp result) (unsupplied compiled)
  | error cause =>
      exact ⟨cause, by rw [getElem?_run found, step_of_refused agrees placeholder result]⟩

end OnePass

open OnePass

theorem named_iff_unsupplied (language : Language ε) (options : Options)
    (nullPolicy : NullPolicy) (data : Value) (found : fragments[position]? = some fragment)
    (placeholder : fragment.isPlaceholder = true) :
    (renderPart language options nullPolicy fragments data).compileErrors.any
        (·.position == position) = true ↔
      ∀ compiled, ¬ language.Supplies fragments fragment.streamIndex position compiled := by
  have unreported := Cache.unreported_iff language found placeholder
  rw [← not_exists, ← unreported, List.any_eq_true]
  simp only [beq_iff_eq, not_forall, not_not, exists_prop]
  rfl

@[simp] theorem OnePass.Entry.isFailed_ofOutcome (outcome : Outcome) :
    (Entry.ofOutcome outcome).output.isFailed = (Entry.ofOutcome outcome).renderError?.isSome := by
  cases outcome <;> rfl

theorem about_of_entry {properties : String} {error : RenderError}
    (found : fragments[position]? = some fragment) (placeholder : fragment.isPlaceholder = true)
    (failed : (Entry.ofOutcome
      (if fragment.isClaimed then .skipped
      else fill options nullPolicy properties fragment
        (language.evaluate compiled data))).renderError? = some error) :
    error.IsAbout fragments position := by
  cases claimed : fragment.isClaimed with
  | true =>
      rw [claimed] at failed
      contradiction
  | false =>
      simp only [claimed, Bool.false_eq_true, if_false] at failed
      cases filled : fill options nullPolicy properties fragment
          (language.evaluate compiled data) with
      | skipped | rendered _ =>
          rw [filled] at failed
          contradiction
      | failed other =>
          rw [filled] at failed
          cases failed
          exact ⟨fragment, found, placeholder, claimed, about_of_fill filled⟩

/-- What the entry of a fragment says of its failure is what the report says of its
position. -/
theorem entry_failure {entry : Entry}
    (listed : (run language options nullPolicy data fragments)[position]? = some entry) :
    (entry.output.isFailed &&
        !(renderPart language options nullPolicy fragments data).compileErrors.any
          (·.position == position)) = entry.renderError?.isSome ∧
      ∀ error, entry.renderError? = some error → error.IsAbout fragments position := by
  cases found : fragments[position]? with
  | none =>
      rw [run, getElem?_runFrom, found] at listed
      contradiction
  | some fragment =>
      cases kind : fragment.isPlaceholder with
      | false =>
          rw [getElem?_run found, step_of_not_placeholder kind, Option.some.injEq] at listed
          subst listed
          exact ⟨rfl, by simp⟩
      | true =>
          have named := named_iff_unsupplied language options nullPolicy data found kind
          by_cases supplied : ∃ compiled,
              language.Supplies fragments fragment.streamIndex position compiled
          · have unnamed := mt named.mp (not_forall_not.mpr supplied)
            obtain ⟨compiled, supplies⟩ := supplied
            rw [entry_of_supplies options nullPolicy data found kind supplies,
              Option.some.injEq] at listed
            subst listed
            refine ⟨?_, fun error failed => about_of_entry found kind failed⟩
            simp only [Entry.isFailed_ofOutcome, unnamed, Bool.not_false, Bool.and_true]
          · have unsupplied := not_exists.mp supplied
            obtain ⟨cause, refused⟩ :=
              entry_of_unsupplied options nullPolicy data found kind unsupplied
            rw [refused, Option.some.injEq] at listed
            subst listed
            rw [named.mpr unsupplied, Bool.not_true, Bool.and_false]
            exact ⟨rfl, by simp [Entry.refused]⟩

theorem filterMap_comp_fst_zipIdx {α β : Type} (items : List α) (result? : α → Option β) :
    items.zipIdx.filterMap (result? ∘ Prod.fst) = items.filterMap result? := by
  rw [← List.filterMap_map, List.zipIdx_map_fst]

/-- The render errors of a pass, each with the position of the entry that has it. -/
def OnePass.placedErrors (entries : List Entry) : List (Nat × RenderError) :=
  entries.zipIdx.filterMap fun (entry, position) => entry.renderError?.map (position, ·)

theorem OnePass.mem_placedErrors_iff {entries : List Entry} {error : RenderError} :
    (position, error) ∈ placedErrors entries ↔
      ∃ entry, entries[position]? = some entry ∧ entry.renderError? = some error := by
  simp only [placedErrors, List.mem_filterMap, List.mem_zipIdx_iff_getElem?,
    Option.map_eq_some_iff, Prod.exists, Prod.mk.injEq]
  constructor
  · rintro ⟨entry, place, present, other, failed, rfl, rfl⟩
    exact ⟨entry, present, failed⟩
  · rintro ⟨entry, present, failed⟩
    exact ⟨entry, position, present, error, failed, rfl, rfl⟩

theorem renderFailures_eq (language : Language ε) (options : Options) (nullPolicy : NullPolicy)
    (fragments : List Fragment) (data : Value) :
    (renderPart language options nullPolicy fragments data).renderFailures =
      (placedErrors (run language options nullPolicy data fragments)).map Prod.fst := by
  rw [Report.renderFailures, renderPart_outputs, List.zipIdx_map, List.filterMap_map,
    placedErrors, List.map_filterMap]
  refine List.filterMap_congr ?_
  rintro ⟨entry, position⟩ member
  obtain ⟨agree, _⟩ := entry_failure (List.mem_zipIdx_iff_getElem?.mp member)
  simp only [Function.comp_apply, Prod.map_apply, id_eq, agree]
  cases entry.renderError? <;> rfl

theorem renderErrors_eq (language : Language ε) (options : Options) (nullPolicy : NullPolicy)
    (fragments : List Fragment) (data : Value) :
    (renderPart language options nullPolicy fragments data).renderErrors =
      (placedErrors (run language options nullPolicy data fragments)).map Prod.snd := by
  rw [renderPart_renderErrors, ← filterMap_comp_fst_zipIdx, placedErrors, List.map_filterMap]
  refine List.filterMap_congr ?_
  rintro ⟨entry, position⟩ _
  simp only [Function.comp_apply]
  cases entry.renderError? <;> rfl

theorem isAbout_of_placed {error : RenderError}
    (placed : (position, error) ∈ placedErrors (run language options nullPolicy data fragments)) :
    error.IsAbout fragments position := by
  obtain ⟨entry, present, failed⟩ := mem_placedErrors_iff.mp placed
  exact (entry_failure present).2 error failed

/-- The failed outputs that no compile error names are those of the render errors, one
by one and in the same order. -/
theorem renderErrors_about_renderFailures (language : Language ε) (options : Options)
    (nullPolicy : NullPolicy) (fragments : List Fragment) (data : Value) :
    List.Forall₂ (fun position error => error.IsAbout fragments position)
      (renderPart language options nullPolicy fragments data).renderFailures
      (renderPart language options nullPolicy fragments data).renderErrors := by
  rw [renderFailures_eq, renderErrors_eq, List.forall₂_map_left_iff, List.forall₂_map_right_iff,
    List.forall₂_same]
  exact fun _ placed => isAbout_of_placed placed

end Stencil
