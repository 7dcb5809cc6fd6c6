import Stencil.Proofs.Accounting
import Stencil.Proofs.Continuation
import Stencil.Proofs.RunFormatting

namespace Stencil

section

variable {α β : Type}

theorem filter_zipIdx_set (items : List α) (position start : Nat) (item : α) :
    ((items.set position item).zipIdx start).filter (·.2 ≠ start + position) =
      (items.zipIdx start).filter (·.2 ≠ start + position) := by
  induction items generalizing position start with
  | nil => rfl
  | cons first rest ih =>
      cases position with
      | zero => simp
      | succ position =>
          have tail := ih position (start + 1)
          rw [Nat.add_assoc, Nat.add_comm 1 position] at tail
          simp only [List.set_cons_succ, List.zipIdx_cons, List.filter_cons, tail]

/-- Where results know their places, those of one place are removed by removing the
item at this place. -/
theorem filter_filterMap_zipIdx {items : List (α × Nat)} {result? : α × Nat → Option β}
    {place : β → Nat}
    (placed : ∀ item ∈ items, ∀ result, result? item = some result → place result = item.2)
    (position : Nat) :
    (items.filterMap result?).filter (place · ≠ position) =
      (items.filter (·.2 ≠ position)).filterMap result? := by
  rw [List.filter_filterMap, List.filterMap_filter]
  refine List.filterMap_congr fun item member => ?_
  cases found : result? item with
  | none => simp
  | some result =>
      have same := placed item member result found
      simp [Option.filter, same]

end

/-- The render errors, each with the position of the output that failed with it. -/
def Report.placedRenderErrors (report : Report) : List (Nat × RenderError) :=
  report.renderFailures.zip report.renderErrors

/-- The fragments stand for the same markup. All else about them may differ. -/
structure Fragment.SameMarkup (one other : Fragment) : Prop where
  text : one.text = other.text
  xmlTag : one.xmlTag = other.xmlTag
  tagPosition : one.tagPosition = other.tagPosition

theorem RunFormatting.observe_congr {one other : Fragment} (same : one.SameMarkup other)
    (formatting : RunFormatting) : formatting.observe one = formatting.observe other := by
  simp only [observe, Fragment.hasTag, same.text, same.xmlTag, same.tagPosition]
  rfl

namespace OnePass

variable {ε : Type} {language : Language ε} {options : Options} {nullPolicy : NullPolicy}
  {data : Value} {fragments rest : List Fragment} {original changed : Fragment}
  {position : Nat}

/-- Two fragments with the same markup leave the same to those that follow, except for
their own indices. -/
theorem agreeOn_of_exchange (memory : Memory) (position : Nat)
    (same : changed.SameMarkup original)
    (unshared : ∀ fragment ∈ rest, fragment.isPlaceholder = true →
      fragment.streamIndex ≠ original.streamIndex ∧
        fragment.streamIndex ≠ changed.streamIndex) :
    Memory.AgreeOn options rest
      (step language options nullPolicy data position memory changed).1
      (step language options nullPolicy data position memory original).1 where
  taken := by
    intro later member placeholder
    obtain ⟨notOriginal, notChanged⟩ := unshared later member placeholder
    rw [mem_taken_step, mem_taken_step, Language.supplied?_of_ne notOriginal.symm,
      Language.supplied?_of_ne notChanged.symm]
  formatting := by
    intro next _
    simp only [Memory.formatting_observe, formatting_step, RunFormatting.observe_congr same]

theorem run_set (language : Language ε) (options : Options) (nullPolicy : NullPolicy)
    (data : Value) (found : fragments[position]? = some original)
    (same : changed.SameMarkup original)
    (unshared : ∀ fragment ∈ fragments.drop (position + 1), fragment.isPlaceholder = true →
      fragment.streamIndex ≠ original.streamIndex ∧
        fragment.streamIndex ≠ changed.streamIndex) :
    ∃ entry, run language options nullPolicy data (fragments.set position changed) =
      (run language options nullPolicy data fragments).set position entry := by
  have inside := (List.getElem?_eq_some_iff.mp found).1
  have length : (fragments.take position).length = position :=
    List.length_take_of_le (Nat.le_of_lt inside)
  have exchanged : fragments.set position changed =
      fragments.take position ++ changed :: fragments.drop (position + 1) := by
    rw [List.set_eq_take_append_cons_drop, if_pos inside]
  have entries (fragment : Fragment) := run_append language options nullPolicy data
    (fragments.take position) (fragment :: fragments.drop (position + 1))
  have before : (run language options nullPolicy data (fragments.take position)).length =
      position := by
    rw [run, length_runFrom, length]
  have originalRun := entries original
  rw [← split_at_position found] at originalRun
  refine ⟨(step language options nullPolicy data (fragments.take position).length
    (after language options nullPolicy data (.initial options) (fragments.take position))
    changed).2, ?_⟩
  rw [exchanged, originalRun, entries, runFrom_cons, runFrom_cons,
    runFrom_congr (agreeOn_of_exchange _ _ same unshared),
    List.set_append_right position _ (Nat.le_of_eq before), before, Nat.sub_self,
    List.set_cons_zero]

end OnePass

open OnePass

variable {ε : Type}

theorem renderPart_placedRenderErrors (language : Language ε) (options : Options)
    (nullPolicy : NullPolicy) (fragments : List Fragment) (data : Value) :
    (renderPart language options nullPolicy fragments data).placedRenderErrors =
      placedErrors (run language options nullPolicy data fragments) :=
  (List.zip_of_prod (renderFailures_eq language options nullPolicy fragments data).symm
    (renderErrors_eq language options nullPolicy fragments data).symm).symm

theorem map_placedRenderErrors (language : Language ε) (options : Options)
    (nullPolicy : NullPolicy) (fragments : List Fragment) (data : Value) :
    let report := renderPart language options nullPolicy fragments data
    report.placedRenderErrors.map Prod.snd = report.renderErrors := by
  intro report
  rw [renderPart_placedRenderErrors, renderErrors_eq]

theorem compileErrors_elsewhere (language : Language ε) (options : Options)
    (nullPolicy : NullPolicy) (fragments : List Fragment) (data : Value) (position : Nat) :
    (renderPart language options nullPolicy fragments data).compileErrors.filter
        (·.position ≠ position) =
      ((run language options nullPolicy data fragments).zipIdx.filter
        (·.2 ≠ position)).filterMap (Entry.compileError? ∘ Prod.fst) := by
  rw [renderPart_compileErrors, ← filterMap_comp_fst_zipIdx]
  refine filter_filterMap_zipIdx ?_ position
  rintro ⟨entry, place⟩ member error reported
  exact (compileError_of_run (List.mem_zipIdx_iff_getElem?.mp member) reported).1

theorem placedErrors_elsewhere (entries : List Entry) (position : Nat) :
    (placedErrors entries).filter (·.1 ≠ position) =
      (entries.zipIdx.filter (·.2 ≠ position)).filterMap
        fun (entry, place) => entry.renderError?.map (place, ·) := by
  refine filter_filterMap_zipIdx ?_ position
  rintro ⟨entry, place⟩ _ placed reported
  obtain ⟨error, _, rfl⟩ := Option.map_eq_some_iff.mp reported
  rfl

/-- A fragment is exchanged for one with the same markup, and no other placeholder has
the stream index of either. The two may differ in all else: one may fail where the
other is filled, claimed or no placeholder. Then the reports differ at this position
only. -/
theorem siblings_undisturbed (language : Language ε) (options : Options)
    (nullPolicy : NullPolicy) (data : Value) (fragments : List Fragment) (position : Nat)
    (original changed : Fragment) (found : fragments[position]? = some original)
    (same : changed.SameMarkup original)
    (unshared : ∀ (other : Nat) (fragment : Fragment), other ≠ position →
      fragments[other]? = some fragment → fragment.isPlaceholder = true →
      fragment.streamIndex ≠ original.streamIndex ∧
        fragment.streamIndex ≠ changed.streamIndex) :
    let before := renderPart language options nullPolicy fragments data
    let after := renderPart language options nullPolicy (fragments.set position changed) data
    (∀ other, other ≠ position → after.outputs[other]? = before.outputs[other]?) ∧
    after.compileErrors.filter (·.position ≠ position) =
      before.compileErrors.filter (·.position ≠ position) ∧
    after.placedRenderErrors.filter (·.1 ≠ position) =
      before.placedRenderErrors.filter (·.1 ≠ position) ∧
    (before.placedRenderErrors.map Prod.snd = before.renderErrors ∧
      after.placedRenderErrors.map Prod.snd = after.renderErrors) := by
  intro before after
  have following : ∀ fragment ∈ fragments.drop (position + 1), fragment.isPlaceholder = true →
      fragment.streamIndex ≠ original.streamIndex ∧
        fragment.streamIndex ≠ changed.streamIndex := by
    intro fragment member placeholder
    obtain ⟨index, present⟩ := List.mem_iff_getElem?.mp member
    rw [List.getElem?_drop] at present
    exact unshared (position + 1 + index) fragment (by omega) present placeholder
  obtain ⟨entry, exchanged⟩ :=
    run_set language options nullPolicy data found same following
  have elsewhere := filter_zipIdx_set (run language options nullPolicy data fragments)
    position 0 entry
  rw [Nat.zero_add] at elsewhere
  refine ⟨?outputs, ?compile, ?render, map_placedRenderErrors language options nullPolicy _ data,
    map_placedRenderErrors language options nullPolicy _ data⟩
  case outputs =>
    intro other different
    simp only [before, after, renderPart_outputs, exchanged, List.map_set]
    exact List.getElem?_set_ne different.symm
  case compile =>
    simp only [before, after]
    rw [compileErrors_elsewhere, compileErrors_elsewhere, exchanged, elsewhere]
  case render =>
    simp only [before, after]
    rw [renderPart_placedRenderErrors, renderPart_placedRenderErrors, placedErrors_elsewhere,
      placedErrors_elsewhere, exchanged, elsewhere]

/-- The first of two placeholders in a bold run is replaced by one without an expression,
which does not compile. The lines of the second are still bold. -/
theorem second_placeholder_stays_bold :
    let fragments := Fragment.boldText ++ [.placeholder 6 "." 0, .placeholder 7 "." 3] ++
      Fragment.textEnd
    let changed := { Fragment.placeholder 8 "." 0 with rawExpression := none }
    let rendered (fragments : List Fragment) :=
      renderPart Path.language { linebreaks := true } .standard fragments (.string "a\nb")
    let lines := Output.rendered (.segments
      ["a", "</w:t></w:r><w:r><w:br/></w:r><w:r><w:rPr><w:b/></w:rPr>" ++
        "<w:t xml:space=\"preserve\">", "b"])
    (rendered fragments).outputs[6]? = some lines ∧
      (rendered (fragments.set 6 changed)).outputs[6]? = some .failed ∧
      (rendered fragments).outputs[7]? = some lines ∧
      (rendered (fragments.set 6 changed)).outputs[7]? = some lines := by
  intro fragments changed rendered lines
  have first : (rendered fragments).outputs[6]? = some lines := by
    rw [renderPart_outputs]
    rfl
  have second : (rendered fragments).outputs[7]? = some lines := by
    rw [renderPart_outputs]
    rfl
  have failed : (rendered (fragments.set 6 changed)).outputs[6]? = some .failed := by
    rw [renderPart_outputs]
    rfl
  have unshared : ∀ (other : Nat) (fragment : Fragment), other ≠ 6 →
      fragments[other]? = some fragment → fragment.isPlaceholder = true →
      fragment.streamIndex ≠ 6 ∧ fragment.streamIndex ≠ 8 := by
    intro other fragment different present placeholder
    have places : ∀ item ∈ fragments.zipIdx, item.2 ≠ 6 → item.1.isPlaceholder = true →
        item.1.streamIndex = 7 := by decide
    have seven := places (fragment, other) (List.mk_mem_zipIdx_iff_getElem?.mpr present)
      different placeholder
    simp only at seven
    omega
  obtain ⟨outputs, _⟩ := siblings_undisturbed Path.language { linebreaks := true } .standard
    (.string "a\nb") fragments 6 (.placeholder 6 "." 0) changed rfl ⟨rfl, rfl, rfl⟩ unshared
  exact ⟨first, failed, second, (outputs 7 (by decide)).trans second⟩

end Stencil
