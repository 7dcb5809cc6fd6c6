import Mathlib.Data.List.Induction
import Stencil.Proofs.Continuation
import Stencil.Proofs.RunFormatting

namespace Stencil

namespace RunVocabulary

/-- A tag that begins run properties, ends them or is all of them. -/
def bounds (vocabulary : RunVocabulary) (fragment : Fragment) : Bool :=
  fragment.hasTag vocabulary.runPropertiesTag && fragment.tagPosition != .none

/-- The last tag of run properties begins them. -/
def leavesOpen (vocabulary : RunVocabulary) (fragments : List Fragment) : Bool :=
  (fragments.filter vocabulary.bounds).getLast?.any (·.tagPosition == .start)

variable {vocabulary : RunVocabulary}

theorem leavesOpen_concat (init : List Fragment) (last : Fragment) :
    vocabulary.leavesOpen (init ++ [last]) =
      if vocabulary.bounds last then last.tagPosition == .start
      else vocabulary.leavesOpen init := by
  unfold leavesOpen
  cases bound : vocabulary.bounds last with
  | true => simp [List.filter_append, bound]
  | false => simp [List.filter_append, bound]

end RunVocabulary

namespace RunFormatting

variable {vocabulary : RunVocabulary} {fragment : Fragment} {fragments : List Fragment}
  {inside : Bool} {texts : List String}

theorem foldl_without_vocabulary {formatting : RunFormatting}
    (unknown : formatting.vocabulary? = none) :
    fragments.foldl observe formatting = formatting := by
  induction fragments with
  | nil => rfl
  | cons fragment rest ih =>
      have same : formatting.observe fragment = formatting := by simp [observe, unknown]
      rw [List.foldl_cons, same, ih]

theorem observe_inside (distinct : vocabulary.runTag ≠ vocabulary.runPropertiesTag) :
    ∃ gathered, observe ⟨some vocabulary, inside, texts⟩ fragment =
      ⟨some vocabulary,
        if vocabulary.bounds fragment then fragment.tagPosition == .start else inside,
        gathered⟩ := by
  cases properties : fragment.hasTag vocabulary.runPropertiesTag with
  | true =>
      have noRun := RunVocabulary.no_run distinct properties
      cases place : fragment.tagPosition with
      | start =>
          exact ⟨[fragment.text], by simp [observe_properties_start noRun properties place,
            RunVocabulary.bounds, properties, place]⟩
      | «end» =>
          exact ⟨texts ++ [fragment.text], by
            simp [observe_properties_last noRun properties (.inl place), RunVocabulary.bounds,
              properties, place]⟩
      | selfClosing =>
          exact ⟨texts ++ [fragment.text], by
            simp [observe_properties_last noRun properties (.inr place), RunVocabulary.bounds,
              properties, place]⟩
      | none =>
          exact ⟨texts, by simp [observe_properties_none noRun properties place,
            RunVocabulary.bounds, place]⟩
  | false =>
      have passed : vocabulary.bounds fragment = false := by
        simp [RunVocabulary.bounds, properties]
      rw [passed]
      cases run : fragment.hasTag vocabulary.runTag with
      | true =>
          by_cases start : fragment.tagPosition = .start
          · exact ⟨_, observe_run_start run start⟩
          · exact ⟨_, observe_run_other run start⟩
      | false => exact ⟨_, observe_unmarked (by simp [RunVocabulary.Marks, run, properties])⟩

/-- Whether properties are open is decided by the last of their tags. -/
theorem foldl_leavesOpen (distinct : vocabulary.runTag ≠ vocabulary.runPropertiesTag)
    (fragments : List Fragment) :
    ∃ gathered, fragments.foldl observe ⟨some vocabulary, false, []⟩ =
      ⟨some vocabulary, vocabulary.leavesOpen fragments, gathered⟩ := by
  induction fragments using List.reverseRecOn with
  | nil => exact ⟨[], rfl⟩
  | append_singleton init last ih =>
      obtain ⟨texts, before⟩ := ih
      rw [List.foldl_concat, before, RunVocabulary.leavesOpen_concat]
      exact observe_inside distinct

/-- A run that starts where no properties are open begins like the first run. -/
theorem observe_run_start_after {dialect : Dialect}
    (known : dialect.vocabulary? = some vocabulary)
    (run : fragment.hasTag vocabulary.runTag = true) (start : fragment.tagPosition = .start)
    (settled : vocabulary.leavesOpen fragments = false) :
    (fragments.foldl observe (.initial dialect)).observe fragment =
      (initial dialect).observe fragment := by
  have first : initial dialect = ⟨some vocabulary, false, []⟩ := by rw [initial, known]
  obtain ⟨gathered, before⟩ := foldl_leavesOpen (Dialect.tags_distinct known).1 fragments
  rw [first, before, settled, observe_run_start run start, observe_run_start run start]

end RunFormatting

/-- No placeholder of the second list has the stream index of a placeholder that
compiled in the first. -/
def Language.SharesNoIndex {ε : Type} (language : Language ε) (first second : List Fragment) :
    Prop :=
  ∀ (position : Nat) (earlier : Fragment), first[position]? = some earlier →
    earlier.isPlaceholder = true →
      (∀ error ∈ ((∅ : Cache ε).compile language first).2, error.position ≠ position) →
        ∀ later ∈ second, later.isPlaceholder = true → later.streamIndex ≠ earlier.streamIndex

/-- The formatting that the first list leaves does not matter to the second: none is
gathered, or the second begins with the start of a run and no properties are open. -/
def Options.RunBoundary (options : Options) (first second : List Fragment) : Prop :=
  options.linebreaksActive = false ∨ options.dialect.vocabulary? = none ∨
    ∃ vocabulary ∈ options.dialect.vocabulary?, ∃ start ∈ second.head?,
      start.hasTag vocabulary.runTag = true ∧ start.tagPosition = .start ∧
        vocabulary.leavesOpen first = false

variable {ε : Type} {language : Language ε} {options : Options} {nullPolicy : NullPolicy}
  {data : Value} {first second : List Fragment}

theorem Language.SharesNoIndex.unsupplied (apart : language.SharesNoIndex first second)
    {later earlier : Fragment} (following : later ∈ second)
    (placeholder : later.isPlaceholder = true) (before : earlier ∈ first) :
    language.supplied? later.streamIndex earlier = none := by
  cases supplied : first.findSome? (language.supplied? later.streamIndex) with
  | none => exact List.findSome?_eq_none_iff.mp supplied earlier before
  | some compiled =>
      -- the supplier is a placeholder that compiled, and it has this index
      obtain ⟨position, supplies⟩ := (language.findSome?_supplied first _).mp supplied
      obtain ⟨supplier, found, present⟩ := Option.bind_eq_some_iff.mp supplies.present
      obtain ⟨isPlaceholder, same⟩ := Language.placeholder_of_supplied present
      rw [← same] at supplies
      have compiles := (Cache.unreported_iff language found isPlaceholder).mpr ⟨_, supplies⟩
      have different := apart position supplier found isPlaceholder compiles later following
        placeholder
      exact absurd same.symm different

namespace OnePass

theorem formatting_after_of_inactive (inactive : options.linebreaksActive = false)
    (memory : Memory) (fragments : List Fragment) :
    (after language options nullPolicy data memory fragments).formatting =
      memory.formatting := by
  induction fragments generalizing memory with
  | nil => rfl
  | cons fragment rest ih =>
      rw [after, List.foldl_cons, ← after, ih, formatting_step, Memory.formatting_observe,
        inactive]
      rfl

theorem formatting_of_runBoundary (boundary : options.RunBoundary first second)
    {start : Fragment} (begins : start ∈ second.head?) :
    ((after language options nullPolicy data (.initial options) first).observe options
        start).formatting =
      ((Memory.initial options).observe options start).formatting := by
  rw [Memory.formatting_observe, Memory.formatting_observe]
  cases active : options.linebreaksActive with
  | false =>
      rw [formatting_after_of_inactive active]
  | true =>
      rw [formatting_after active, if_pos rfl, if_pos rfl]
      rcases boundary with
        inactive | unknown | ⟨vocabulary, known, other, same, run, opens, settled⟩
      · rw [inactive] at active
        contradiction
      · rw [RunFormatting.foldl_without_vocabulary unknown]
      · rw [Option.mem_def] at begins same known
        rw [begins, Option.some.injEq] at same
        subst same
        exact RunFormatting.observe_run_start_after known run opens settled

/-- Where nothing is shared, a part begins anew. -/
theorem agreeOn_initial (apart : language.SharesNoIndex first second)
    (boundary : options.RunBoundary first second) :
    Memory.AgreeOn options second
      (after language options nullPolicy data (.initial options) first) (.initial options) where
  taken := by
    intro later following placeholder
    rw [mem_taken_after]
    have unsupplied : ¬ ∃ earlier ∈ first,
        (language.supplied? later.streamIndex earlier).isSome = true := by
      rintro ⟨earlier, before, supplied⟩
      rw [apart.unsupplied following placeholder before] at supplied
      contradiction
    simp only [unsupplied, or_false]
  formatting := fun _ begins => formatting_of_runBoundary boundary begins

end OnePass

theorem Cache.errors_before (language : Language ε) (first second : List Fragment) :
    ((∅ : Cache ε).compile language (first ++ second)).2.filter
        (·.position < first.length) =
      ((∅ : Cache ε).compile language first).2 := by
  rw [compile, compileFrom_append, Nat.zero_add, List.filter_append, compile]
  have earlier : (compileFrom language 0 ∅ first).2.filter (·.position < first.length) =
      (compileFrom language 0 ∅ first).2 := by
    refine List.filter_eq_self.mpr fun error member => ?_
    have inside := position_lt_of_mem member
    simpa using inside
  have later (cache : Cache ε) :
      (compileFrom language first.length cache second).2.filter
        (·.position < first.length) = [] := by
    refine List.filter_eq_nil_iff.mpr fun error member => ?_
    have outside := position_le_of_mem member
    simpa using outside
  rw [earlier, later, List.append_nil]

open OnePass

theorem OnePass.run_append_anew (language : Language ε) (nullPolicy : NullPolicy) (data : Value)
    (apart : language.SharesNoIndex first second)
    (boundary : options.RunBoundary first second) :
    run language options nullPolicy data (first ++ second) =
      run language options nullPolicy data first ++
        (run language options nullPolicy data second).map (·.shift first.length) := by
  rw [run_append, ← Nat.add_zero first.length,
    runFrom_of_agreeOn (agreeOn_initial apart boundary) first.length 0, Nat.add_zero]
  rfl

/-- What follows in a part changes nothing in what stands before it. A part that begins
anew is rendered after another one as it is rendered alone. -/
theorem renderPart_append (language : Language ε) (options : Options) (nullPolicy : NullPolicy)
    (first second : List Fragment) (data : Value) :
    let whole := renderPart language options nullPolicy (first ++ second) data
    let before := renderPart language options nullPolicy first data
    let after := renderPart language options nullPolicy second data
    (whole.outputs.take first.length = before.outputs ∧
      whole.compileErrors.filter (·.position < first.length) = before.compileErrors ∧
      before.renderErrors <+: whole.renderErrors) ∧
    (language.SharesNoIndex first second → options.RunBoundary first second →
      whole.outputs = before.outputs ++ after.outputs ∧
      whole.compileErrors =
        before.compileErrors ++ after.compileErrors.map (·.shift first.length) ∧
      whole.renderErrors = before.renderErrors ++ after.renderErrors ∧
      whole.markup = before.markup ++ after.markup) := by
  have entries := run_append language options nullPolicy data first second
  have length : ((run language options nullPolicy data first).map Entry.output).length =
      first.length := by
    rw [List.length_map, run, length_runFrom]
  refine ⟨⟨?outputs, ?errors, ?failures⟩, ?anew⟩
  case outputs =>
    rw [renderPart_outputs, renderPart_outputs, entries, List.map_append, List.take_left' length]
  case errors => exact Cache.errors_before language first second
  case failures =>
    rw [renderPart_renderErrors, renderPart_renderErrors, entries, List.filterMap_append]
    exact List.prefix_append _ _
  case anew =>
    intro apart boundary
    have anew := run_append_anew language nullPolicy data apart boundary
    have outputs : (renderPart language options nullPolicy (first ++ second) data).outputs =
        (renderPart language options nullPolicy first data).outputs ++
          (renderPart language options nullPolicy second data).outputs := by
      simp only [renderPart_outputs, anew, List.map_append, List.map_map]
      rfl
    refine ⟨outputs, ?_, ?_, ?_⟩
    · simp only [renderPart_compileErrors, anew, List.filterMap_append, List.filterMap_map,
        List.map_filterMap]
      rfl
    · simp only [renderPart_renderErrors, anew, List.filterMap_append, List.filterMap_map]
      rfl
    · rw [Report.markup, outputs, List.map_append, String.join_append]
      rfl

open Fragment in
/-- A plain run after a paragraph with a bold one. Its value is split into plain runs. -/
theorem plain_run_after_bold_run :
    let first := boldText ++ [.placeholder 6 "." 0] ++ textEnd
    let second := [startTag "w:r", startTag "w:t", .placeholder 7 "." 9, endTag "w:t",
      endTag "w:r"]
    let rendered (fragments : List Fragment) :=
      renderPart Path.language { linebreaks := true } .standard fragments (.string "a\nb")
    Path.language.SharesNoIndex first second ∧
      ({ linebreaks := true } : Options).RunBoundary first second ∧
      (rendered (first ++ second)).outputs =
        (rendered first).outputs ++ (rendered second).outputs ∧
      (rendered second).outputs[2]? = some (.rendered (.segments
        ["a", "</w:t></w:r><w:r><w:br/></w:r><w:r><w:t xml:space=\"preserve\">", "b"])) := by
  intro first second rendered
  have apart : Path.language.SharesNoIndex first second := by
    intro position earlier found isPlaceholder _ later following placeholder
    have ofFirst : ∀ fragment ∈ first, fragment.isPlaceholder = true →
        fragment.streamIndex = 6 := by decide
    have ofSecond : ∀ fragment ∈ second, fragment.isPlaceholder = true →
        fragment.streamIndex = 7 := by decide
    rw [ofSecond later following placeholder,
      ofFirst earlier (List.mem_of_getElem? found) isPlaceholder]
    decide
  have boundary : ({ linebreaks := true } : Options).RunBoundary first second :=
    .inr (.inr ⟨_, rfl, startTag "w:r", rfl, rfl, rfl, by decide⟩)
  obtain ⟨_, anew⟩ := renderPart_append Path.language { linebreaks := true } .standard first
    second (.string "a\nb")
  refine ⟨apart, boundary, (anew apart boundary).1, ?_⟩
  rw [renderPart_outputs]
  rfl

end Stencil
