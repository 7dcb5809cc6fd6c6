import Stencil.Proofs.Escaping
import Stencil.Proofs.Outputs
import Stencil.Proofs.RunFormatting
import Stencil.Proofs.Segments

namespace Stencil

/-- The outputs are equal, or the first is in lines, the second is the text of these
lines, and the transition stands between each two of them. -/
def Output.SameButBreaks (transition? : Option String) (broken plain : Output) : Prop :=
  broken = plain ∨ ∃ transition parts, transition? = some transition ∧
    broken = .rendered (.segments parts) ∧
    plain = .rendered (.escaped ("\n".intercalate (evenItems parts))) ∧
    ∀ part ∈ oddItems parts, part = transition

theorem Output.SameButBreaks.of_split {options : Options} {properties : String}
    {broken plain : Output}
    (same : broken.SameButBreaks
      (options.splitVocabulary?.map (·.transition properties)) plain) :
    broken.SameButBreaks (options.dialect.vocabulary?.map (·.transition properties)) plain := by
  rcases same with equal | ⟨transition, parts, split, written⟩
  · exact .inl equal
  · refine .inr ⟨transition, parts, ?_, written⟩
    unfold Options.splitVocabulary? at split
    split at split
    · exact split
    · contradiction

theorem Rendered.ofLines_lines (transition text : String) :
    ∃ parts, ofLines transition text = .segments parts ∧
      "\n".intercalate (evenItems parts) = Markup.escape text ∧
      ∀ part ∈ oddItems parts, part = transition := by
  refine ⟨_, rfl, ?_, fun part member => eq_of_mem_oddItems_intersperse member⟩
  rw [evenItems_intersperse, ← Markup.escape_intercalate (by decide), join_lines]

theorem Rendered.ofValue_without_linebreaks (options : Options) (properties : String)
    (value : Value) :
    ofValue (options.withLinebreaks false) properties value =
      if options.dialect.isPlainText then .raw value else .escaped value.escapedText := by
  have dialect : (options.withLinebreaks false).dialect = options.dialect := rfl
  have unsplit : (options.withLinebreaks false).splitVocabulary? = none := rfl
  unfold ofValue
  rw [dialect, unsplit]
  split
  · rfl
  · cases value <;> rfl

theorem Rendered.ofValue_sameButBreaks (options : Options) (properties other : String)
    (value : Value) :
    Output.SameButBreaks
      ((options.withLinebreaks true).splitVocabulary?.map (·.transition properties))
      (.rendered (ofValue (options.withLinebreaks true) properties value))
      (.rendered (ofValue (options.withLinebreaks false) other value)) := by
  have dialect : (options.withLinebreaks true).dialect = options.dialect := rfl
  rw [ofValue_without_linebreaks]
  unfold ofValue
  rw [dialect]
  split
  · exact .inl rfl
  · split
    · rename_i text vocabulary splits
      split
      · obtain ⟨parts, made, joined, transitions⟩ :=
          ofLines_lines (vocabulary.transition properties) text
        refine .inr ⟨vocabulary.transition properties, parts, ?_, ?_, ?_, transitions⟩
        · rw [splits, Option.map_some]
        · rw [made]
        · rw [joined]
          rfl
      · exact .inl rfl
    · exact .inl rfl

namespace OnePass

/-- Two entries for one fragment, of which at most the outputs differ. -/
structure Entry.SameButBreaks (transition? : Option String) (broken plain : Entry) : Prop where
  output : broken.output.SameButBreaks transition? plain.output
  compileError? : broken.compileError? = plain.compileError?
  renderError? : broken.renderError? = plain.renderError?

theorem Entry.SameButBreaks.refl (transition? : Option String) (entry : Entry) :
    entry.SameButBreaks transition? entry :=
  ⟨.inl rfl, rfl, rfl⟩

theorem fill_sameButBreaks (options : Options) (nullPolicy : NullPolicy)
    (properties other : String) (fragment : Fragment)
    (resolved : Except Cause (Option Value)) :
    Entry.SameButBreaks
      ((options.withLinebreaks true).splitVocabulary?.map (·.transition properties))
      (.ofOutcome (fill (options.withLinebreaks true) nullPolicy properties fragment resolved))
      (.ofOutcome (fill (options.withLinebreaks false) nullPolicy other fragment resolved)) := by
  cases resolved with
  | error cause => exact .refl _ _
  | ok value =>
      have same : sanitize (options.withLinebreaks false) fragment
          (nullPolicy.apply fragment value) =
        sanitize (options.withLinebreaks true) fragment (nullPolicy.apply fragment value) := rfl
      simp only [fill, same]
      cases sanitize (options.withLinebreaks true) fragment (nullPolicy.apply fragment value) with
      | error error => exact .refl _ _
      | ok sanitized =>
          exact ⟨Rendered.ofValue_sameButBreaks options properties other sanitized, rfl, rfl⟩

variable {ε : Type} (language : Language ε) (options : Options) (nullPolicy : NullPolicy)
  (data : Value)

/-- Where the same indices are taken, one fragment takes the same branch in both. -/
theorem step_sameButBreaks {broken plain : Memory} (same : broken.taken = plain.taken)
    (position : Nat) (fragment : Fragment) :
    (step language (options.withLinebreaks true) nullPolicy data position broken
        fragment).1.taken =
      (step language (options.withLinebreaks false) nullPolicy data position plain
        fragment).1.taken ∧
    Entry.SameButBreaks
      ((options.withLinebreaks true).splitVocabulary?.map
        (·.transition (broken.observe (options.withLinebreaks true)
          fragment).formatting.snapshot))
      (step language (options.withLinebreaks true) nullPolicy data position broken fragment).2
      (step language (options.withLinebreaks false) nullPolicy data position plain
        fragment).2 := by
  have observed : (broken.observe (options.withLinebreaks true) fragment).taken =
      (plain.observe (options.withLinebreaks false) fragment).taken := by
    rw [Memory.taken_observe, Memory.taken_observe, same]
  simp only [step, observed]
  split
  · split
    · exact ⟨observed, .refl _ _⟩
    · cases language.parse fragment.expression fragment with
      | error cause => exact ⟨observed, .refl _ _⟩
      | ok compiled =>
          refine ⟨rfl, ?_⟩
          dsimp only
          cases fragment.isClaimed with
          | true => exact .refl _ _
          | false => exact fill_sameButBreaks options nullPolicy _ _ fragment _
  · exact ⟨observed, .refl _ _⟩

theorem taken_after_linebreaks {broken plain : Memory} (same : broken.taken = plain.taken)
    (fragments : List Fragment) :
    (after language (options.withLinebreaks true) nullPolicy data broken fragments).taken =
      (after language (options.withLinebreaks false) nullPolicy data plain
        fragments).taken := by
  induction fragments generalizing broken plain with
  | nil => exact same
  | cons fragment rest ih =>
      exact ih (step_sameButBreaks language options nullPolicy data same 0 fragment).1

theorem run_sameButBreaks {fragments : List Fragment} {fragment : Fragment} {position : Nat}
    (found : fragments[position]? = some fragment) :
    ∃ broken plain,
      (run language (options.withLinebreaks true) nullPolicy data fragments)[position]? =
        some broken ∧
      (run language (options.withLinebreaks false) nullPolicy data fragments)[position]? =
        some plain ∧
      broken.SameButBreaks
        ((options.withLinebreaks true).splitVocabulary?.map
          (·.transition
            (RunFormatting.after options.dialect (fragments.take (position + 1))).snapshot))
        plain := by
  refine ⟨_, _, getElem?_run found, getElem?_run found, ?_⟩
  have start : (Memory.initial (options.withLinebreaks true)).taken =
      (Memory.initial (options.withLinebreaks false)).taken := rfl
  have same := taken_after_linebreaks language options nullPolicy data start
    (fragments.take position)
  have stepped :=
    (step_sameButBreaks language options nullPolicy data same position fragment).2
  cases active : (options.withLinebreaks true).linebreaksActive with
  | false =>
      -- nothing is gathered, but no value is split either
      have unsplit : (options.withLinebreaks true).splitVocabulary? = none := by
        simp [Options.splitVocabulary?, active]
      simpa only [unsplit, Option.map_none] using stepped
  | true =>
      have gathered :
          (after language (options.withLinebreaks true) nullPolicy data
            (.initial (options.withLinebreaks true)) (fragments.take position)).formatting =
          RunFormatting.after options.dialect (fragments.take position) :=
        formatting_after active
      rw [Memory.observe, if_pos active, gathered] at stepped
      rw [List.take_add_one, found, RunFormatting.after, List.foldl_append,
        ← RunFormatting.after]
      exact stepped

theorem filterMap_run_linebreaks {α : Type} (part : Entry → Option α)
    (shared : ∀ {transition? broken plain}, Entry.SameButBreaks transition? broken plain →
      part broken = part plain) (fragments : List Fragment) :
    (run language (options.withLinebreaks true) nullPolicy data fragments).filterMap part =
      (run language (options.withLinebreaks false) nullPolicy data fragments).filterMap part := by
  have parts :
      (run language (options.withLinebreaks true) nullPolicy data fragments).map part =
        (run language (options.withLinebreaks false) nullPolicy data fragments).map part := by
    refine List.ext_getElem? fun position => ?_
    rw [List.getElem?_map, List.getElem?_map]
    cases found : fragments[position]? with
    | none => simp only [run, getElem?_runFrom, found, Option.map_none]
    | some fragment =>
        obtain ⟨broken, plain, inBroken, inPlain, same⟩ :=
          run_sameButBreaks language options nullPolicy data found
        rw [inBroken, inPlain, Option.map_some, Option.map_some, shared same]
  -- `filterMap part` is `map part` without the absent ones
  have joined := congrArg (List.filterMap id) parts
  rwa [List.filterMap_map, List.filterMap_map] at joined

end OnePass

/-- Line breaks change nothing but the line feeds in values: the errors are the same,
and an output is the same or comes in lines, between which the transition stands that
has the properties gathered up to this position. -/
theorem linebreaks_change_only_newlines {ε : Type} (language : Language ε) (options : Options)
    (nullPolicy : NullPolicy) (fragments : List Fragment) (data : Value) :
    let broken := renderPart language (options.withLinebreaks true) nullPolicy fragments data
    let plain := renderPart language (options.withLinebreaks false) nullPolicy fragments data
    broken.compileErrors = plain.compileErrors ∧ broken.renderErrors = plain.renderErrors ∧
      broken.outputs.length = plain.outputs.length ∧
      ∀ (position : Nat) (first second : Output), broken.outputs[position]? = some first →
        plain.outputs[position]? = some second →
        first.SameButBreaks
          (options.dialect.vocabulary?.map
            (·.transition
              (RunFormatting.after options.dialect (fragments.take (position + 1))).snapshot))
          second := by
  refine ⟨?compile, ?render, ?length, ?outputs⟩
  case compile =>
    rw [renderPart_compileErrors, renderPart_compileErrors]
    exact OnePass.filterMap_run_linebreaks language options nullPolicy data _
      (fun same => same.compileError?) fragments
  case render =>
    rw [renderPart_renderErrors, renderPart_renderErrors]
    exact OnePass.filterMap_run_linebreaks language options nullPolicy data _
      (fun same => same.renderError?) fragments
  case length => rw [length_outputs, length_outputs]
  case outputs =>
    intro position first second inFirst inSecond
    obtain ⟨fragment, found, _⟩ := output_at inFirst
    obtain ⟨broken, plain, inBroken, inPlain, same⟩ :=
      OnePass.run_sameButBreaks language options nullPolicy data found
    rw [renderPart_outputs, List.getElem?_map, inBroken, Option.map_some,
      Option.some.injEq] at inFirst
    rw [renderPart_outputs, List.getElem?_map, inPlain, Option.map_some,
      Option.some.injEq] at inSecond
    subst inFirst inSecond
    exact same.output.of_split

theorem two_escaped_lines_of_bold_run :
    let fragments := Fragment.boldText ++ [.placeholder 6 "." 0] ++ Fragment.textEnd
    let transition := "</w:t></w:r><w:r><w:br/></w:r><w:r><w:rPr><w:b/></w:rPr>" ++
      "<w:t xml:space=\"preserve\">"
    (renderPart Path.language { linebreaks := true } .standard fragments
        (.string "a<\nb")).outputs[6]? =
      some (.rendered (.segments ["a&lt;", transition, "b"])) ∧
    (renderPart Path.language { linebreaks := false } .standard fragments
        (.string "a<\nb")).outputs[6]? = some (.rendered (.escaped "a&lt;\nb")) ∧
    Output.SameButBreaks (some transition)
      (.rendered (.segments ["a&lt;", transition, "b"])) (.rendered (.escaped "a&lt;\nb")) := by
  intro fragments transition
  have broken : (renderPart Path.language { linebreaks := true } .standard fragments
      (.string "a<\nb")).outputs[6]? =
        some (.rendered (.segments ["a&lt;", transition, "b"])) := by
    rw [renderPart_outputs]
    rfl
  have plain : (renderPart Path.language { linebreaks := false } .standard fragments
      (.string "a<\nb")).outputs[6]? = some (.rendered (.escaped "a&lt;\nb")) := by
    rw [renderPart_outputs]
    rfl
  obtain ⟨_, _, _, outputs⟩ := linebreaks_change_only_newlines Path.language {} .standard
    fragments (.string "a<\nb")
  exact ⟨broken, plain, outputs 6 _ _ broken plain⟩

end Stencil
