import Stencil.Proofs.RunFormatting
import Stencil.Proofs.Segments
import Stencil.Session

namespace Stencil

namespace Session

/-- What is done with the next fragment. -/
inductive Step where
  | observe (fragment : Fragment)
  | render (fragment : Fragment)

def Step.fragment : Step → Fragment
  | .observe fragment => fragment
  | .render fragment => fragment

/-- The session after a step, and the outcome if the step renders its fragment. -/
def perform (session : Session) : Step → Session × Option Outcome
  | .observe fragment => (session.observe fragment, none)
  | .render fragment =>
      let (next, outcome) := session.render fragment
      (next, some outcome)

def after (session : Session) (steps : List Step) : Session :=
  steps.foldl (fun session step => (session.perform step).1) session

/-- The outcomes of all steps in their order. -/
def outcomes (session : Session) : List Step → List (Option Outcome)
  | [] => []
  | step :: rest =>
      let (next, outcome) := session.perform step
      outcome :: next.outcomes rest

end Session

/-- The value that takes the place of a fragment, before it is written for the document.
There is none for a fragment that is skipped and for one that fails. -/
def sanitized? (options : Options) (resolver : Resolver) (nullPolicy : NullPolicy)
    (fragment : Fragment) : Option Value :=
  if fragment.isPlaceholder && !fragment.isClaimed then
    (resolver fragment.expression fragment).toOption.bind fun resolved =>
      (sanitize options fragment (nullPolicy.apply fragment resolved)).toOption
  else none

namespace Session

variable {session : Session} {fragment : Fragment} {steps : List Step} {step : Step}
  {position : Nat} {options : Options} {resolver : Resolver} {nullPolicy : NullPolicy}

@[simp] theorem render_fst : (session.render fragment).1 = session.observe fragment := by
  unfold render
  split <;> rfl

/-- A step that renders its fragment leaves the same session as one that observes it. -/
theorem perform_fst : (session.perform step).1 = session.observe step.fragment := by
  cases step with
  | observe fragment => rfl
  | render fragment => exact render_fst

theorem after_eq_observed :
    session.after steps = (steps.map Step.fragment).foldl observe session := by
  simp only [after, perform_fst, List.foldl_map]

/-- Nothing but the formatting changes. -/
theorem observe_eq (session : Session) (fragment : Fragment) :
    session.observe fragment =
      { session with formatting := (session.observe fragment).formatting } := by
  unfold observe
  split <;> rfl

theorem after_eq (session : Session) (steps : List Step) :
    session.after steps = { session with formatting := (session.after steps).formatting } := by
  induction steps generalizing session with
  | nil => rfl
  | cons step rest ih =>
      have first : session.after (step :: rest) = (session.observe step.fragment).after rest := by
        rw [after, List.foldl_cons, perform_fst, ← after]
      rw [first, ih, observe_eq]

theorem outcomes_cons (session : Session) (step : Step) (rest : List Step) :
    session.outcomes (step :: rest) =
      (session.perform step).2 :: (session.perform step).1.outcomes rest := rfl

theorem getElem?_outcomes (session : Session) (steps : List Step) (position : Nat) :
    (session.outcomes steps)[position]? =
      steps[position]?.map fun step => ((session.after (steps.take position)).perform step).2 := by
  induction steps generalizing session position with
  | nil => rfl
  | cons step rest ih =>
      cases position with
      | zero => rfl
      | succ position =>
          rw [outcomes_cons, List.getElem?_cons_succ, ih, List.getElem?_cons_succ,
            List.take_succ_cons, after, after, List.foldl_cons]

/-- An outcome is that of a fragment rendered after what came before it. -/
theorem rendered_of_mem_outcomes {outcome : Outcome}
    (member : some outcome ∈ session.outcomes steps) :
    ∃ formatting fragment,
      (({ session with formatting } : Session).render fragment).2 = outcome := by
  obtain ⟨position, found⟩ := List.mem_iff_getElem?.mp member
  rw [getElem?_outcomes, Option.map_eq_some_iff] at found
  obtain ⟨step, _, performed⟩ := found
  cases step with
  | observe fragment => contradiction
  | render fragment =>
      rw [after_eq] at performed
      exact ⟨_, fragment, Option.some.inj performed⟩

/-- Whether a step renders its fragment or observes it matters to no later one. -/
theorem after_set (session : Session)
    (same : steps[position]?.map Step.fragment = some step.fragment) :
    session.after (steps.set position step) = session.after steps := by
  have fragments : (steps.set position step).map Step.fragment = steps.map Step.fragment := by
    rw [← List.getElem?_map] at same
    obtain ⟨inside, present⟩ := List.getElem?_eq_some_iff.mp same
    rw [List.map_set, ← present, List.set_getElem_self]
  rw [after_eq_observed, after_eq_observed, fragments]

theorem outcomes_set (session : Session)
    (same : steps[position]?.map Step.fragment = some step.fragment) {other : Nat}
    (different : other ≠ position) :
    (session.outcomes (steps.set position step))[other]? = (session.outcomes steps)[other]? := by
  rw [getElem?_outcomes, getElem?_outcomes, List.getElem?_set_ne different.symm]
  by_cases earlier : other ≤ position
  · rw [List.take_set_of_le earlier]
  · have kept : (steps.take other)[position]? = steps[position]? :=
      List.getElem?_take_of_lt (by omega)
    rw [List.take_set, after_set session (by rw [kept, same])]

theorem render_snd (session : Session) (fragment : Fragment) :
    (session.render fragment).2 =
      if fragment.isPlaceholder && !fragment.isClaimed then
        fill session.options session.nullPolicy (session.observe fragment).formatting.snapshot
          fragment (session.resolver fragment.expression fragment)
      else .skipped := by
  rw [render, observe_eq]
  split <;> rfl

end Session

namespace Rendered

variable {options : Options} {vocabulary : RunVocabulary} {value : Value} {text : String}

theorem ofValue_of_lines (active : options.linebreaksActive = true)
    (known : options.dialect.vocabulary? = some vocabulary) (breaks : '\n' ∈ text.toList)
    (properties : String) :
    ofValue options properties (.string text) =
      ofLines (vocabulary.transition properties) text := by
  have markup : options.dialect.isPlainText = false := Dialect.not_isPlainText known
  simp [ofValue, markup, Options.splitVocabulary?, active, known, breaks]

/-- A value that is not split is written without a look at the run it stands in. -/
theorem ofValue_unsplit
    (unsplit : options.linebreaksActive = false ∨ options.dialect.vocabulary? = none ∨
      ∀ text, value = .string text → '\n' ∉ text.toList) (properties : String) :
    ofValue options properties value =
      if options.dialect.isPlainText then .raw value else .escaped value.escapedText := by
  unfold ofValue
  split
  · rfl
  · split
    · rename_i text vocabulary split
      unfold Options.splitVocabulary? at split
      split at split
      · rename_i active
        rcases unsplit with inactive | unknown | whole
        · rw [inactive] at active
          contradiction
        · rw [unknown] at split
          contradiction
        · simp [whole text rfl]
      · contradiction
    · rfl

end Rendered

namespace Session

variable {fragment : Fragment} {value : Value}

theorem rendered_of_sanitized (session : Session)
    (yields : sanitized? session.options session.resolver session.nullPolicy fragment =
      some value) :
    (session.render fragment).2 =
      .rendered (.ofValue session.options (session.observe fragment).formatting.snapshot
        value) := by
  rw [render_snd]
  unfold sanitized? at yields
  split at yields
  · rename_i filled
    rw [if_pos filled]
    cases resolved : session.resolver fragment.expression fragment with
    | error cause => simp [resolved, Except.toOption] at yields
    | ok found =>
        rw [resolved, Except.toOption, Option.bind_some] at yields
        cases cleaned : sanitize session.options fragment (session.nullPolicy.apply fragment found)
          with
        | error error => simp [cleaned, Except.toOption] at yields
        | ok sanitized =>
            rw [cleaned, Except.toOption, Option.some.injEq] at yields
            rw [fill, cleaned, yields]
  · contradiction

/-- A fragment without a value is skipped or fails, with any formatting alike. -/
theorem unrendered_of_unsanitized (session : Session)
    (yields : sanitized? session.options session.resolver session.nullPolicy fragment = none)
    (formatting : RunFormatting) :
    (({ session with formatting } : Session).render fragment).2 = (session.render fragment).2 ∧
      ∀ result, (session.render fragment).2 ≠ .rendered result := by
  rw [render_snd, render_snd]
  unfold sanitized? at yields
  split at yields
  · rename_i filled
    rw [if_pos filled]
    cases resolved : session.resolver fragment.expression fragment with
    | error cause => simp [filled, fill]
    | ok found =>
        rw [resolved, Except.toOption, Option.bind_some] at yields
        cases cleaned : sanitize session.options fragment (session.nullPolicy.apply fragment found)
          with
        | error error => simp [filled, fill, cleaned]
        | ok sanitized => simp [cleaned, Except.toOption] at yields
  · rename_i skipped
    simp [skipped]

/-- Where the value of a fragment is not split, the outcome is the same with any
formatting and not in segments. -/
theorem unsplit_outcome (session : Session)
    (unsplit : session.options.linebreaksActive = false ∨
      session.options.dialect.vocabulary? = none ∨
      ∀ text, sanitized? session.options session.resolver session.nullPolicy fragment =
        some (.string text) → '\n' ∉ text.toList)
    (formatting : RunFormatting) :
    (({ session with formatting } : Session).render fragment).2 = (session.render fragment).2 ∧
      ∀ parts, (session.render fragment).2 ≠ .rendered (.segments parts) := by
  cases yields : sanitized? session.options session.resolver session.nullPolicy fragment with
  | none =>
      obtain ⟨same, unrendered⟩ := unrendered_of_unsanitized session yields formatting
      exact ⟨same, fun parts => unrendered _⟩
  | some value =>
      have whole : session.options.linebreaksActive = false ∨
          session.options.dialect.vocabulary? = none ∨
          ∀ text, value = .string text → '\n' ∉ text.toList := by
        refine unsplit.imp_right (Or.imp_right fun whole text same => whole text ?_)
        rw [yields, same]
      have written := Rendered.ofValue_unsplit whole
      rw [rendered_of_sanitized session yields, written]
      refine ⟨?same, fun parts => ?segments⟩
      case same =>
        rw [rendered_of_sanitized { session with formatting } yields]
        exact congrArg Outcome.rendered (written _)
      case segments => split <;> simp

/-- A split value comes in its escaped lines, and all that stands between them is the
transition with the properties gathered so far. -/
theorem split_outcome (session : Session) {vocabulary : RunVocabulary} {text : String}
    (active : session.options.linebreaksActive = true)
    (known : session.options.dialect.vocabulary? = some vocabulary)
    (yields : sanitized? session.options session.resolver session.nullPolicy fragment =
      some (.string text))
    (breaks : '\n' ∈ text.toList) :
    ∃ parts, (session.render fragment).2 = .rendered (.segments parts) ∧
      evenItems parts = (lines text).map Markup.escape ∧
      parts.length = 2 * (lines text).length - 1 ∧
      ∀ part ∈ oddItems parts,
        part = vocabulary.transition (session.observe fragment).formatting.snapshot := by
  rw [rendered_of_sanitized session yields, Rendered.ofValue_of_lines active known breaks]
  refine ⟨_, rfl, evenItems_intersperse _ _, ?length,
    fun part member => eq_of_mem_oddItems_intersperse member⟩
  rw [List.length_intersperse, List.length_map]

/-- What a session has seen before a fragment does not show in its outcome, unless the
value of the fragment is split into lines. Then the lines are those of a session that has
seen nothing, and between them stands the transition with the properties gathered so far.
Rendering a fragment or only observing it makes no difference to any other step. -/
theorem history_shows_in_transitions (options : Options) (resolver : Resolver)
    (nullPolicy : NullPolicy) (steps : List Step) (fragment : Fragment) :
    let fresh := start options resolver nullPolicy
    let later := fresh.after steps
    ((options.linebreaksActive = false ∨ options.dialect.vocabulary? = none ∨
        ∀ text, sanitized? options resolver nullPolicy fragment = some (.string text) →
          '\n' ∉ text.toList) →
      (later.render fragment).2 = (fresh.render fragment).2 ∧
        ∀ parts, (later.render fragment).2 ≠ .rendered (.segments parts)) ∧
    (∀ (vocabulary : RunVocabulary) (text : String), options.linebreaksActive = true →
      options.dialect.vocabulary? = some vocabulary →
      sanitized? options resolver nullPolicy fragment = some (.string text) →
      '\n' ∈ text.toList →
      ∃ parts alone, (later.render fragment).2 = .rendered (.segments parts) ∧
        (fresh.render fragment).2 = .rendered (.segments alone) ∧
        evenItems parts = evenItems alone ∧ parts.length = alone.length ∧
        (∀ part ∈ oddItems parts,
          part = vocabulary.transition (later.observe fragment).formatting.snapshot) ∧
        ∀ part ∈ oddItems alone,
          part = vocabulary.transition (fresh.observe fragment).formatting.snapshot) ∧
    (∀ (position : Nat) (step : Step),
      steps[position]?.map Step.fragment = some step.fragment →
      fresh.after (steps.set position step) = later ∧
        ∀ other, other ≠ position →
          (fresh.outcomes (steps.set position step))[other]? =
            (fresh.outcomes steps)[other]?) := by
  intro fresh later
  have kept : later = { fresh with formatting := later.formatting } := after_eq fresh steps
  refine ⟨?unsplit, ?split, ?exchanged⟩
  case unsplit =>
    intro unsplit
    obtain ⟨same, whole⟩ := unsplit_outcome fresh unsplit later.formatting
    rw [← kept] at same
    rw [same]
    exact ⟨rfl, whole⟩
  case split =>
    intro vocabulary text active known yields breaks
    obtain ⟨alone, inFresh, own, ownLength, ownTransitions⟩ :=
      split_outcome fresh active known yields breaks
    rw [kept]
    obtain ⟨parts, inLater, same, length, transitions⟩ :=
      split_outcome { fresh with formatting := later.formatting } active known yields breaks
    exact ⟨parts, alone, inLater, inFresh, same.trans own.symm, length.trans ownLength.symm,
      transitions, ownTransitions⟩
  case exchanged =>
    intro position step same
    exact ⟨after_set fresh same, fun other different => outcomes_set fresh same different⟩

/-- A placeholder that fails in a bold run, one that is a single line and one that is two
lines. Only the last shows that the run is bold. -/
theorem two_lines_after_failure_in_bold_run :
    let resolver : Resolver := fun expression fragment =>
      if fragment.streamIndex = 6 then .error (.host "no value")
      else .ok (some (.string expression))
    let fresh := start { linebreaks := true } resolver
    let failing : Fragment := .placeholder 6 "lost" 0
    let steps := Fragment.boldText.map Step.observe ++ [.render failing]
    let later := fresh.after steps
    let line : Fragment := .placeholder 7 "ab" 9
    let twoLines : Fragment := .placeholder 7 "a\nb" 9
    (fresh.outcomes steps)[6]? =
      some (some (.failed (.resolution "lost" 0 (.host "no value")))) ∧
    (later.render line).2 = (fresh.render line).2 ∧
    (∃ parts alone, (later.render twoLines).2 = .rendered (.segments parts) ∧
      (fresh.render twoLines).2 = .rendered (.segments alone) ∧
      evenItems parts = evenItems alone) ∧
    fresh.after (steps.set 6 (.observe failing)) = later := by
  intro resolver fresh failing steps later line twoLines
  have yields (text : String) (clean : Markup.hasForbidden text = false) :
      sanitized? { linebreaks := true } resolver .standard (.placeholder 7 text 9) =
        some (.string text) := by
    have kept : sanitize { linebreaks := true } (.placeholder 7 text 9) (.string text) =
        .ok (.string text) := by
      simp [sanitize, clean]
    change (sanitize { linebreaks := true } (.placeholder 7 text 9) (.string text)).toOption = _
    rw [kept]
    rfl
  have single : ∀ text,
      sanitized? { linebreaks := true } resolver .standard line = some (.string text) →
        '\n' ∉ text.toList := by
    intro text same
    rw [yields "ab" (by decide), Option.some.injEq, Value.string.injEq] at same
    subst same
    decide
  obtain ⟨unsplit, _, exchanged⟩ :=
    history_shows_in_transitions { linebreaks := true } resolver .standard steps line
  obtain ⟨_, split, _⟩ :=
    history_shows_in_transitions { linebreaks := true } resolver .standard steps twoLines
  obtain ⟨parts, alone, inLater, inFresh, same, _⟩ := split _ "a\nb" rfl rfl
    (yields _ (by decide)) (by decide)
  exact ⟨rfl, (unsplit (.inr (.inr single))).1, ⟨parts, alone, inLater, inFresh, same⟩,
    (exchanged 6 (.observe failing) rfl).1⟩

end Session

end Stencil
