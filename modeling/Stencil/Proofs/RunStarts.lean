import Mathlib.Data.List.DropRight
import Stencil.Proofs.GatheredFormatting

namespace Stencil

/-! What a run knows of the fragments before its start. The start discards the texts
gathered so far and leaves the properties as open or closed as they are. So a run after
closed properties begins like the first run of a part, and a run after open ones gathers
its own fragments as if they were properties, up to the next tag that begins or ends any. -/

namespace RunVocabulary

variable (vocabulary : RunVocabulary)

/-- Texts gathered before this fragment are not kept. -/
def restarts (fragment : Fragment) : Bool :=
  vocabulary.startsRun fragment || vocabulary.startsProperties fragment

/-- The fragments behind the last start of a run, without tags of the run and of its
properties. -/
def sinceRun (fragments : List Fragment) : List Fragment :=
  (fragments.rtakeWhile fun fragment => !vocabulary.startsRun fragment).filter fun fragment =>
    !decide (vocabulary.Marks fragment)

/-- The fragments behind the start of a run that are taken for properties only because some
were open before it. They end where properties begin or end, and are lost at a restart
from there on. -/
def spilled (fragments : List Fragment) : List Fragment :=
  if (fragments.dropWhile fun fragment => !vocabulary.bounds fragment).any vocabulary.restarts
  then []
  else vocabulary.sinceRun (fragments.takeWhile fun fragment => !vocabulary.bounds fragment)

variable {vocabulary} {init : List Fragment} {fragment last : Fragment}

theorem sinceRun_of_run (run : vocabulary.startsRun last = true) :
    vocabulary.sinceRun (init ++ [last]) = [] := by
  simp [sinceRun, run]

theorem sinceRun_of_other (noRun : vocabulary.startsRun last = false) :
    vocabulary.sinceRun (init ++ [last]) =
      vocabulary.sinceRun init ++ if vocabulary.Marks last then [] else [last] := by
  by_cases marks : vocabulary.Marks last <;>
    simp [sinceRun, noRun, marks]

end RunVocabulary

namespace RunFormatting

variable {vocabulary : RunVocabulary} {fragment : Fragment} {fragments : List Fragment}
  {inside : Bool} {texts : List String}

/-- The state with texts before those that it has gathered. -/
def withBefore (spill : List String) (formatting : RunFormatting) : RunFormatting :=
  { formatting with properties := spill ++ formatting.properties }

/-- A tag that begins or ends properties does the same whether some are open or not. -/
theorem observe_bound (distinct : vocabulary.runTag ≠ vocabulary.runPropertiesTag)
    (bound : vocabulary.bounds fragment = true) (inside other : Bool) :
    observe ⟨some vocabulary, inside, texts⟩ fragment =
      observe ⟨some vocabulary, other, texts⟩ fragment := by
  simp only [RunVocabulary.bounds, Bool.and_eq_true, bne_iff_ne] at bound
  obtain ⟨properties, placed⟩ := bound
  have noRun := RunVocabulary.no_run distinct properties
  cases place : fragment.tagPosition with
  | start =>
      rw [observe_properties_start noRun properties place,
        observe_properties_start noRun properties place]
  | «end» | selfClosing =>
      rw [observe_properties_last noRun properties (by simp [place]),
        observe_properties_last noRun properties (by simp [place])]
  | none => exact absurd place placed

/-- Where properties neither begin nor end, a run start discards, and texts without a tag of
the run or of properties are gathered while properties are open. -/
theorem observe_unbounded (unbounded : vocabulary.bounds fragment = false) :
    observe ⟨some vocabulary, inside, texts⟩ fragment =
      ⟨some vocabulary, inside,
        if vocabulary.startsRun fragment then []
        else texts ++ if inside && !decide (vocabulary.Marks fragment) then [fragment.text]
          else []⟩ := by
  cases run : fragment.hasTag vocabulary.runTag with
  | true =>
      by_cases start : fragment.tagPosition = .start
      · rw [observe_run_start run start]
        simp [RunVocabulary.startsRun, run, start]
      · rw [observe_run_other run start]
        simp [RunVocabulary.startsRun, RunVocabulary.Marks, run, start]
  | false =>
      cases properties : fragment.hasTag vocabulary.runPropertiesTag with
      | true =>
          have none : fragment.tagPosition = .none := by
            simpa [RunVocabulary.bounds, properties] using unbounded
          rw [observe_properties_none run properties none]
          simp [RunVocabulary.startsRun, RunVocabulary.Marks, run, properties]
      | false =>
          have unmarked : ¬ vocabulary.Marks fragment := by
            simp [RunVocabulary.Marks, run, properties]
          rw [observe_unmarked unmarked]
          cases inside <;> simp [RunVocabulary.startsRun, run, unmarked]

theorem foldl_unbounded
    (unbounded : ∀ fragment ∈ fragments, vocabulary.bounds fragment = false) (inside : Bool) :
    fragments.foldl observe ⟨some vocabulary, inside, []⟩ =
      ⟨some vocabulary, inside,
        if inside then (vocabulary.sinceRun fragments).map Fragment.text else []⟩ := by
  induction fragments using List.reverseRecOn with
  | nil => cases inside <;> rfl
  | append_singleton init last ih =>
      have before := ih fun fragment member => unbounded fragment (by simp [member])
      rw [List.foldl_concat, before, observe_unbounded (unbounded last (by simp))]
      cases run : vocabulary.startsRun last with
      | true => simp [RunVocabulary.sinceRun_of_run run]
      | false =>
          rw [RunVocabulary.sinceRun_of_other run]
          by_cases marks : vocabulary.Marks last <;> cases inside <;> simp [marks]

/-- Texts gathered earlier stay in front until a restart. -/
theorem observe_withBefore (distinct : vocabulary.runTag ≠ vocabulary.runPropertiesTag)
    (spill : List String) :
    observe (withBefore spill ⟨some vocabulary, inside, texts⟩) fragment =
      withBefore (if vocabulary.restarts fragment then [] else spill)
        (observe ⟨some vocabulary, inside, texts⟩ fragment) := by
  unfold withBefore
  cases bound : vocabulary.bounds fragment with
  | false =>
      have noProperties := RunVocabulary.noProperties_of_unbounded bound
      rw [observe_unbounded bound, observe_unbounded bound]
      cases run : vocabulary.startsRun fragment <;>
        simp [RunVocabulary.restarts, run, noProperties]
  | true =>
      simp only [RunVocabulary.bounds, Bool.and_eq_true, bne_iff_ne] at bound
      obtain ⟨properties, placed⟩ := bound
      have noRun := RunVocabulary.no_run distinct properties
      cases place : fragment.tagPosition with
      | start =>
          rw [observe_properties_start noRun properties place,
            observe_properties_start noRun properties place]
          simp [RunVocabulary.restarts, RunVocabulary.startsProperties, properties, place]
      | «end» | selfClosing =>
          rw [observe_properties_last noRun properties (by simp [place]),
            observe_properties_last noRun properties (by simp [place])]
          simp [RunVocabulary.restarts, RunVocabulary.startsRun, RunVocabulary.startsProperties,
            place]
      | none => exact absurd place placed

theorem foldl_withBefore (distinct : vocabulary.runTag ≠ vocabulary.runPropertiesTag)
    (spill : List String) :
    fragments.foldl observe (withBefore spill ⟨some vocabulary, inside, texts⟩) =
      withBefore (if fragments.any vocabulary.restarts then [] else spill)
        (fragments.foldl observe ⟨some vocabulary, inside, texts⟩) := by
  induction fragments generalizing spill inside texts with
  | nil => rfl
  | cons fragment rest ih =>
      obtain ⟨gathered, next⟩ := @observe_inside vocabulary fragment inside texts distinct
      rw [List.foldl_cons, List.foldl_cons, observe_withBefore distinct, next, ih]
      cases restarts : vocabulary.restarts fragment <;> simp [restarts]

/-- A run that starts with properties open differs from one that starts with none open in
what it spills, and in that they are open until a tag begins or ends some. -/
theorem foldl_of_open (distinct : vocabulary.runTag ≠ vocabulary.runPropertiesTag)
    (rest : List Fragment) :
    let fresh := rest.foldl observe ⟨some vocabulary, false, []⟩
    rest.foldl observe ⟨some vocabulary, true, []⟩ =
      withBefore ((vocabulary.spilled rest).map Fragment.text)
        { fresh with
          insideProperties := fresh.insideProperties || !rest.any vocabulary.bounds } := by
  intro fresh
  let leading := rest.takeWhile fun fragment => !vocabulary.bounds fragment
  let settled := rest.dropWhile fun fragment => !vocabulary.bounds fragment
  have parts : leading ++ settled = rest := List.takeWhile_append_dropWhile
  have unbounded : ∀ fragment ∈ leading, vocabulary.bounds fragment = false := by
    intro fragment member
    simpa using List.mem_takeWhile_imp member
  have begun : fresh = settled.foldl observe ⟨some vocabulary, false, []⟩ := by
    change rest.foldl observe _ = _
    rw [← parts, List.foldl_append, foldl_unbounded unbounded]
    rfl
  have spilled : vocabulary.spilled rest =
      if settled.any vocabulary.restarts then [] else vocabulary.sinceRun leading := rfl
  have anyBound : rest.any vocabulary.bounds = settled.any vocabulary.bounds := by
    have noBound : leading.any vocabulary.bounds = false := by simpa using unbounded
    rw [← parts, List.any_append, noBound, Bool.false_or]
  rw [begun, spilled, anyBound, ← parts, List.foldl_append, foldl_unbounded unbounded, if_pos rfl]
  cases behind : settled with
  | nil => simp [withBefore]
  | cons bound more =>
      have isBound : vocabulary.bounds bound = true := by
        have first := List.head?_dropWhile_not (fun fragment => !vocabulary.bounds fragment) rest
        rw [show rest.dropWhile _ = _ from behind] at first
        simpa using first
      have either (spill : List String) :
          (bound :: more).foldl observe ⟨some vocabulary, true, spill⟩ =
            (bound :: more).foldl observe (withBefore spill ⟨some vocabulary, false, []⟩) := by
        rw [List.foldl_cons, List.foldl_cons, observe_bound distinct isBound true false, withBefore,
          List.append_nil]
      rw [either, foldl_withBefore distinct]
      cases lost : (bound :: more).any vocabulary.restarts <;> simp [isBound]

variable {dialect : Dialect}

theorem after_run_start (known : dialect.vocabulary? = some vocabulary)
    (run : fragment.hasTag vocabulary.runTag = true) (start : fragment.tagPosition = .start)
    (history rest : List Fragment) :
    after dialect (history ++ fragment :: rest) =
      rest.foldl observe ⟨some vocabulary, vocabulary.leavesOpen history, []⟩ := by
  have first : initial dialect = ⟨some vocabulary, false, []⟩ := by rw [initial, known]
  obtain ⟨gathered, before⟩ := foldl_leavesOpen (Dialect.tags_distinct known).1 history
  rw [after, first, List.foldl_append, before, List.foldl_cons, observe_run_start run start]

/-- A run knows nothing of what stands before it if and only if no properties are left open
there. Otherwise they stay open until a tag begins or ends some, and the run has the texts
that it spills in front of its own properties. -/
theorem run_start_forgets_iff (known : dialect.vocabulary? = some vocabulary)
    (history : List Fragment) (fragment : Fragment)
    (run : fragment.hasTag vocabulary.runTag = true) (start : fragment.tagPosition = .start) :
    let later (rest : List Fragment) := after dialect (history ++ fragment :: rest)
    let fresh (rest : List Fragment) := after dialect (fragment :: rest)
    ((∀ rest, (later rest).insideProperties = (fresh rest).insideProperties ∧
        (later rest).snapshot = (fresh rest).snapshot) ↔
      vocabulary.leavesOpen history = false) ∧
    (vocabulary.leavesOpen history = true → ∀ rest,
      (later rest).insideProperties =
        ((fresh rest).insideProperties || !rest.any vocabulary.bounds) ∧
      (later rest).snapshot =
        Fragment.joined (vocabulary.spilled rest) ++ (fresh rest).snapshot) := by
  intro later fresh
  have afterHistory (rest : List Fragment) : later rest =
      rest.foldl observe ⟨some vocabulary, vocabulary.leavesOpen history, []⟩ :=
    after_run_start known run start history rest
  have afterNothing (rest : List Fragment) : fresh rest =
      rest.foldl observe ⟨some vocabulary, false, []⟩ :=
    after_run_start known run start [] rest
  have opened (unsettled : vocabulary.leavesOpen history = true) (rest : List Fragment) :
      (later rest).insideProperties =
        ((fresh rest).insideProperties || !rest.any vocabulary.bounds) ∧
      (later rest).snapshot =
        Fragment.joined (vocabulary.spilled rest) ++ (fresh rest).snapshot := by
    rw [afterHistory, unsettled, afterNothing, foldl_of_open (Dialect.tags_distinct known).1]
    exact ⟨rfl, String.join_append⟩
  refine ⟨⟨?closed, ?forgets⟩, opened⟩
  case closed =>
    intro same
    cases left : vocabulary.leavesOpen history with
    | false => rfl
    | true =>
        -- right behind the start of the run nothing has ended the open properties
        have stillOpen : (later []).insideProperties = true := by
          rw [(opened left []).1]
          simp
        have noneOpen : (fresh []).insideProperties = false := by rw [afterNothing]; rfl
        rw [(same []).1, noneOpen] at stillOpen
        contradiction
  case forgets =>
    intro settled rest
    rw [afterHistory, settled, afterNothing]
    exact ⟨rfl, rfl⟩

open Fragment in
/-- A run that is cut off in its properties. The text of the next run is taken for one. -/
theorem text_spilled_after_open_properties :
    let history := [startTag "w:r", startTag "w:rPr", emptyTag "w:b"]
    let rest := [startTag "w:t", .content 5 "plain", endTag "w:t"]
    ∃ vocabulary, Dialect.docx.vocabulary? = some vocabulary ∧
      vocabulary.leavesOpen history = true ∧
      (after .docx (history ++ startTag "w:r" :: rest)).insideProperties = true ∧
      (after .docx (history ++ startTag "w:r" :: rest)).snapshot = "<w:t>plain</w:t>" := by
  intro history rest
  refine ⟨_, rfl, by decide, ?_⟩
  obtain ⟨_, opened⟩ := run_start_forgets_iff
    (rfl : Dialect.docx.vocabulary? = some _) history (startTag "w:r") rfl rfl
  obtain ⟨inside, spills⟩ := opened (by decide) rest
  rw [inside, spills]
  decide

open Fragment in
/-- The start of a run does not forget properties that are open before it. -/
theorem run_start_remembers_open_properties :
    let later := after .docx [startTag "w:rPr", startTag "w:r", .content 2 "x"]
    let fresh := after .docx [startTag "w:r", .content 2 "x"]
    ¬ (later.insideProperties = fresh.insideProperties ∧ later.snapshot = fresh.snapshot) := by
  decide

end RunFormatting

end Stencil
