import Stencil.Proofs.CompiledValues
import Stencil.Proofs.Failures

namespace Stencil

variable {ε : Type} {language : Language ε} {options : Options} {nullPolicy : NullPolicy}
  {data : Value} {fragments : List Fragment} {fragment : Fragment} {position : Nat}

theorem RenderError.IsAbout.unclaimed {error : RenderError}
    (about : error.IsAbout fragments position) (found : fragments[position]? = some fragment) :
    fragment.isClaimed = false := by
  obtain ⟨other, present, _, unclaimed, _⟩ := about
  rw [found, Option.some.injEq] at present
  rwa [present]

theorem unclaimed_of_renderFailure
    (failed : position ∈ (renderPart language options nullPolicy fragments data).renderFailures)
    (found : fragments[position]? = some fragment) : fragment.isClaimed = false := by
  have about := renderErrors_about_renderFailures language options nullPolicy fragments data
  have unclaimed := (List.forall₂_and_left _ _).mp (about.imp fun position error isAbout =>
    (⟨fun _ found => isAbout.unclaimed found, isAbout⟩ :
      (∀ fragment, fragments[position]? = some fragment → fragment.isClaimed = false) ∧
        error.IsAbout fragments position))
  exact unclaimed.1 position failed fragment found

/-- A claimed placeholder that compiles is left to its module without any error. One
that does not compile has one compile error. In both cases it is not rendered, and no
render error is about it. -/
theorem claimed_never_rendered (language : Language ε) (options : Options)
    (nullPolicy : NullPolicy) (fragments : List Fragment) (data : Value)
    (position : Nat) (fragment : Fragment) (found : fragments[position]? = some fragment)
    (placeholder : fragment.isPlaceholder = true) (claimed : fragment.isClaimed = true) :
    let report := renderPart language options nullPolicy fragments data
    ((∃ compiled, language.Supplies fragments fragment.streamIndex position compiled) →
      report.outputs[position]? = some .claimed ∧
        ∀ error ∈ report.compileErrors, error.position ≠ position) ∧
    ((¬ ∃ compiled, language.Supplies fragments fragment.streamIndex position compiled) →
      report.outputs[position]? = some .failed ∧
        ∃ cause, report.compileErrors.filter (·.position = position) =
          [⟨fragment.expression, fragment.sourceOffset, position, cause⟩]) ∧
    position ∉ report.renderFailures ∧
    List.Forall₂ (fun failed error => error.IsAbout fragments failed)
      report.renderFailures report.renderErrors := by
  refine ⟨?compiled, ?refused, ?unrendered, renderErrors_about_renderFailures ..⟩
  case compiled =>
    intro supplied
    refine ⟨?_, (Cache.unreported_iff language found placeholder).mpr supplied⟩
    obtain ⟨compiled, supplies⟩ := supplied
    rw [renderPart_outputs, List.getElem?_map,
      OnePass.entry_of_supplies options nullPolicy data found placeholder supplies, claimed]
    rfl
  case refused =>
    intro unsupplied
    obtain ⟨cause, refused⟩ := OnePass.entry_of_unsupplied options nullPolicy data found
      placeholder (not_exists.mp unsupplied)
    refine ⟨by rw [renderPart_outputs, List.getElem?_map, refused]; rfl, ?_⟩
    exact Cache.error_at_of_unsupplied found placeholder (not_exists.mp unsupplied)
  case unrendered =>
    intro failed
    rw [unclaimed_of_renderFailure failed found] at claimed
    contradiction

theorem Path.language_parse (expression : String) (fragment : Fragment) :
    Path.language.parse expression fragment = (Path.parse expression).mapError .path := rfl

/-- The start of a loop. The sign before the name is no part of a path. -/
def Fragment.loopStart : Fragment :=
  (Fragment.placeholder 1 "#items" 8).ownedBy "loop"

theorem loopStart_unsupplied (found : fragments[position]? = some .loopStart) (path : Path) :
    ¬ Path.language.Supplies fragments Fragment.loopStart.streamIndex position path := by
  intro supplies
  have refused : Path.parse "#items" = .error (.unexpectedCharacter '#' "#items") := by
    decide +kernel
  have expression : Fragment.loopStart.expression = "#items" := rfl
  have accepted := supplies.accepted found rfl
  rw [Path.language_parse, expression, refused] at accepted
  cases accepted

theorem claimed_loop_start_fails :
    ¬ ∀ (fragments : List Fragment) (data : Value) (position : Nat) (fragment : Fragment),
      fragments[position]? = some fragment → fragment.isPlaceholder = true →
        fragment.isClaimed = true →
        let report := renderPart Path.language {} .standard fragments data
        report.outputs[position]? = some .claimed ∧
          ∀ error ∈ report.compileErrors, error.position ≠ position := by
  intro claim
  have left := (claim [.loopStart] .null 0 .loopStart rfl rfl rfl).1
  have found : [Fragment.loopStart][0]? = some .loopStart := rfl
  obtain ⟨cause, refused⟩ := OnePass.entry_of_unsupplied {} .standard .null found rfl
    (loopStart_unsupplied found)
  rw [renderPart_outputs, List.getElem?_map, refused] at left
  cases left

def Fragment.rawMarkup : Fragment :=
  (Fragment.placeholder 0 "." 0).ownedBy "rawxml"

theorem claimed_placeholders_not_rendered :
    let report := renderPart Path.language {} .standard [.rawMarkup, .loopStart] .null
    (Fragment.rawMarkup.isPlaceholder = true ∧ Fragment.rawMarkup.isClaimed = true ∧
        report.outputs[0]? = some .claimed) ∧
      (Fragment.loopStart.isPlaceholder = true ∧ Fragment.loopStart.isClaimed = true ∧
        report.outputs[1]? = some .failed) := by
  obtain ⟨compiled, _⟩ := claimed_never_rendered Path.language {} .standard
    [.rawMarkup, .loopStart] .null 0 .rawMarkup rfl rfl rfl
  obtain ⟨_, refused, _⟩ := claimed_never_rendered Path.language {} .standard
    [.rawMarkup, .loopStart] .null 1 .loopStart rfl rfl rfl
  have supplied : ∃ path, Path.language.Supplies [.rawMarkup, .loopStart] 0 0 path :=
    ⟨.current, rfl, by simp⟩
  have unsupplied : ¬ ∃ path, Path.language.Supplies [.rawMarkup, .loopStart] 1 1 path :=
    not_exists.mpr (loopStart_unsupplied rfl)
  exact ⟨⟨rfl, rfl, (compiled supplied).1⟩, ⟨rfl, rfl, (refused unsupplied).1⟩⟩

end Stencil
