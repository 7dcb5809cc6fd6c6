import Stencil.Proofs.Suppliers

namespace Stencil

variable {ε : Type} {language : Language ε} {fragments : List Fragment} {fragment : Fragment}
  {position : Nat} {compiled : ε}

theorem Language.Supplies.accepted
    (supplies : language.Supplies fragments fragment.streamIndex position compiled)
    (found : fragments[position]? = some fragment)
    (placeholder : fragment.isPlaceholder = true) :
    language.parse fragment.expression fragment = .ok compiled :=
  (Cache.compileOne_eq_ok_iff.mp
    ((Cache.compileOne_take_iff found placeholder).mpr supplies)).2

theorem Cache.resolver_of_supplies {index : Nat}
    (supplies : language.Supplies fragments index position compiled)
    (indexed : fragment.streamIndex = index) (data : Value) (expression : String) :
    ((∅ : Cache ε).compile language fragments).1.resolver language data expression fragment =
      language.evaluate compiled data := by
  have present := (language.findSome?_supplied fragments index).mpr ⟨position, supplies⟩
  rw [← getElem?_compile, ← indexed] at present
  simp [resolver, present]

theorem Cache.resolver_of_unsupplied
    (unsupplied : ∀ other ∈ fragments, language.supplied? fragment.streamIndex other = none)
    (data : Value) (expression : String) :
    ((∅ : Cache ε).compile language fragments).1.resolver language data expression fragment =
      .error (.notCompiled expression fragment.streamIndex) := by
  have absent := List.findSome?_eq_none_iff.mpr unsupplied
  rw [← getElem?_compile] at absent
  simp [resolver, absent]

/-- A placeholder that compiled is answered with its own value. One that is reported is
answered with an error, unless another placeholder supplied its stream index: then with
the value of that one. -/
theorem resolver_answers_by_index (language : Language ε) (fragments : List Fragment)
    (data : Value) (position : Nat) (fragment : Fragment)
    (found : fragments[position]? = some fragment)
    (placeholder : fragment.isPlaceholder = true) :
    let (cache, errors) := (∅ : Cache ε).compile language fragments
    let answer := cache.resolver language data fragment.expression fragment
    ((∀ error ∈ errors, error.position ≠ position) →
      ∃ compiled, language.parse fragment.expression fragment = .ok compiled ∧
        answer = language.evaluate compiled data) ∧
    ((∃ error ∈ errors, error.position = position) →
      (∃ other compiled, other ≠ position ∧
        language.Supplies fragments fragment.streamIndex other compiled ∧
        answer = language.evaluate compiled data) ∨
      ((∀ other ∈ fragments, language.supplied? fragment.streamIndex other = none) ∧
        answer = .error (.notCompiled fragment.expression fragment.streamIndex))) := by
  constructor
  · intro unreported
    obtain ⟨compiled, supplies⟩ := (Cache.unreported_iff language found placeholder).mp unreported
    exact ⟨compiled, supplies.accepted found placeholder,
      Cache.resolver_of_supplies supplies rfl data _⟩
  · rintro ⟨error, member, reported⟩
    cases first : fragments.findSome? (language.supplied? fragment.streamIndex) with
    | none =>
        have unsupplied := List.findSome?_eq_none_iff.mp first
        exact .inr ⟨unsupplied, Cache.resolver_of_unsupplied unsupplied data _⟩
    | some compiled =>
        obtain ⟨other, supplies⟩ := (language.findSome?_supplied fragments _).mp first
        refine .inl ⟨other, compiled, ?_, supplies, Cache.resolver_of_supplies supplies rfl data _⟩
        rintro rfl
        -- the supplier itself is never reported
        have unreported := Cache.unreported_iff language found placeholder
        exact unreported.mpr ⟨compiled, supplies⟩ error member reported

/-- Of two placeholders with one stream index the second has the name of a member, but
is answered with the whole data, which is what the first one asks for. -/
theorem colliding_placeholder_gets_other_value :
    ¬ ∀ (fragments : List Fragment) (data : Value) (fragment : Fragment),
      fragment ∈ fragments → fragment.isPlaceholder = true →
        let answer := ((∅ : Cache Path).compile Path.language fragments).1.resolver Path.language
          data fragment.expression fragment
        (∃ compiled, Path.language.parse fragment.expression fragment = .ok compiled ∧
          answer = Path.language.evaluate compiled data) ∨ ∃ cause, answer = .error cause := by
  intro claim
  have answers := claim [.placeholder 0 "." 0, .placeholder 0 "b" 3]
    (.object [("b", .string "B")]) (.placeholder 0 "b" 3) (by simp) rfl
  have answered : ((∅ : Cache Path).compile Path.language
      [.placeholder 0 "." 0, .placeholder 0 "b" 3]).1.resolver Path.language
        (.object [("b", .string "B")]) "b" (.placeholder 0 "b" 3) =
      .ok (some (.object [("b", .string "B")])) := rfl
  have parsed : Path.language.parse "b" (.placeholder 0 "b" 3) = .ok (.segments ["b"]) := rfl
  rcases answers with ⟨compiled, accepted, own⟩ | ⟨cause, failed⟩
  · cases parsed.symm.trans accepted
    cases answered.symm.trans own
  · cases answered.symm.trans failed

theorem whole_data_for_colliding_placeholder :
    [Fragment.placeholder 0 "." 0, .placeholder 0 "b" 3][1]? = some (.placeholder 0 "b" 3) ∧
      (Fragment.placeholder 0 "b" 3).isPlaceholder = true ∧
      ∃ other compiled, other ≠ 1 ∧
        Path.language.Supplies [.placeholder 0 "." 0, .placeholder 0 "b" 3] 0 other compiled ∧
        .ok (some (.object [("b", .string "B")])) =
          Path.language.evaluate compiled (.object [("b", .string "B")]) := by
  refine ⟨rfl, rfl, ?_⟩
  obtain ⟨_, reported⟩ := resolver_answers_by_index Path.language
    [.placeholder 0 "." 0, .placeholder 0 "b" 3] (.object [("b", .string "B")]) 1 _ rfl rfl
  rcases reported ⟨⟨"b", 3, 1, .indexTaken 0⟩, by decide, rfl⟩ with answered | ⟨_, failed⟩
  · exact answered
  · cases failed

end Stencil
