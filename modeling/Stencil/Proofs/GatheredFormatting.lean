import Stencil.Proofs.RunBoundaries

namespace Stencil

/-! The gathered formatting in closed form, for any fragments, whether their tags are
nested or not: from which fragment on texts are gathered, and which of them are. -/

namespace RunVocabulary

variable (vocabulary : RunVocabulary) (fragments : List Fragment)

def startsRun (fragment : Fragment) : Bool :=
  fragment.hasTag vocabulary.runTag && fragment.tagPosition == .start

def startsProperties (fragment : Fragment) : Bool :=
  fragment.hasTag vocabulary.runPropertiesTag && fragment.tagPosition == .start

/-- The position from which on texts are gathered: behind the last start of a run or at
the last start of run properties, whichever comes later, and otherwise the beginning. -/
def gatheredFrom : Nat :=
  match (fragments.zipIdx.filter fun (fragment, _) =>
      vocabulary.startsRun fragment || vocabulary.startsProperties fragment).getLast? with
  | some (fragment, position) =>
      if vocabulary.startsRun fragment then position + 1 else position
  | none => 0

/-- A fragment at this position is gathered if it begins run properties, ends them or is
all of them, or if it has neither of the two tags and properties are open before it. -/
def isGathered (position : Nat) (fragment : Fragment) : Bool :=
  vocabulary.bounds fragment ||
    (!decide (vocabulary.Marks fragment) && vocabulary.leavesOpen (fragments.take position))

/-- The fragments whose texts are gathered. No properties start behind the first of the
positions, so the only start among them is the one that gathering begins with. -/
def gathered : List Fragment :=
  ((fragments.zipIdx.drop (vocabulary.gatheredFrom fragments)).filter
    fun (fragment, position) => vocabulary.isGathered fragments position fragment).map Prod.fst

variable {vocabulary} {init : List Fragment} {last : Fragment}

theorem bounds_of_startsProperties (properties : vocabulary.startsProperties last = true) :
    vocabulary.bounds last = true := by
  simp only [startsProperties, Bool.and_eq_true, beq_iff_eq] at properties
  simp [bounds, properties]

theorem noProperties_of_unbounded (unbounded : vocabulary.bounds last = false) :
    vocabulary.startsProperties last = false := by
  cases properties : vocabulary.startsProperties last with
  | false => rfl
  | true =>
      rw [bounds_of_startsProperties properties] at unbounded
      contradiction

theorem gatheredFrom_of_run (run : vocabulary.startsRun last = true) :
    vocabulary.gatheredFrom (init ++ [last]) = init.length + 1 := by
  simp [gatheredFrom, List.zipIdx_append, List.filter_append, run]

theorem gatheredFrom_of_properties (noRun : vocabulary.startsRun last = false)
    (properties : vocabulary.startsProperties last = true) :
    vocabulary.gatheredFrom (init ++ [last]) = init.length := by
  simp [gatheredFrom, List.zipIdx_append, List.filter_append, noRun, properties]

theorem gatheredFrom_of_other (noRun : vocabulary.startsRun last = false)
    (noProperties : vocabulary.startsProperties last = false) :
    vocabulary.gatheredFrom (init ++ [last]) = vocabulary.gatheredFrom init := by
  simp [gatheredFrom, List.zipIdx_append, List.filter_append, noRun, noProperties]

theorem gatheredFrom_le (fragments : List Fragment) :
    vocabulary.gatheredFrom fragments ≤ fragments.length := by
  induction fragments using List.reverseRecOn with
  | nil => simp [gatheredFrom]
  | append_singleton init last ih =>
      rw [List.length_append, List.length_singleton]
      cases run : vocabulary.startsRun last with
      | true => rw [gatheredFrom_of_run run]
      | false =>
          cases properties : vocabulary.startsProperties last with
          | true =>
              rw [gatheredFrom_of_properties run properties]
              omega
          | false =>
              rw [gatheredFrom_of_other run properties]
              omega

theorem gathered_of_run (run : vocabulary.startsRun last = true) :
    vocabulary.gathered (init ++ [last]) = [] := by
  rw [gathered, gatheredFrom_of_run run, List.drop_eq_nil_of_le (by simp)]
  rfl

theorem gathered_of_properties (noRun : vocabulary.startsRun last = false)
    (properties : vocabulary.startsProperties last = true) :
    vocabulary.gathered (init ++ [last]) = [last] := by
  have bounds := bounds_of_startsProperties properties
  rw [gathered, gatheredFrom_of_properties noRun properties, List.zipIdx_append,
    List.drop_left' (by simp)]
  simp [isGathered, bounds]

theorem gathered_of_other (noRun : vocabulary.startsRun last = false)
    (noProperties : vocabulary.startsProperties last = false) :
    vocabulary.gathered (init ++ [last]) =
      vocabulary.gathered init ++
        if vocabulary.isGathered init init.length last then [last] else [] := by
  have earlier : ∀ item ∈ init.zipIdx.drop (vocabulary.gatheredFrom init),
      vocabulary.isGathered (init ++ [last]) item.2 item.1 =
        vocabulary.isGathered init item.2 item.1 := by
    rintro ⟨fragment, position⟩ member
    have inside := List.snd_lt_of_mem_zipIdx (List.mem_of_mem_drop member)
    simp only [isGathered, List.take_append_of_le_length (Nat.le_of_lt inside)]
  have here : vocabulary.isGathered (init ++ [last]) init.length last =
      vocabulary.isGathered init init.length last := by
    simp only [isGathered, List.take_left, List.take_length]
  have inside : vocabulary.gatheredFrom init ≤ init.zipIdx.length := by
    rw [List.length_zipIdx]
    exact gatheredFrom_le init
  rw [gathered, gatheredFrom_of_other noRun noProperties, List.zipIdx_append,
    List.drop_append_of_le_length inside, List.filter_append, List.filter_congr earlier,
    List.map_append, ← gathered]
  congr 1
  simp only [List.zipIdx_cons, List.zipIdx_nil, Nat.zero_add, List.filter_cons, List.filter_nil,
    here]
  split <;> rfl

end RunVocabulary

namespace RunFormatting

variable {vocabulary : RunVocabulary}

/-- One more fragment does to the state what it does to the closed form. -/
theorem observe_gathered (distinct : vocabulary.runTag ≠ vocabulary.runPropertiesTag)
    (init : List Fragment) (last : Fragment) :
    observe ⟨some vocabulary, vocabulary.leavesOpen init,
        (vocabulary.gathered init).map Fragment.text⟩ last =
      ⟨some vocabulary, vocabulary.leavesOpen (init ++ [last]),
        (vocabulary.gathered (init ++ [last])).map Fragment.text⟩ := by
  rw [RunVocabulary.leavesOpen_concat]
  cases run : last.hasTag vocabulary.runTag with
  | true =>
      have noProperties : last.hasTag vocabulary.runPropertiesTag = false := by
        rw [Fragment.hasTag_iff] at run
        simpa [Fragment.hasTag, run] using distinct
      have passed : vocabulary.bounds last = false := by simp [RunVocabulary.bounds, noProperties]
      by_cases start : last.tagPosition = .start
      · rw [observe_run_start run start,
          RunVocabulary.gathered_of_run (by simp [RunVocabulary.startsRun, run, start]), passed]
        rfl
      · have noStart : vocabulary.startsRun last = false := by
          simp [RunVocabulary.startsRun, start]
        have ungathered : vocabulary.isGathered init init.length last = false := by
          simp [RunVocabulary.isGathered, passed, RunVocabulary.Marks, run]
        rw [observe_run_other run start, RunVocabulary.gathered_of_other noStart
          (by simp [RunVocabulary.startsProperties, start]), passed, ungathered]
        simp
  | false =>
      have noStart : vocabulary.startsRun last = false := by simp [RunVocabulary.startsRun, run]
      cases properties : last.hasTag vocabulary.runPropertiesTag with
      | true =>
          cases place : last.tagPosition with
          | start =>
              have start : vocabulary.startsProperties last = true := by
                simp [RunVocabulary.startsProperties, properties, place]
              rw [observe_properties_start run properties place,
                RunVocabulary.gathered_of_properties noStart start]
              simp [RunVocabulary.bounds, properties, place]
          | «end» | selfClosing =>
              have noProperties : vocabulary.startsProperties last = false := by
                simp [RunVocabulary.startsProperties, place]
              rw [observe_properties_last run properties (by simp [place]),
                RunVocabulary.gathered_of_other noStart noProperties]
              simp [RunVocabulary.isGathered, RunVocabulary.bounds, properties, place]
          | none =>
              have noProperties : vocabulary.startsProperties last = false := by
                simp [RunVocabulary.startsProperties, place]
              rw [observe_properties_none run properties place,
                RunVocabulary.gathered_of_other noStart noProperties]
              simp [RunVocabulary.isGathered, RunVocabulary.bounds, RunVocabulary.Marks,
                properties, place]
      | false =>
          have unmarked : ¬ vocabulary.Marks last := by simp [RunVocabulary.Marks, run, properties]
          have noProperties : vocabulary.startsProperties last = false := by
            simp [RunVocabulary.startsProperties, properties]
          rw [observe_unmarked unmarked, RunVocabulary.gathered_of_other noStart noProperties]
          cases inside : vocabulary.leavesOpen init <;>
            simp [RunVocabulary.isGathered, RunVocabulary.bounds, properties, unmarked, inside]

theorem foldl_gathered (distinct : vocabulary.runTag ≠ vocabulary.runPropertiesTag)
    (fragments : List Fragment) :
    fragments.foldl observe ⟨some vocabulary, false, []⟩ =
      ⟨some vocabulary, vocabulary.leavesOpen fragments,
        (vocabulary.gathered fragments).map Fragment.text⟩ := by
  induction fragments using List.reverseRecOn with
  | nil => rfl
  | append_singleton init last ih => rw [List.foldl_concat, ih, observe_gathered distinct]

theorem after_gathered {dialect : Dialect} (known : dialect.vocabulary? = some vocabulary)
    (fragments : List Fragment) :
    after dialect fragments =
      ⟨some vocabulary, vocabulary.leavesOpen fragments,
        (vocabulary.gathered fragments).map Fragment.text⟩ := by
  rw [after, initial, known, foldl_gathered (Dialect.tags_distinct known).1]

/-- What is known of the run after any fragments. Properties are open if the last tag that
begins or ends any begins them. The snapshot is made of the texts gathered from the last
restart on. Where a dialect has no runs, nothing is ever noted. -/
theorem after_eq_gathered (dialect : Dialect) (fragments : List Fragment) :
    match dialect.vocabulary? with
    | some vocabulary =>
        (after dialect fragments).insideProperties = vocabulary.leavesOpen fragments ∧
        (after dialect fragments).snapshot = Fragment.joined (vocabulary.gathered fragments)
    | none => after dialect fragments = .initial dialect := by
  cases known : dialect.vocabulary? with
  | none =>
      have unknown : (initial dialect).vocabulary? = none := known
      exact foldl_without_vocabulary unknown
  | some vocabulary =>
      rw [after_gathered known]
      exact ⟨rfl, rfl⟩

/-- Properties that a run start leaves open go on being gathered in that run. -/
example :
    let fragments := [.tag 0 "w:rPr" .start "<w:rPr>", .content 1 "lost",
      .tag 2 "w:r" .start "<w:r>", .content 3 "kept", .tag 4 "w:rPr" .end "</w:rPr>"]
    (after .docx fragments).snapshot = "kept</w:rPr>" := by
  decide

end RunFormatting

end Stencil
