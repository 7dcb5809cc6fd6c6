import Stencil.Proofs.PathEvaluation
import Stencil.Proofs.Siblings

namespace Stencil

/-! Members that are null against members that are missing. No path tells them apart, since
null leads to nothing further and a placeholder takes null for nothing. So data may as well be
given without such members: only the text of arrays and objects as a whole can show it. -/

namespace Value

mutual

/-- The data without the members that are null, in objects of any depth. The items of arrays
keep their places. -/
def pruned : Value → Value
  | .array items => .array (prunedItems items)
  | .object members => .object (prunedMembers members)
  | value => value

def prunedItems : List Value → List Value
  | [] => []
  | item :: rest => item.pruned :: prunedItems rest

def prunedMembers : List (String × Value) → List (String × Value)
  | [] => []
  | (key, value) :: rest =>
      if value.isNull then prunedMembers rest else (key, value.pruned) :: prunedMembers rest

end

/-- What is there of a value that may be missing, if null counts as missing too. -/
def present (resolved : Option Value) : Option Value :=
  resolved.filter fun value => !value.isNull

def IsScalar : Value → Prop
  | .array _ | .object _ => False
  | _ => True

variable {value : Value} {members : List (String × Value)}

theorem present_some (value : Value) :
    present (some value) = if value.isNull then none else some value := by
  rw [present, Option.filter_some]
  cases value.isNull <;> rfl

theorem pruned_of_isScalar (scalar : value.IsScalar) : value.pruned = value := by
  cases value with
  | array _ | object _ => contradiction
  | null | bool _ | number _ | string _ => rw [pruned] <;> simp

theorem isNull_pruned (value : Value) : value.pruned.isNull = value.isNull := by
  cases value <;> simp [pruned, isNull]

theorem prunedItems_eq_map (items : List Value) : prunedItems items = items.map pruned := by
  induction items with
  | nil => rfl
  | cons item rest ih => rw [prunedItems, ih, List.map_cons]

/-- A member is found in the pruned object if it is there and not null. -/
theorem lookup_prunedMembers (nodup : (members.map Prod.fst).Nodup) (key : String) :
    (prunedMembers members).lookup key = (present (members.lookup key)).map pruned := by
  induction members with
  | nil => rfl
  | cons member rest ih =>
      obtain ⟨first, value⟩ := member
      obtain ⟨new, nodup⟩ := List.nodup_cons.mp nodup
      have tail := ih nodup
      rw [prunedMembers]
      by_cases same : key = first
      · subst same
        have absent : (Record.mk rest).field? key = none := Record.field?_eq_none_iff.mpr new
        rw [Record.field?] at absent
        rw [List.lookup_cons_self]
        split
        · rename_i null
          rw [tail, absent, present_some, if_pos null]
          rfl
        · rename_i kept
          rw [List.lookup_cons_self, present_some, if_neg kept, Option.map_some]
      · rw [List.lookup_cons, beq_false_of_ne same]
        split
        · exact tail
        · rw [List.lookup_cons, beq_false_of_ne same]
          exact tail

end Value

open Value (present)

namespace Path

variable {data : Value} {name : String}

theorem present_step?_pruned (distinct : data.KeysDistinct) (name : String) :
    present (step? data.pruned name) = present ((step? data name).map Value.pruned) := by
  cases data with
  | null | bool _ | number _ | string _ => rfl
  | array items =>
      rw [Value.pruned, Value.prunedItems_eq_map, step?, step?, Option.map_bind]
      congr 2
      funext index
      exact List.getElem?_map
  | object members =>
      rw [Value.pruned, step?, step?, Value.member?, Value.member?,
        Value.lookup_prunedMembers distinct.1]
      cases members.lookup name with
      | none => rfl
      | some value =>
          rw [Option.map_some, Value.present_some, Value.present_some, Value.isNull_pruned]
          cases null : value.isNull with
          | true => rfl
          | false => simp [Value.present_some, Value.isNull_pruned, null]

/-- Nothing lies behind null. -/
theorem present_bind_follow? (resolved : Option Value) (names : List String) :
    present (resolved.bind (follow? · names)) =
      present ((present resolved).bind (follow? · names)) := by
  cases resolved with
  | none => rfl
  | some value =>
      cases value with
      | null => cases names <;> rfl
      | bool _ | number _ | string _ | array _ | object _ => rfl

theorem present_follow?_pruned (distinct : data.KeysDistinct) (names : List String) :
    present (follow? data.pruned names) = present ((follow? data names).map Value.pruned) := by
  induction names generalizing data with
  | nil => rfl
  | cons name names ih =>
      rw [follow?, follow?, present_bind_follow?, present_step?_pruned distinct,
        ← present_bind_follow?]
      cases first : step? data name with
      | none => rfl
      | some next =>
          have steps := (step?_eq_some_iff distinct).mp first
          exact ih (steps.keysDistinct distinct)

theorem language_parse_eq_ok_iff {expression : String} {fragment : Fragment} {path : Path} :
    language.parse expression fragment = .ok path ↔ parse expression = .ok path := by
  have same : language.parse expression fragment = (parse expression).mapError .path := rfl
  rw [same]
  cases parse expression <;> simp [Except.mapError]

theorem present_evaluate_pruned (path : Path) (distinct : data.KeysDistinct) :
    present (path.evaluate data.pruned) = present ((path.evaluate data).map Value.pruned) := by
  rw [evaluate_eq_follow?, evaluate_eq_follow?, present_follow?_pruned distinct]

end Path

/-- What the expression of the placeholder leads to, if to anything, is neither an array nor an
object. -/
def Fragment.ResolvesToScalar (data : Value) (fragment : Fragment) : Prop :=
  ∀ path value, Path.parse fragment.expression = .ok path → path.evaluate data = some value →
    value.IsScalar

theorem NullPolicy.apply_eq_getD (nullPolicy : NullPolicy) (fragment : Fragment)
    (resolved : Option Value) :
    nullPolicy.apply fragment resolved = (present resolved).getD (nullPolicy fragment) := by
  cases resolved with
  | none => rfl
  | some value => cases null : value.isNull <;> simp [apply, Value.present_some, null]

variable {options : Options} {nullPolicy : NullPolicy} {data : Value} {fragment : Fragment}
  {fragments : List Fragment} {position : Nat}

theorem apply_evaluate_pruned {path : Path} (distinct : data.KeysDistinct)
    (scalar : ∀ value, path.evaluate data = some value → value.IsScalar) :
    nullPolicy.apply fragment (path.evaluate data.pruned) =
      nullPolicy.apply fragment (path.evaluate data) := by
  have same : (path.evaluate data).map Value.pruned = path.evaluate data := by
    cases found : path.evaluate data with
    | none => rfl
    | some value => rw [Option.map_some, Value.pruned_of_isScalar (scalar value found)]
  rw [NullPolicy.apply_eq_getD, NullPolicy.apply_eq_getD,
    Path.present_evaluate_pruned path distinct, same]

namespace OnePass

theorem entry_pruned (options : Options) (nullPolicy : NullPolicy) (memory : Memory)
    (position : Nat) (distinct : data.KeysDistinct) (scalar : fragment.ResolvesToScalar data) :
    (step Path.language options nullPolicy data.pruned position memory fragment).2 =
      (step Path.language options nullPolicy data position memory fragment).2 := by
  simp only [step]
  split
  · split
    · rfl
    · split
      · rfl
      · rename_i path accepted
        have parsed := Path.language_parse_eq_ok_iff.mp accepted
        have filled (properties : String) :
            fill options nullPolicy properties fragment (Path.language.evaluate path data.pruned) =
              fill options nullPolicy properties fragment (Path.language.evaluate path data) := by
          simp only [fill, Path.language, apply_evaluate_pruned distinct (scalar path · parsed)]
        rw [filled]
  · rfl

end OnePass

open OnePass

theorem entry_of_run_pruned (options : Options) (nullPolicy : NullPolicy)
    (distinct : data.KeysDistinct) (found : fragments[position]? = some fragment)
    (scalar : fragment.ResolvesToScalar data) :
    (run Path.language options nullPolicy data.pruned fragments)[position]? =
      (run Path.language options nullPolicy data fragments)[position]? := by
  rw [getElem?_run found, getElem?_run found, after_of_data data,
    entry_pruned options nullPolicy _ position distinct scalar]

/-- A path leads in the pruned data to the pruned part of the data, where null and nothing are
the same. Hence all expressions that lead to scalars, null or nothing have the same outcome in
both. -/
theorem null_members_count_for_nothing (options : Options) (nullPolicy : NullPolicy)
    (fragments : List Fragment) (data : Value) (distinct : data.KeysDistinct) :
    let report := renderPart Path.language options nullPolicy fragments data
    let pruned := renderPart Path.language options nullPolicy fragments data.pruned
    (∀ path : Path,
      present (path.evaluate data.pruned) = present ((path.evaluate data).map Value.pruned)) ∧
    pruned.compileErrors = report.compileErrors ∧
    (∀ (position : Nat) (fragment : Fragment), fragments[position]? = some fragment →
      fragment.isPlaceholder = true → fragment.ResolvesToScalar data →
        pruned.outputs[position]? = report.outputs[position]? ∧
        ∀ error, (position, error) ∈ pruned.placedRenderErrors ↔
          (position, error) ∈ report.placedRenderErrors) ∧
    (report.placedRenderErrors.map Prod.snd = report.renderErrors ∧
      pruned.placedRenderErrors.map Prod.snd = pruned.renderErrors) := by
  intro report pruned
  refine ⟨(Path.present_evaluate_pruned · distinct), rfl, ?same,
    map_placedRenderErrors Path.language options nullPolicy fragments data,
    map_placedRenderErrors Path.language options nullPolicy fragments data.pruned⟩
  case same =>
    intro position fragment found _ scalar
    have entry := entry_of_run_pruned options nullPolicy distinct found scalar
    constructor
    · simp only [pruned, report, renderPart_outputs, List.getElem?_map, entry]
    · intro error
      simp only [pruned, report, renderPart_placedRenderErrors, mem_placedErrors_iff, entry]

/-- A null member below an array is replaced by the policy like a missing one, and a text beside
it is refused for the same character. -/
theorem null_member_below_array :
    let data := Value.object
      [("a", .array [.null, .object [("b", .null), ("c", .string "\x01")]]), ("d", .null)]
    let fragments := [Fragment.placeholder 0 "a.1.b" 0, .placeholder 1 "a.1.c" 7]
    let report := renderPart Path.language {} .standard fragments data
    let pruned := renderPart Path.language {} .standard fragments data.pruned
    let refused := RenderError.forbiddenCharacters "a.1.c" "\x01" 7
    data.KeysDistinct ∧ (∀ fragment ∈ fragments, fragment.ResolvesToScalar data) ∧
      report.outputs[0]? = some (.rendered (.escaped "undefined")) ∧
      pruned.outputs[0]? = some (.rendered (.escaped "undefined")) ∧
      (1, refused) ∈ report.placedRenderErrors ∧ (1, refused) ∈ pruned.placedRenderErrors := by
  intro data fragments report pruned refused
  have distinct : data.KeysDistinct := by
    simp [data, Value.KeysDistinct, Value.MemberKeysDistinct, Value.ItemKeysDistinct]
  have scalar : ∀ fragment ∈ fragments, fragment.ResolvesToScalar data := by
    intro fragment member path value read found
    have texts : Path.parse "a.1.b" = .ok (.segments ["a", "1", "b"]) ∧
        Path.parse "a.1.c" = .ok (.segments ["a", "1", "c"]) := ⟨rfl, rfl⟩
    simp only [fragments, List.mem_cons, List.not_mem_nil, or_false] at member
    rcases member with rfl | rfl
    · cases texts.1.symm.trans read
      cases found
      trivial
    · cases texts.2.symm.trans read
      cases found
      trivial
  have filled : report.outputs[0]? = some (.rendered (.escaped "undefined")) := by
    simp only [report, renderPart_outputs]
    rfl
  have failed : (1, refused) ∈ report.placedRenderErrors := by
    simp only [report, renderPart_placedRenderErrors]
    exact List.mem_cons_self
  obtain ⟨_, _, same, _⟩ :=
    null_members_count_for_nothing {} .standard fragments data distinct
  have missing := same 0 _ rfl rfl (scalar _ List.mem_cons_self)
  have beside := same 1 _ rfl rfl (scalar _ (List.mem_cons_of_mem _ List.mem_cons_self))
  exact ⟨distinct, scalar, filled, missing.1.trans filled, failed, (beside.2 refused).mpr failed⟩

end Stencil
