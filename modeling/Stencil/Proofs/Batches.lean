import Mathlib.Data.List.Basic
import Mathlib.Data.List.Induction
import Stencil.Proofs.Suppliers

namespace Stencil

/-! Compiling several lists of fragments one after another over the same cache. The
first placeholder whose expression is accepted fills an index for good, in whatever
list it stands, and every placeholder that fills no index is reported with the list
that it stands in. -/

variable {ε : Type}

/-- Gives the last cache and the errors of each batch. -/
def Cache.compileBatches (language : Language ε) (cache : Cache ε) :
    List (List Fragment) → Cache ε × List (List CompileError)
  | [] => (cache, [])
  | batch :: rest =>
      let (next, errors) := cache.compile language batch
      let (last, others) := compileBatches language next rest
      (last, errors :: others)

/-- The cache once some number of the batches have been compiled. -/
def Cache.afterBatches (language : Language ε) (cache : Cache ε)
    (batches : List (List Fragment)) (number : Nat) : Cache ε :=
  (cache.compileBatches language (batches.take number)).1

/-- The indices that lead to something after, but did not before. -/
def Cache.added (before after : Cache ε) : List Nat :=
  after.keys.filter fun index => !before.contains index

namespace Language

/-- What an index leads to once fragments have been compiled over a cache: what it
led to before, else the expression of the first placeholder that has one for it. -/
def firstSuccess? (language : Language ε) (cache : Cache ε) (fragments : List Fragment)
    (index : Nat) : Option ε :=
  cache[index]?.or (fragments.findSome? (language.supplied? index))

/-- What a placeholder after other fragments adds to the cache, or why it adds nothing.
If its index is filled already, its expression does not matter. -/
def addition (language : Language ε) (cache : Cache ε) (before : List Fragment)
    (fragment : Fragment) : Except Cause ε :=
  if (language.firstSuccess? cache before fragment.streamIndex).isSome then
    .error (.indexTaken fragment.streamIndex)
  else language.parse fragment.expression fragment

def refusal? (language : Language ε) (cache : Cache ε) (before : List Fragment)
    (position : Nat) (fragment : Fragment) : Option CompileError :=
  if fragment.isPlaceholder then
    match language.addition cache before fragment with
    | .ok _ => none
    | .error cause => some ⟨fragment.expression, fragment.sourceOffset, position, cause⟩
  else none

/-- The errors of the placeholders of a batch that add nothing, in their order. Their
positions are those in the batch. -/
def refusals (language : Language ε) (cache : Cache ε) (before batch : List Fragment) :
    List CompileError :=
  batch.zipIdx.filterMap fun (fragment, position) =>
    language.refusal? cache (before ++ batch.take position) position fragment

variable {language : Language ε} {cache : Cache ε} {before : List Fragment}

theorem firstSuccess?_append (first second : List Fragment) (index : Nat) :
    language.firstSuccess? cache (first ++ second) index =
      (language.firstSuccess? cache first index).or
        (second.findSome? (language.supplied? index)) := by
  rw [firstSuccess?, firstSuccess?, List.findSome?_append, Option.or_assoc]

theorem addition_eq_ok_iff {fragment : Fragment} {compiled : ε} :
    language.addition cache before fragment = .ok compiled ↔
      language.firstSuccess? cache before fragment.streamIndex = none ∧
        language.parse fragment.expression fragment = .ok compiled := by
  unfold addition
  cases language.firstSuccess? cache before fragment.streamIndex <;> simp

/-- Once a placeholder has added its expression, nothing after it counts. -/
theorem firstSuccess?_of_addition {fragment : Fragment} {compiled : ε}
    (placeholder : fragment.isPlaceholder = true)
    (added : language.addition cache before fragment = .ok compiled) (rest : List Fragment) :
    language.firstSuccess? cache (before ++ fragment :: rest) fragment.streamIndex =
      some compiled := by
  obtain ⟨free, accepted⟩ := addition_eq_ok_iff.mp added
  rw [firstSuccess?_append, free, List.findSome?_cons, supplied?_of_accepted placeholder accepted]
  rfl

theorem refusals_concat (batch : List Fragment) (last : Fragment) :
    language.refusals cache before (batch ++ [last]) =
      language.refusals cache before batch ++
        (language.refusal? cache (before ++ batch) batch.length last).toList := by
  have whole : (batch ++ [last]).take batch.length = batch := List.take_left' rfl
  rw [refusals, List.zipIdx_append, List.filterMap_append]
  congr 1
  · refine List.filterMap_congr fun ⟨fragment, position⟩ member => ?_
    have inside := (List.mem_zipIdx member).2.1
    dsimp only
    rw [List.take_append_of_le_length (by omega)]
  · simp only [List.zipIdx_singleton, Nat.zero_add, List.filterMap_cons, whole]
    cases language.refusal? cache (before ++ batch) batch.length last <;> rfl

end Language

namespace Cache

variable {language : Language ε} {cache held : Cache ε} {before : List Fragment}
  {fragment : Fragment}

theorem compileOne_eq_addition
    (holds : ∀ index, held[index]? = language.firstSuccess? cache before index) :
    held.compileOne language fragment = language.addition cache before fragment := by
  rw [compileOne, Std.TreeMap.contains_eq_isSome_getElem?, holds, Language.addition]

theorem errors_of_singleton (position : Nat)
    (holds : ∀ index, held[index]? = language.firstSuccess? cache before index) :
    (compileFrom language position held [fragment]).2 =
      (language.refusal? cache before position fragment).toList := by
  rw [Language.refusal?, ← compileOne_eq_addition holds]
  cases kind : fragment.isPlaceholder with
  | false => rw [compileFrom_of_not_placeholder kind]; rfl
  | true =>
      cases result : held.compileOne language fragment with
      | ok compiled => rw [compileFrom_of_compiled kind result]; rfl
      | error cause => rw [compileFrom_of_refused kind result]; rfl

/-- The errors of a batch by what the fragments before it and the batch itself supply. -/
theorem errors_of_batch (batch : List Fragment)
    (holds : ∀ index, held[index]? = language.firstSuccess? cache before index) :
    (held.compile language batch).2 = language.refusals cache before batch := by
  rw [compile]
  -- from the end, so that the part before the last placeholder is a batch itself
  induction batch using List.reverseRecOn with
  | nil => rfl
  | append_singleton init last ih =>
      have filled (index : Nat) : (compileFrom language 0 held init).1[index]? =
          language.firstSuccess? cache (before ++ init) index := by
        rw [getElem?_compileFrom, holds, Language.firstSuccess?_append]
      rw [compileFrom_append, Language.refusals_concat, ih, Nat.zero_add,
        errors_of_singleton init.length filled]

theorem length_errors_add_size (language : Language ε) (position : Nat) (cache : Cache ε)
    (fragments : List Fragment) :
    (compileFrom language position cache fragments).2.length +
        (compileFrom language position cache fragments).1.size =
      cache.size + fragments.countP Fragment.isPlaceholder := by
  induction fragments generalizing cache position with
  | nil => simp [compileFrom]
  | cons fragment rest ih =>
      cases kind : fragment.isPlaceholder with
      | false =>
          rw [compileFrom_of_not_placeholder kind, ih, List.countP_cons_of_neg (by simp [kind])]
      | true =>
          rw [List.countP_cons_of_pos kind]
          cases result : cache.compileOne language fragment with
          | ok compiled =>
              have free : cache.contains fragment.streamIndex = false := by
                rw [Std.TreeMap.contains_eq_isSome_getElem?, absent_of_compiled result]
                rfl
              rw [compileFrom_of_compiled kind result, ih, Std.TreeMap.size_insert, free]
              simp only [Bool.false_eq_true, if_false]
              omega
          | error cause =>
              have tail := ih (position + 1) cache
              rw [compileFrom_of_refused kind result, List.length_cons]
              dsimp only
              omega

theorem mem_added {first last : Cache ε} {index : Nat} :
    index ∈ first.added last ↔ first[index]? = none ∧ last[index]?.isSome = true := by
  rw [added, List.mem_filter, Std.TreeMap.mem_keys, Std.TreeMap.mem_iff_isSome_getElem?,
    Std.TreeMap.contains_eq_isSome_getElem?, Bool.not_eq_true', Option.isSome_eq_false_iff,
    Option.isNone_iff_eq_none, and_comm]

/-- Where nothing is lost, the added indices make up the difference in size. -/
theorem length_added {first last : Cache ε}
    (kept : ∀ index, first.contains index = true → last.contains index = true) :
    (first.added last).length + first.size = last.size := by
  have shared : (last.keys.filter first.contains).Perm first.keys := by
    refine (List.perm_ext_iff_of_nodup (Std.TreeMap.nodup_keys.filter _)
      Std.TreeMap.nodup_keys).mpr fun index => ?_
    rw [List.mem_filter, Std.TreeMap.mem_keys, Std.TreeMap.mem_keys,
      ← Std.TreeMap.contains_iff_mem, ← Std.TreeMap.contains_iff_mem]
    exact ⟨And.right, fun present => ⟨kept index present, present⟩⟩
  have negated : (fun index => decide ¬ first.contains index = true) =
      fun index => !first.contains index := by
    funext index
    cases first.contains index <;> rfl
  have split := List.length_eq_countP_add_countP first.contains (l := last.keys)
  rw [negated, List.countP_eq_length_filter, List.countP_eq_length_filter, shared.length_eq,
    Std.TreeMap.length_keys, Std.TreeMap.length_keys] at split
  rw [added, split, Nat.add_comm]

theorem compileBatches_append (language : Language ε) (cache : Cache ε)
    (first second : List (List Fragment)) :
    cache.compileBatches language (first ++ second) =
      (((cache.compileBatches language first).1.compileBatches language second).1,
        (cache.compileBatches language first).2 ++
          ((cache.compileBatches language first).1.compileBatches language second).2) := by
  induction first generalizing cache with
  | nil => rfl
  | cons batch rest ih => simp only [List.cons_append, compileBatches, ih]

theorem length_compileBatches (language : Language ε) (cache : Cache ε)
    (batches : List (List Fragment)) :
    (cache.compileBatches language batches).2.length = batches.length := by
  induction batches generalizing cache with
  | nil => rfl
  | cons batch rest ih => simp only [compileBatches, List.length_cons, ih]

theorem getElem?_compileBatches (language : Language ε) (cache : Cache ε)
    (batches : List (List Fragment)) (index : Nat) :
    (cache.compileBatches language batches).1[index]? =
      language.firstSuccess? cache batches.flatten index := by
  induction batches generalizing cache with
  | nil => simp [compileBatches, Language.firstSuccess?]
  | cons batch rest ih =>
      have first := getElem?_compileFrom language 0 cache batch index
      rw [compileBatches, List.flatten_cons, Language.firstSuccess?_append,
        Language.firstSuccess?, ← first]
      exact ih _

variable {batches : List (List Fragment)} {number : Nat} {batch : List Fragment}

theorem afterBatches_succ (language : Language ε) (cache : Cache ε)
    (found : batches[number]? = some batch) :
    cache.afterBatches language batches (number + 1) =
      ((cache.afterBatches language batches number).compile language batch).1 := by
  rw [afterBatches, List.take_add_one, found, Option.toList_some, compileBatches_append]
  rfl

theorem getElem?_afterBatches (language : Language ε) (cache : Cache ε)
    (batches : List (List Fragment)) (number index : Nat) :
    (cache.afterBatches language batches number)[index]? =
      language.firstSuccess? cache (batches.take number).flatten index :=
  getElem?_compileBatches language cache (batches.take number) index

/-- No batch changes or removes an entry. -/
theorem afterBatches_keeps {earlier later index : Nat} {compiled : ε} (order : earlier ≤ later)
    (present : (cache.afterBatches language batches earlier)[index]? = some compiled) :
    (cache.afterBatches language batches later)[index]? = some compiled := by
  have extended : batches.take later =
      batches.take earlier ++ (batches.take later).drop earlier := by
    calc batches.take later
        = (batches.take later).take earlier ++ (batches.take later).drop earlier :=
          (List.take_append_drop earlier _).symm
      _ = batches.take earlier ++ (batches.take later).drop earlier := by
          rw [List.take_take, Nat.min_eq_left order]
  rw [getElem?_afterBatches] at present ⊢
  rw [extended, List.flatten_append, Language.firstSuccess?_append, present]
  rfl

theorem errors_of_compileBatches (language : Language ε) (cache : Cache ε)
    (found : batches[number]? = some batch) :
    (cache.compileBatches language batches).2[number]? =
      some (language.refusals cache (batches.take number).flatten batch) := by
  obtain ⟨inside, rfl⟩ := List.getElem?_eq_some_iff.mp found
  have before : (cache.compileBatches language (batches.take number)).2.length = number := by
    rw [length_compileBatches, List.length_take_of_le (Nat.le_of_lt inside)]
  have whole := compileBatches_append language cache (batches.take number)
    (batches[number] :: batches.drop (number + 1))
  rw [← List.drop_eq_getElem_cons inside, List.take_append_drop] at whole
  rw [whole, List.getElem?_append_right (Nat.le_of_eq before), before, Nat.sub_self,
    List.drop_eq_getElem_cons inside,
    ← errors_of_batch _ (getElem?_compileBatches language cache (batches.take number))]
  rfl

/-- A placeholder that is not reported fills its index. -/
theorem filled_of_addition {position : Nat} {compiled : ε}
    (found : batches[number]? = some batch) (inside : batch[position]? = some fragment)
    (placeholder : fragment.isPlaceholder = true)
    (adds : language.addition cache ((batches.take number).flatten ++ batch.take position)
      fragment = .ok compiled) :
    fragment.streamIndex ∈ (cache.afterBatches language batches number).added
        (cache.afterBatches language batches (number + 1)) ∧
      (cache.afterBatches language batches (number + 1))[fragment.streamIndex]? =
        some compiled := by
  have filled : (cache.afterBatches language batches (number + 1))[fragment.streamIndex]? =
      some compiled := by
    rw [getElem?_afterBatches, List.take_add_one, found, Option.toList_some,
      List.flatten_append, List.flatten_singleton, split_at_position inside,
      ← List.append_assoc]
    exact Language.firstSuccess?_of_addition placeholder adds _
  have free : (cache.afterBatches language batches number)[fragment.streamIndex]? = none := by
    have unfilled := (Language.addition_eq_ok_iff.mp adds).1
    rw [Language.firstSuccess?_append, Option.or_eq_none_iff] at unfilled
    rw [getElem?_afterBatches, unfilled.1]
  refine ⟨mem_added.mpr ⟨free, ?_⟩, filled⟩
  rw [filled]
  rfl

theorem length_refusals_add_added (language : Language ε) (cache : Cache ε)
    (found : batches[number]? = some batch) :
    (language.refusals cache (batches.take number).flatten batch).length +
        ((cache.afterBatches language batches number).added
          (cache.afterBatches language batches (number + 1))).length =
      batch.countP Fragment.isPlaceholder := by
  have sizes := length_errors_add_size language 0 (cache.afterBatches language batches number)
    batch
  rw [← compile, ← afterBatches_succ language cache found,
    errors_of_batch batch (getElem?_afterBatches language cache batches number)] at sizes
  have difference : ((cache.afterBatches language batches number).added
        (cache.afterBatches language batches (number + 1))).length +
      (cache.afterBatches language batches number).size =
      (cache.afterBatches language batches (number + 1)).size := by
    refine length_added fun index present => ?_
    rw [Std.TreeMap.contains_eq_isSome_getElem?] at present ⊢
    obtain ⟨compiled, held⟩ := Option.isSome_iff_exists.mp present
    rw [afterBatches_keeps (Nat.le_succ number) held]
    rfl
  omega

end Cache

/-- Over any batches the first placeholder of an index whose expression is accepted
fills it for good. Each batch reports its placeholders that fill no index, with the
reason, so its errors and the indices that it fills are as many as its placeholders. -/
theorem first_success_wins (language : Language ε) (cache : Cache ε)
    (batches : List (List Fragment)) :
    let errors := (cache.compileBatches language batches).2
    let held := cache.afterBatches language batches
    (∀ index, (cache.compileBatches language batches).1[index]? =
      language.firstSuccess? cache batches.flatten index) ∧
    (∀ (earlier later index : Nat) (compiled : ε), earlier ≤ later →
      (held earlier)[index]? = some compiled → (held later)[index]? = some compiled) ∧
    errors.length = batches.length ∧
    ∀ (number : Nat) (batch : List Fragment), batches[number]? = some batch →
      let before := (batches.take number).flatten
      let added := (held number).added (held (number + 1))
      errors[number]? = some (language.refusals cache before batch) ∧
      (∀ (position : Nat) (fragment : Fragment) (compiled : ε),
        batch[position]? = some fragment → fragment.isPlaceholder = true →
          language.addition cache (before ++ batch.take position) fragment = .ok compiled →
            fragment.streamIndex ∈ added ∧
              (held (number + 1))[fragment.streamIndex]? = some compiled) ∧
      (language.refusals cache before batch).length + added.length =
        batch.countP Fragment.isPlaceholder := by
  refine ⟨?last, ?kept, ?batches, ?batch⟩
  case last => exact Cache.getElem?_compileBatches language cache batches
  case kept =>
    intro earlier later index compiled order present
    exact Cache.afterBatches_keeps order present
  case batches => exact Cache.length_compileBatches language cache batches
  case batch =>
    intro number batch found
    refine ⟨Cache.errors_of_compileBatches language cache found, ?_,
      Cache.length_refusals_add_added language cache found⟩
    intro position fragment compiled inside placeholder adds
    exact Cache.filled_of_addition found inside placeholder adds

/-- The first batch fills an index at the second attempt. In the second batch this index
and one of the initial cache are taken, even for an expression that is no path. -/
theorem second_batch_meets_filled_indices :
    let cache : Cache Path := (∅ : Cache Path).insert 2 .current
    let first := [Fragment.placeholder 0 "#a" 0, .placeholder 0 "a" 4]
    let second := [Fragment.placeholder 0 "#b" 0, .content 1 "-", .placeholder 2 "c" 4,
      (Fragment.placeholder 3 "d" 8).ownedBy "loop"]
    let held := cache.afterBatches Path.language [first, second]
    [first, second][1]? = some second ∧
      (cache.compileBatches Path.language [first, second]).2[1]? =
        some [⟨"#b", 0, 0, .indexTaken 0⟩, ⟨"c", 4, 2, .indexTaken 2⟩] ∧
      (held 2)[0]? = some (.segments ["a"]) ∧ ((held 1).added (held 2)).length = 1 := by
  intro cache first second held
  obtain ⟨_, kept, _, reported⟩ := first_success_wins Path.language cache [first, second]
  obtain ⟨errors, _, total⟩ := reported 1 second rfl
  have refused : Path.language.refusals cache first second =
      [⟨"#b", 0, 0, .indexTaken 0⟩, ⟨"c", 4, 2, .indexTaken 2⟩] := by decide +kernel
  have filled : (held 1)[0]? = some (.segments ["a"]) := by decide +kernel
  refine ⟨rfl, errors.trans (congrArg some refused),
    kept 1 2 0 _ (by decide) filled, ?_⟩
  have placeholders : second.countP Fragment.isPlaceholder = 3 := rfl
  have counted := total.trans placeholders
  rw [show ([first, second].take 1).flatten = first from rfl, refused] at counted
  exact Nat.add_left_cancel counted

end Stencil
