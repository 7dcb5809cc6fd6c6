import Mathlib.Data.Finset.Insert
import Stencil.Proofs.Compilation
import Stencil.Report

namespace Stencil

/-! Rendering a part in one pass: each placeholder is compiled, evaluated and
filled where it stands, and no compiled expression is kept. What the pass knows of
the fragments before is which stream indices are taken and the formatting of the
current run. The report is the one of compiling everything first. -/

namespace OnePass

structure Memory where
  /-- The stream indices of the placeholders that have compiled. -/
  taken : Finset Nat
  formatting : RunFormatting

def Memory.initial (options : Options) : Memory :=
  { taken := ∅, formatting := .initial options.dialect }

def Memory.observe (options : Options) (memory : Memory) (fragment : Fragment) : Memory :=
  if options.linebreaksActive then
    { memory with formatting := memory.formatting.observe fragment }
  else memory

structure Entry where
  output : Output
  compileError? : Option CompileError := none
  renderError? : Option RenderError := none

def Entry.ofOutcome : Outcome → Entry
  | .skipped => { output := .claimed }
  | .rendered result => { output := .rendered result }
  | .failed error => { output := .failed, renderError? := some error }

def Entry.refused (position : Nat) (fragment : Fragment) (cause : Cause) : Entry :=
  { output := .failed
    compileError? := some ⟨fragment.expression, fragment.sourceOffset, position, cause⟩ }

variable {ε : Type} (language : Language ε) (options : Options) (nullPolicy : NullPolicy)
  (data : Value)

/-- One fragment, at a position. An expression is looked at only if its index is
free, and evaluated only if no module has claimed the placeholder. -/
def step (position : Nat) (before : Memory) (fragment : Fragment) : Memory × Entry :=
  let memory := before.observe options fragment
  if fragment.isPlaceholder then
    if fragment.streamIndex ∈ memory.taken then
      (memory, .refused position fragment (.indexTaken fragment.streamIndex))
    else
      match language.parse fragment.expression fragment with
      | .error cause => (memory, .refused position fragment cause)
      | .ok compiled =>
          ({ memory with taken := insert fragment.streamIndex memory.taken },
            .ofOutcome <|
              if fragment.isClaimed then .skipped
              else fill options nullPolicy memory.formatting.snapshot fragment
                (language.evaluate compiled data))
  else (memory, { output := .literal fragment.text })

def runFrom (position : Nat) (memory : Memory) : List Fragment → List Entry
  | [] => []
  | fragment :: rest =>
      let (next, entry) := step language options nullPolicy data position memory fragment
      entry :: runFrom (position + 1) next rest

def run (fragments : List Fragment) : List Entry :=
  runFrom language options nullPolicy data 0 (.initial options) fragments

end OnePass

def Report.ofEntries (entries : List OnePass.Entry) : Report :=
  { outputs := entries.map OnePass.Entry.output
    compileErrors := entries.filterMap OnePass.Entry.compileError?
    renderErrors := entries.filterMap OnePass.Entry.renderError? }

namespace OnePass

variable {ε : Type} {language : Language ε} {options : Options} {nullPolicy : NullPolicy}
  {data : Value} {cache final : Cache ε} {memory : Memory} {fragment : Fragment}
  {fragments : List Fragment} {position : Nat}

def Agrees (memory : Memory) (cache : Cache ε) : Prop :=
  ∀ index, index ∈ memory.taken ↔ cache[index]?.isSome

theorem Memory.taken_observe (memory : Memory) :
    (memory.observe options fragment).taken = memory.taken := by
  unfold Memory.observe
  split <;> rfl

theorem Agrees.observe (agrees : Agrees memory cache) (options : Options)
    (fragment : Fragment) : Agrees (memory.observe options fragment) cache := by
  intro index
  rw [Memory.taken_observe]
  exact agrees index

theorem Agrees.insert (agrees : Agrees memory cache) (index : Nat) (compiled : ε) :
    Agrees { memory with taken := Insert.insert index memory.taken }
      (cache.insert index compiled) := by
  intro other
  rw [Std.TreeMap.getElem?_insert, Finset.mem_insert, agrees other]
  by_cases same : index = other
  · simp [same]
  · have different : other ≠ index := fun equal => same equal.symm
    simp [same, different]

theorem compileOne_of_agrees (agrees : Agrees memory cache) :
    cache.compileOne language fragment =
      if fragment.streamIndex ∈ memory.taken then .error (.indexTaken fragment.streamIndex)
      else language.parse fragment.expression fragment := by
  simp only [Cache.compileOne, Std.TreeMap.contains_eq_isSome_getElem?, agrees fragment.streamIndex]

theorem step_of_not_placeholder (other : fragment.isPlaceholder = false) :
    step language options nullPolicy data position memory fragment =
      (memory.observe options fragment, { output := .literal fragment.text }) := by
  simp [step, other]

theorem step_of_compiled {compiled : ε} (agrees : Agrees memory cache)
    (placeholder : fragment.isPlaceholder = true)
    (accepted : cache.compileOne language fragment = .ok compiled) :
    step language options nullPolicy data position memory fragment =
      ({ memory.observe options fragment with
          taken := insert fragment.streamIndex (memory.observe options fragment).taken },
        .ofOutcome <|
          if fragment.isClaimed then .skipped
          else fill options nullPolicy (memory.observe options fragment).formatting.snapshot
            fragment (language.evaluate compiled data)) := by
  rw [compileOne_of_agrees (agrees.observe options fragment)] at accepted
  split at accepted
  · contradiction
  · rename_i free
    simp [step, placeholder, free, accepted]

theorem step_of_refused {cause : Cause} (agrees : Agrees memory cache)
    (placeholder : fragment.isPlaceholder = true)
    (refused : cache.compileOne language fragment = .error cause) :
    step language options nullPolicy data position memory fragment =
      (memory.observe options fragment, .refused position fragment cause) := by
  rw [compileOne_of_agrees (agrees.observe options fragment)] at refused
  split at refused
  · rename_i taken
    cases refused
    simp [step, placeholder, taken]
  · rename_i free
    simp [step, placeholder, free, refused]

@[simp] theorem Entry.compileError?_ofOutcome (outcome : Outcome) :
    (Entry.ofOutcome outcome).compileError? = none := by
  cases outcome <;> rfl

theorem outputOf_eq_ofOutcome (placeholder : fragment.isPlaceholder = true) (outcome : Outcome) :
    Report.outputOf fragment outcome =
      ((Entry.ofOutcome outcome).output, (Entry.ofOutcome outcome).renderError?.toList) := by
  cases outcome <;> simp [Report.outputOf, Entry.ofOutcome, placeholder]

theorem compileErrors_eq (agrees : Agrees memory cache) :
    (cache.compileFrom language position fragments).2 =
      (runFrom language options nullPolicy data position memory fragments).filterMap
        Entry.compileError? := by
  induction fragments generalizing cache memory position with
  | nil => rfl
  | cons fragment rest ih =>
      cases kind : fragment.isPlaceholder with
      | false =>
          rw [Cache.compileFrom_of_not_placeholder kind, runFrom, step_of_not_placeholder kind,
            ih (agrees.observe options fragment)]
          rfl
      | true =>
          cases result : cache.compileOne language fragment with
          | ok compiled =>
              have next := (agrees.observe options fragment).insert
                fragment.streamIndex compiled
              rw [Cache.compileFrom_of_compiled kind result, runFrom,
                step_of_compiled agrees kind result, ih next]
              simp
          | error cause =>
              rw [Cache.compileFrom_of_refused kind result, runFrom,
                step_of_refused agrees kind result,
                ih (agrees.observe options fragment)]
              rfl

/-- The session that renders a part when the pass has this memory. -/
def sessionAt (options : Options) (resolver : Resolver) (nullPolicy : NullPolicy)
    (memory : Memory) : Session :=
  { options, resolver, nullPolicy, formatting := memory.formatting }

theorem observe_sessionAt (resolver : Resolver) :
    (sessionAt options resolver nullPolicy memory).observe fragment =
      sessionAt options resolver nullPolicy (memory.observe options fragment) := by
  unfold Session.observe Memory.observe sessionAt
  dsimp only
  split <;> rfl

theorem render_sessionAt (resolver : Resolver) :
    (sessionAt options resolver nullPolicy memory).render fragment =
      (sessionAt options resolver nullPolicy (memory.observe options fragment),
        if fragment.isPlaceholder && !fragment.isClaimed then
          fill options nullPolicy (memory.observe options fragment).formatting.snapshot fragment
            (resolver fragment.expression fragment)
        else .skipped) := by
  unfold Session.render
  rw [observe_sessionAt]
  dsimp only
  split <;> rfl

private theorem filterMap_cons_toList {α β : Type} (f : α → Option β) (first : α) (rest : List α) :
    (first :: rest).filterMap f = (f first).toList ++ rest.filterMap f := by
  cases found : f first <;> simp [found]

theorem position_not_listed :
    position ∉ (cache.compileFrom language (position + 1) fragments).2.map
      CompileError.position := by
  intro listed
  obtain ⟨error, member, same⟩ := List.mem_map.mp listed
  have later := Cache.position_le_of_mem member
  omega

theorem renderFrom_eq {uncompiled : List Nat} (agrees : Agrees memory cache)
    (whole : (cache.compileFrom language position fragments).1 = final)
    (listed : ∀ later, position ≤ later → (later ∈ uncompiled ↔
      later ∈ (cache.compileFrom language position fragments).2.map CompileError.position)) :
    Report.renderFrom uncompiled position
        (sessionAt options (final.resolver language data) nullPolicy memory) fragments =
      ((runFrom language options nullPolicy data position memory fragments).map Entry.output,
        (runFrom language options nullPolicy data position memory fragments).filterMap
          Entry.renderError?) := by
  induction fragments generalizing cache memory position with
  | nil => rfl
  | cons fragment rest ih =>
      have observed := agrees.observe options fragment
      cases kind : fragment.isPlaceholder with
      | false =>
          rw [Cache.compileFrom_of_not_placeholder kind] at whole listed
          have absent : position ∉ uncompiled := fun member =>
            position_not_listed ((listed position (Nat.le_refl _)).mp member)
          have tail := ih observed whole (fun later above => listed later (by omega))
          rw [runFrom, step_of_not_placeholder kind]
          simp [Report.renderFrom, absent, render_sessionAt, kind, Report.outputOf, tail]
      | true =>
          cases result : cache.compileOne language fragment with
          | ok compiled =>
              rw [Cache.compileFrom_of_compiled kind result] at whole listed
              have absent : position ∉ uncompiled := fun member =>
                position_not_listed ((listed position (Nat.le_refl _)).mp member)
              have found : final[fragment.streamIndex]? = some compiled := by
                rw [← whole]
                exact Cache.compileFrom_keeps (by simp)
              have tail := ih (observed.insert fragment.streamIndex compiled) whole
                (fun later above => listed later (by omega))
              have value : final.resolver language data fragment.expression fragment =
                  language.evaluate compiled data := by
                simp [Cache.resolver, found]
              have next : sessionAt options (final.resolver language data) nullPolicy
                  (memory.observe options fragment) =
                sessionAt options (final.resolver language data) nullPolicy
                  { memory.observe options fragment with
                    taken := insert fragment.streamIndex
                      (memory.observe options fragment).taken } := rfl
              rw [runFrom, step_of_compiled agrees kind result]
              simp only [Report.renderFrom, List.contains_eq_mem, absent, decide_false,
                Bool.false_eq_true, if_false, render_sessionAt, kind, Bool.true_and, value,
                Bool.not_eq_true', outputOf_eq_ofOutcome kind, next, tail, List.map_cons,
                filterMap_cons_toList]
              cases fragment.isClaimed <;> rfl
          | error cause =>
              rw [Cache.compileFrom_of_refused kind result] at whole listed
              have present : position ∈ uncompiled :=
                (listed position (Nat.le_refl _)).mpr (by simp)
              have tail := ih observed whole (fun later above => by
                rw [listed later (by omega)]
                have different : later ≠ position := by omega
                simp [different])
              rw [runFrom, step_of_refused agrees kind result]
              simp [Report.renderFrom, present, observe_sessionAt, tail, Entry.refused]

theorem agrees_initial (options : Options) : Agrees (Memory.initial options) (∅ : Cache ε) := by
  intro index
  simp [Memory.initial]

end OnePass

section

open OnePass

variable {ε : Type} (language : Language ε) (options : Options) (nullPolicy : NullPolicy)
  (fragments : List Fragment) (data : Value)

theorem renderPart_compileErrors :
    (renderPart language options nullPolicy fragments data).compileErrors =
      (run language options nullPolicy data fragments).filterMap Entry.compileError? :=
  compileErrors_eq (agrees_initial options)

private theorem renderFrom_compiled :
    Report.renderFrom
        (((∅ : Cache ε).compile language fragments).2.map CompileError.position) 0
        (.start options (((∅ : Cache ε).compile language fragments).1.resolver language data)
          nullPolicy) fragments =
      ((run language options nullPolicy data fragments).map Entry.output,
        (run language options nullPolicy data fragments).filterMap Entry.renderError?) :=
  renderFrom_eq (agrees_initial options) rfl (fun _ _ => Iff.rfl)

theorem renderPart_outputs :
    (renderPart language options nullPolicy fragments data).outputs =
      (run language options nullPolicy data fragments).map Entry.output :=
  congrArg Prod.fst (renderFrom_compiled language options nullPolicy fragments data)

theorem renderPart_renderErrors :
    (renderPart language options nullPolicy fragments data).renderErrors =
      (run language options nullPolicy data fragments).filterMap Entry.renderError? :=
  congrArg Prod.snd (renderFrom_compiled language options nullPolicy fragments data)

/-- Compiling all expressions first and finding them again by stream index gives
the report of compiling each where it stands. -/
theorem renderPart_eq_onePass :
    renderPart language options nullPolicy fragments data =
      .ofEntries (run language options nullPolicy data fragments) := by
  have outputs := renderPart_outputs language options nullPolicy fragments data
  have compileErrors := renderPart_compileErrors language options nullPolicy fragments data
  have renderErrors := renderPart_renderErrors language options nullPolicy fragments data
  simp only [Report.ofEntries, ← outputs, ← compileErrors, ← renderErrors]

end

end Stencil
