import Stencil.Proofs.ForbiddenCharacters
import Stencil.Proofs.SessionHistory

namespace Stencil

open Markup

/-- A text without its forbidden characters. Other values stay as they are, and so do
the texts within arrays and objects. -/
def Value.stripped : Value → Value
  | .string text => .string (stripForbidden text)
  | value => value

def Resolver.stripped (resolver : Resolver) : Resolver := fun expression fragment =>
  (resolver expression fragment).map (Option.map Value.stripped)

def NullPolicy.stripped (nullPolicy : NullPolicy) : NullPolicy := fun fragment =>
  (nullPolicy fragment).stripped

variable {options : Options}

@[simp] theorem Value.isNull_stripped (value : Value) : value.stripped.isNull = value.isNull := by
  cases value <;> rfl

theorem NullPolicy.apply_stripped (nullPolicy : NullPolicy) (fragment : Fragment)
    (resolved : Option Value) :
    nullPolicy.stripped.apply fragment (resolved.map Value.stripped) =
      (nullPolicy.apply fragment resolved).stripped := by
  cases resolved with
  | none => rfl
  | some value =>
      simp only [Option.map_some, apply, Value.isNull_stripped]
      split <;> rfl

theorem sanitize_of_strip (strip : options.stripForbidden = true) (fragment : Fragment)
    (value : Value) : sanitize options fragment value = .ok value.stripped := by
  cases value <;> simp [sanitize, strip, Value.stripped]

theorem sanitize_stripped (keep : options.stripForbidden = false) (fragment : Fragment)
    (value : Value) : sanitize options fragment value.stripped = .ok value.stripped := by
  cases value <;> simp [sanitize, keep, Value.stripped]

theorem fill_stripped (options : Options) (nullPolicy : NullPolicy) (properties : String)
    (fragment : Fragment) (resolved : Except Cause (Option Value)) :
    fill (options.withStripForbidden false) nullPolicy.stripped properties fragment
        (resolved.map (Option.map Value.stripped)) =
      fill (options.withStripForbidden true) nullPolicy properties fragment resolved := by
  cases resolved with
  | error cause => rfl
  | ok resolved =>
      have strips : (options.withStripForbidden true).stripForbidden = true := rfl
      have keeps : (options.withStripForbidden false).stripForbidden = false := rfl
      simp only [fill, Except.map, NullPolicy.apply_stripped, sanitize_stripped keeps,
        sanitize_of_strip strips]
      rfl

/-- No outcome of stripping is about forbidden characters. -/
theorem fill_of_strip (strip : options.stripForbidden = true) (nullPolicy : NullPolicy)
    (properties : String) (fragment : Fragment) (resolved : Except Cause (Option Value))
    (expression text : String) (offset : Nat) :
    fill options nullPolicy properties fragment resolved ≠
      .failed (.forbiddenCharacters expression text offset) := by
  cases resolved with
  | error cause => simp [fill]
  | ok resolved => simp [fill, sanitize_of_strip strip]

namespace Session

variable {session clean : Session}

/-- The sessions are alike but for one thing: the first removes forbidden characters, and
the second is given values without them. -/
structure StripsAs (session clean : Session) : Prop where
  strip : session.options = session.options.withStripForbidden true
  options : clean.options = session.options.withStripForbidden false
  resolver : clean.resolver = session.resolver.stripped
  nullPolicy : clean.nullPolicy = session.nullPolicy.stripped
  formatting : clean.formatting = session.formatting

theorem StripsAs.observe (alike : session.StripsAs clean) (fragment : Fragment) :
    (session.observe fragment).StripsAs (clean.observe fragment) := by
  have active : clean.options.linebreaksActive = session.options.linebreaksActive := by
    rw [alike.options]
    rfl
  unfold Session.observe
  rw [active]
  split
  · refine ⟨alike.strip, alike.options, alike.resolver, alike.nullPolicy, ?_⟩
    rw [alike.formatting]
  · exact alike

theorem StripsAs.outcome (alike : session.StripsAs clean) (fragment : Fragment) :
    (clean.render fragment).2 = (session.render fragment).2 := by
  rw [render_snd, render_snd, (alike.observe fragment).formatting, alike.options,
    alike.resolver, alike.nullPolicy, Resolver.stripped, fill_stripped, ← alike.strip]

theorem StripsAs.outcomes (alike : session.StripsAs clean) (steps : List Step) :
    clean.outcomes steps = session.outcomes steps := by
  induction steps generalizing session clean with
  | nil => rfl
  | cons step rest ih =>
      have next : (session.perform step).1.StripsAs (clean.perform step).1 := by
        rw [perform_fst, perform_fst]
        exact alike.observe step.fragment
      have outcome : (clean.perform step).2 = (session.perform step).2 := by
        cases step with
        | observe fragment => rfl
        | render fragment => exact congrArg some (alike.outcome fragment)
      rw [outcomes_cons, outcomes_cons, outcome, ih next]

/-- A session that removes forbidden characters gives, step by step, what a session that
does not gives over sources without them, and it never reports such a character. -/
theorem strip_eq_stripped_sources (options : Options) (resolver : Resolver)
    (nullPolicy : NullPolicy) (steps : List Step) :
    let stripping := start (options.withStripForbidden true) resolver nullPolicy
    let clean := start (options.withStripForbidden false) resolver.stripped nullPolicy.stripped
    stripping.outcomes steps = clean.outcomes steps ∧
      ∀ (expression text : String) (offset : Nat),
        some (.failed (.forbiddenCharacters expression text offset)) ∉
          stripping.outcomes steps := by
  intro stripping clean
  have alike : stripping.StripsAs clean := ⟨rfl, rfl, rfl, rfl, rfl⟩
  refine ⟨(alike.outcomes steps).symm, ?_⟩
  intro expression text offset member
  obtain ⟨formatting, fragment, rendered⟩ := rendered_of_mem_outcomes member
  rw [render_snd] at rendered
  split at rendered
  · exact fill_of_strip rfl _ _ _ _ expression text offset rendered
  · contradiction

end Session

end Stencil
