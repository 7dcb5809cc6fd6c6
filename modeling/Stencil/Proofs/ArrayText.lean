import Stencil.Proofs.Escaping
import Stencil.Proofs.ForbiddenCharacters

namespace Stencil.Value

/-- The text of a leaf. The only arrays among the leaves are the empty ones. -/
def leafText : Value → String
  | .bool b => if b then "true" else "false"
  | .number n => n.text
  | .string text => text
  | .object members => (Value.object members).json
  | .null | .array _ => ""

/-- Somewhere in the array, with nothing but arrays around it, an item that is itself an array
with items gives its place to them. -/
inductive Flattens : Value → Value → Prop where
  | here (before inner after : List Value) (nonempty : inner ≠ []) :
      Flattens (.array (before ++ .array inner :: after)) (.array (before ++ inner ++ after))
  | within (before after : List Value) {item flattened : Value}
      (inside : Flattens item flattened) :
      Flattens (.array (before ++ item :: after)) (.array (before ++ flattened :: after))

variable {items : List Value} {value flattened : Value}

theorem itemLeaves_eq_flatMap (items : List Value) : itemLeaves items = items.flatMap leaves := by
  induction items with
  | nil => rfl
  | cons item rest ih => rw [itemLeaves, List.flatMap_cons, ih]

theorem leaves_array (nonempty : items ≠ []) :
    leaves (.array items) = items.flatMap leaves := by
  obtain ⟨item, rest, rfl⟩ := List.exists_cons_of_ne_nil nonempty
  rw [leaves, itemLeaves_eq_flatMap, List.flatMap_cons]

theorem leaves_ne_nil : (value : Value) → value.leaves ≠ []
  | .null | .bool _ | .number _ | .string _ | .object _ | .array [] => by simp [leaves]
  | .array (item :: rest) => by
      rw [leaves]
      exact List.append_ne_nil_of_left_ne_nil item.leaves_ne_nil _

mutual

theorem text_eq_joined : (value : Value) →
    value.text = ",".intercalate (value.leaves.map leafText)
  | .null | .bool _ | .number _ | .string _ | .object _ => by simp [text, leaves, leafText]
  | .array [] => by simp [text, itemTexts, leaves, leafText]
  | .array (item :: rest) => by
      rw [text, leaves, ← itemLeaves]
      exact itemTexts_joined (item :: rest)

theorem itemTexts_joined : (items : List Value) →
    ",".intercalate (itemTexts items) = ",".intercalate ((itemLeaves items).map leafText)
  | [] => rfl
  | [item] => by simp [itemTexts, itemLeaves, text_eq_joined item]
  | item :: next :: rest => by
      have first : item.leaves.map leafText ≠ [] := by simpa using item.leaves_ne_nil
      have others : (itemLeaves (next :: rest)).map leafText ≠ [] := by
        rw [itemLeaves]
        simp [next.leaves_ne_nil]
      calc ",".intercalate (itemTexts (item :: next :: rest))
        _ = item.text ++ "," ++ ",".intercalate (itemTexts (next :: rest)) := by
            rw [itemTexts, String.intercalate_cons_of_ne_nil (by simp [itemTexts])]
        _ = ",".intercalate (item.leaves.map leafText) ++ "," ++
              ",".intercalate ((itemLeaves (next :: rest)).map leafText) := by
            rw [text_eq_joined item, itemTexts_joined (next :: rest)]
        _ = ",".intercalate ((itemLeaves (item :: next :: rest)).map leafText) := by
            rw [← String.intercalate_append_of_ne_nil first others, ← List.map_append]
            rfl

end

/-- A comma is written as it is, so the leaves may as well be escaped one by one. -/
theorem escapedText_eq_joined (value : Value) :
    value.escapedText =
      ",".intercalate (value.leaves.map fun leaf => Markup.escape leaf.leafText) := by
  have comma : Markup.escape "," = "," := by decide
  rw [escapedText, text_eq_joined, Markup.escape_intercalate comma, List.map_map]
  rfl

theorem Flattens.leaves_eq (flattens : value.Flattens flattened) :
    flattened.leaves = value.leaves := by
  induction flattens with
  | here before inner after nonempty =>
      rw [leaves_array (by simp [nonempty]), leaves_array (by simp)]
      simp [leaves_array nonempty]
  | within before after inside ih =>
      rw [leaves_array (by simp), leaves_array (by simp)]
      simp [ih]

/-- The text of a value is the join of its leaves, and the escaped text that of the escaped
leaves, so neither tells how the leaves are divided into arrays. -/
theorem text_by_leaves (value : Value) :
    value.text = ",".intercalate (value.leaves.map leafText) ∧
      value.escapedText =
        ",".intercalate (value.leaves.map fun leaf => Markup.escape leaf.leafText) ∧
      ∀ flattened, value.Flattens flattened →
        flattened.text = value.text ∧ flattened.escapedText = value.escapedText := by
  refine ⟨text_eq_joined value, escapedText_eq_joined value, ?flattened⟩
  intro flattened flattens
  have same := flattens.leaves_eq
  constructor
  · rw [text_eq_joined, text_eq_joined, same]
  · rw [escapedText_eq_joined, escapedText_eq_joined, same]

/-- Empty arrays, null and empty strings leave their places, also where the array around them
is flattened. -/
theorem escapedText_of_nested_arrays :
    let record := object [("k", array [bool true])]
    let value := array [array [], array [string "<", array [null, number (.integer (-7))]],
      record, string ""]
    let flattened := array [array [], array [string "<", null, number (.integer (-7))],
      record, string ""]
    let text := ",&lt;,,-7,\x7b&quot;k&quot;:[true]\x7d,"
    value.Flattens flattened ∧ value.escapedText = text ∧ flattened.escapedText = text := by
  intro record value flattened text
  have flattens : value.Flattens flattened :=
    .within [array []] [record, string ""]
      (.here [string "<"] [null, number (.integer (-7))] [] (by simp))
  have escaped : value.escapedText = text := by decide +kernel
  have same := (text_by_leaves value).2.2 flattened flattens
  exact ⟨flattens, escaped, same.2.trans escaped⟩

end Stencil.Value
