import Hocon.Proofs.OptionEntries
import Mathlib.Data.List.Induction

/-!
# Layers put on one another

Options come in layers, and completing them asks for two operations: `Hocon.Layer.merge` puts one
layer on another, and `Hocon.Layer.resolve` puts a layer on complete options. This module says that
nothing hangs on which of the two is used when. What a pile of layers comes to
(`Hocon.Layer.stack`) is told option by option, and for each option it is the topmost layer that
sets it.

The one thing to know is that both operations choose between two fields and never look into one, so
a field that is set to zero, or to less, is set like any other. Each operation is therefore settled
by one equation about the field of an option, and two layers are the same if all their fields are
(`Hocon.Layer.ext_get`).

| operation | the field of an option | |
|---|---|---|
| `lower.merge upper` | that of `upper`, or else of `lower` | `Hocon.Layer.get_merge` |
| `layer.resolve base` | that of `layer`, or else of `base` | `Hocon.Layer.get_resolve` |
| `o.toLayer` | that of `o` | `Hocon.Options.get_toLayer` |
| `Layer.stack layers` | that of the last layer that has one | `Hocon.Layer.get_stack` |

From these follow the two laws by which piles are rearranged: merging is associative with the empty
layer as its unit (`Hocon.Layer.stack_append`), and it acts on options by resolving
(`Hocon.Layer.resolve_merge`).
-/

namespace Hocon

/-- The field of an option in options. -/
def Options.get (o : Options) : (f : Field) → f.Content
  | .separatorCharacter => o.separatorCharacter
  | .objectSeparator => o.objectSeparator
  | .stringQuoting => o.stringQuoting
  | .keyQuoting => o.keyQuoting
  | .spacesBefore => o.spacesBefore
  | .spacesAfter => o.spacesAfter
  | .indentCharacter => o.indentCharacter
  | .indent => o.indent
  | .commentStyle => o.commentStyle
  | .lineSeparator => o.lineSeparator

/-- Options are determined by their fields. -/
theorem Options.ext_get {a b : Options} (h : ∀ f, a.get f = b.get f) : a = b := by
  cases a
  cases b
  rw [Options.mk.injEq]
  exact ⟨h .separatorCharacter, h .objectSeparator, h .stringQuoting, h .keyQuoting,
    h .spacesBefore, h .spacesAfter, h .indentCharacter, h .indent, h .commentStyle,
    h .lineSeparator⟩

/-- The layer of options sets every option, and to what it is in the options. -/
theorem Options.get_toLayer (o : Options) (f : Field) : o.toLayer.get f = some (o.get f) := by
  cases f <;> rfl

namespace Layer

/-- A layer is determined by its fields. -/
theorem ext_get {a b : Layer} (h : ∀ f, a.get f = b.get f) : a = b := by
  cases a
  cases b
  rw [Layer.mk.injEq]
  exact ⟨h .separatorCharacter, h .objectSeparator, h .stringQuoting, h .keyQuoting,
    h .spacesBefore, h .spacesAfter, h .indentCharacter, h .indent, h .commentStyle,
    h .lineSeparator⟩

theorem get_merge (lower upper : Layer) (f : Field) :
    (lower.merge upper).get f = (upper.get f).or (lower.get f) := by
  cases f <;> exact Option.orElse_eq_or

theorem get_resolve (layer : Layer) (base : Options) (f : Field) :
    (layer.resolve base).get f = (layer.get f).getD (base.get f) := by
  cases f <;> rfl

/-! ### Piles of layers -/

/-- Layers put on one another, the first one at the bottom. -/
def stack (layers : List Layer) : Layer := layers.foldl merge {}

theorem stack_concat (layers : List Layer) (layer : Layer) :
    stack (layers ++ [layer]) = (stack layers).merge layer := by
  rw [stack, List.foldl_append]
  rfl

/-- **The last layer that sets an option decides it.** -/
theorem get_stack (layers : List Layer) (f : Field) :
    (stack layers).get f = layers.reverse.findSome? (·.get f) := by
  induction layers using List.reverseRecOn with
  | nil => cases f <;> rfl
  | append_singleton layers layer ih =>
    rw [stack_concat, get_merge, ih, List.reverse_concat, List.findSome?_cons]
    cases layer.get f <;> rfl

/-- **A pile on a pile** is one of them put on the other, so it does not matter how a pile is cut
into parts. -/
theorem stack_append (lower upper : List Layer) :
    stack (lower ++ upper) = (stack lower).merge (stack upper) := by
  refine ext_get fun f => ?_
  rw [get_merge, get_stack, get_stack, get_stack, List.reverse_append, List.findSome?_append]

/-- A pile of one layer is that layer. -/
theorem stack_singleton (layer : Layer) : stack [layer] = layer := by
  refine ext_get fun f => ?_
  rw [get_stack, List.reverse_singleton, List.findSome?_singleton]

/-- A layer that sets nothing can lie anywhere in a pile. -/
theorem stack_insert_empty (lower upper : List Layer) :
    stack (lower ++ {} :: upper) = stack (lower ++ upper) := by
  have hupper : stack ({} :: upper) = stack upper := rfl
  rw [stack_append, hupper, stack_append]

/-- **A way of putting layers on one another**, two parts at a time. -/
inductive Bracketing where
  /-- A single layer. -/
  | one (layer : Layer)
  /-- A part that is put on another one. -/
  | merge (lower upper : Bracketing)

namespace Bracketing

/-- The layers from the bottom to the top. -/
def layers : Bracketing → List Layer
  | one layer => [layer]
  | merge lower upper => lower.layers ++ upper.layers

/-- What the layers come to if they are merged in this way. -/
def result : Bracketing → Layer
  | one layer => layer
  | merge lower upper => lower.result.merge upper.result

/-- **All ways of merging a pile come to the same.** -/
theorem result_eq_stack (b : Bracketing) : b.result = stack b.layers := by
  induction b with
  | one layer => exact (stack_singleton layer).symm
  | merge lower upper hlower hupper => rw [result, layers, stack_append, hlower, hupper]

end Bracketing

/-! ### Piles on options -/

/-- **Layers act on options**: to put two merged layers on options is to put on the lower one, and
then the upper one. -/
theorem resolve_merge (lower upper : Layer) (base : Options) :
    (lower.merge upper).resolve base = upper.resolve (lower.resolve base) := by
  refine Options.ext_get fun f => ?_
  rw [get_resolve, get_merge, get_resolve, get_resolve]
  cases upper.get f <;> rfl

/-- The layer of options hides whatever lies below it. -/
theorem resolve_toLayer (o base : Options) : o.toLayer.resolve base = o := by
  refine Options.ext_get fun f => ?_
  rw [get_resolve, Options.get_toLayer, Option.getD_some]

/-- A pile can be put on options layer by layer. -/
theorem foldl_resolve (layers : List Layer) (base : Options) :
    layers.foldl (fun o layer => layer.resolve o) base = (stack layers).resolve base := by
  induction layers using List.reverseRecOn with
  | nil => rfl
  | append_singleton layers layer ih =>
    rw [List.foldl_append, ih, stack_concat, resolve_merge]
    rfl

/-- Options in a pile take the place of all that lies below them, the base included. -/
theorem resolve_stack_toLayer (lower upper : List Layer) (o base : Options) :
    (stack (lower ++ o.toLayer :: upper)).resolve base = (stack upper).resolve o := by
  have hcons : o.toLayer :: upper = [o.toLayer] ++ upper := rfl
  rw [stack_append, hcons, stack_append, stack_singleton, resolve_merge, resolve_merge,
    resolve_toLayer]

/-- **The last layer wins**, and that is all there is to layers. For every pile of layers:

1. frozen on options, it has for each option what the last layer that sets it says, or what the
   options say if none does;
2. all ways of bracketing the merges give the same layer;
3. an empty layer changes nothing, wherever it lies;
4. to freeze the pile is to freeze its layers one after the other;
5. options among the layers hide all layers below them and what the pile is frozen on;
6. options alone come back. -/
theorem freeze_lastWins :
    (∀ (layers : List Layer) (base : Options) (f : Field),
      ((stack layers).freeze base).value.get f =
        (layers.reverse.findSome? (·.get f)).getD (base.get f)) ∧
    (∀ b : Bracketing, b.result = stack b.layers) ∧
    (∀ lower upper : List Layer, stack (lower ++ {} :: upper) = stack (lower ++ upper)) ∧
    (∀ (layers : List Layer) (base : Options),
      layers.foldl (fun o layer => (layer.freeze o).value) base =
        ((stack layers).freeze base).value) ∧
    (∀ (lower upper : List Layer) (o base : Options),
      ((stack (lower ++ o.toLayer :: upper)).freeze base).value =
        ((stack upper).freeze o).value) ∧
    ∀ o base : Options, (o.toLayer.freeze base).value = o := by
  refine ⟨fun layers base f => ?_, Bracketing.result_eq_stack, stack_insert_empty,
    foldl_resolve, resolve_stack_toLayer, resolve_toLayer⟩
  rw [value_freeze, get_resolve, get_stack]

/-- A count of zero and a negative one are set like any other, and a field that is not set lets the
layer below show through. -/
example : ((stack [{ indent := some 2, spacesAfter := some 5 }, { indent := some 0 },
    { spacesAfter := some (-1) }, {}]).freeze { spacesBefore := 3 }).value =
      { indent := 0, spacesAfter := -1, spacesBefore := 3 } := rfl

end Layer

end Hocon
