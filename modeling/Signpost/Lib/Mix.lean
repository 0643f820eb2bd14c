/-
A list carried with others put in anywhere: `Mix P xs ys` says `ys` is `xs`
in order, interleaved with elements that satisfy `P`.

It is how the packets of one sender stand among those of others on a bus, and
proofs go by induction on how the list was put together.
-/
import Mathlib.Data.List.Basic

namespace Lib

variable {α : Type} {P : α → Prop}

inductive Mix (P : α → Prop) : List α → List α → Prop
  | nil : Mix P [] []
  | own {x xs ys} : Mix P xs ys → Mix P (x :: xs) (x :: ys)
  | extra {y xs ys} : P y → Mix P xs ys → Mix P xs (y :: ys)

namespace Mix

protected theorem refl : ∀ xs : List α, Mix P xs xs
  | [] => .nil
  | _ :: xs => .own (Mix.refl xs)

end Mix

end Lib
