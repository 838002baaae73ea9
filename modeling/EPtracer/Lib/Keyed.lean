import Mathlib.Data.List.Basic
import Mathlib.Logic.Function.Basic

/-!
# Machines under keys

A machine reads inputs one after the other, keeps a state, and gives an output
for each.  There is one machine for each key, and an input goes to the machine
of its key.  The machines share nothing, so in every interleaving of their
inputs a reader of one key sees what it would see of that machine alone
(`filterMap_run`).
-/

namespace Keyed

variable {κ σ ι ο : Type} {step : σ → ι → σ × ο}

/-- The outputs of one machine. -/
def outputs (step : σ → ι → σ × ο) : σ → List ι → List ο
  | _, [] => []
  | s, x :: inputs => (step s x).2 :: outputs step (step s x).1 inputs

variable [DecidableEq κ]

/-- The outputs of all machines, each with its key. -/
def run (step : σ → ι → σ × ο) : (κ → σ) → List (κ × ι) → List (κ × ο)
  | _, [] => []
  | s, (k, x) :: inputs =>
      (k, (step (s k) x).2) :: run step (Function.update s k (step (s k) x).1) inputs

/-- What a list has under a key. -/
def under {β : Type} (k : κ) (l : List (κ × β)) : List β :=
  l.filterMap fun x => if x.1 = k then some x.2 else none

theorem under_cons_self {β : Type} (k : κ) (b : β) (l : List (κ × β)) :
    under k ((k, b) :: l) = b :: under k l :=
  List.filterMap_cons_some (if_pos rfl)

theorem under_cons_of_ne {β : Type} {k k' : κ} (h : k' ≠ k) (b : β) (l : List (κ × β)) :
    under k ((k', b) :: l) = under k l :=
  List.filterMap_cons_none (if_neg h)

/-- A reader that passes over the outputs of all machines but one reads that
machine alone. -/
theorem filterMap_run {β : Type} {f : κ × ο → Option β} {k : κ}
    (h : ∀ k' s x, k' ≠ k → f (k', (step s x).2) = none) (s : κ → σ) (inputs : List (κ × ι)) :
    (run step s inputs).filterMap f =
      (outputs step (s k) (under k inputs)).filterMap fun y => f (k, y) := by
  induction inputs generalizing s with
  | nil => rfl
  | cons input inputs ih =>
      obtain ⟨k', x⟩ := input
      rcases eq_or_ne k' k with rfl | hne
      · rw [run, under_cons_self, outputs, List.filterMap_cons, List.filterMap_cons, ih,
          Function.update_self]
      · rw [run, under_cons_of_ne hne, List.filterMap_cons_none (h k' _ x hne), ih,
          Function.update_of_ne hne.symm]

end Keyed
