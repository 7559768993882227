/-
Kleene's three-valued logic.

A truth value is an `Option Bool`, with `none` for unknown. Negation and the conjunction and
disjunction of a list are monotone in the order of information, so more evidence does not change an
answer.
-/
import Mathlib.Data.List.Basic

namespace Lib
namespace Kleene

/-- `y` knows at least what `x` knows. -/
def Info (x y : Option Bool) : Prop := ∀ b, x = some b → y = some b

theorem info_refl (x : Option Bool) : Info x x := fun _ h => h

theorem Info.not {x y : Option Bool} (h : Info x y) : Info (x.map (!·)) (y.map (!·)) := by
  intro b hb
  cases x with
  | none => cases hb
  | some v =>
    rw [h v rfl]
    exact hb

/-- The loop stops at `stop` and remembers whether it has met an unknown value. A conjunction stops
at `false`, a disjunction at `true`. -/
def loop (stop : Bool) : Bool → List (Option Bool) → Option Bool
  | unknown, [] => if unknown then none else some !stop
  | unknown, some b :: xs => if b = stop then some stop else loop stop unknown xs
  | _, none :: xs => loop stop true xs

/-- After an unknown value the loop ends with `stop` or not at all. -/
theorem loop_true {stop b : Bool} {xs : List (Option Bool)} (h : loop stop true xs = some b) :
    b = stop := by
  induction xs with
  | nil => cases h
  | cons x xs ih =>
    cases x with
    | none => exact ih h
    | some v =>
      rw [loop] at h
      split_ifs at h with hv
      · exact (Option.some.inj h).symm
      · exact ih h

/-- More evidence in the list, and fewer unknowns before it, keep the answer. -/
theorem loop_mono {stop u u' : Bool} {xs ys : List (Option Bool)}
    (h : List.Forall₂ Info xs ys) (hu : u' = true → u = true) :
    Info (loop stop u xs) (loop stop u' ys) := by
  induction h generalizing u u' with
  | nil =>
    intro b hb
    cases u with
    | true => cases hb
    | false =>
      cases u' with
      | true => exact absurd (hu rfl) Bool.false_ne_true
      | false => exact hb
  | @cons x y xs ys hxy hrest ih =>
    cases x with
    | some v =>
      rw [hxy v rfl, loop, loop]
      by_cases hv : v = stop
      · rw [if_pos hv, if_pos hv]
        exact info_refl _
      · rw [if_neg hv, if_neg hv]
        exact ih hu
    | none =>
      cases y with
      | none => exact ih fun _ => rfl
      | some v =>
        rw [loop]
        split_ifs with hv
        · intro b hb
          rw [loop_true hb]
        · exact ih fun _ => rfl

end Kleene
end Lib
