/-
While loops with fuel.

`whileLoop step fuel s` runs at most `fuel` iterations and answers `none` when they did not end the
loop.
-/
import Mathlib.Data.Nat.Notation

namespace Lib

/-- End the loop with a value, or go on. -/
inductive Iter (σ β : Type) where
  | done (b : β)
  | next (s : σ)

variable {σ β ε : Type}

def whileLoop (step : σ → Except ε (Iter σ β)) : Nat → σ → Option (Except ε β)
  | 0, _ => none
  | fuel + 1, s =>
    match step s with
    | .error e => some (.error e)
    | .ok (.done b) => some (.ok b)
    | .ok (.next s') => whileLoop step fuel s'

variable {step : σ → Except ε (Iter σ β)}

theorem whileLoop_mono {fuel fuel' : Nat} {s : σ} {r : Except ε β}
    (h : whileLoop step fuel s = some r) (hle : fuel ≤ fuel') :
    whileLoop step fuel' s = some r := by
  induction fuel generalizing fuel' s with
  | zero => cases h
  | succ fuel ih =>
    obtain ⟨n, rfl⟩ : ∃ n, fuel' = n + 1 := ⟨fuel' - 1, by omega⟩
    rw [whileLoop] at h ⊢
    cases hs : step s with
    | error =>
      rw [hs] at h
      exact h
    | ok i =>
      rw [hs] at h
      cases i with
      | done => exact h
      | next => exact ih h (by omega)

/-- Total correctness: an invariant with a decreasing measure ends the loop in the
postcondition. -/
theorem whileLoop_rule {I : σ → Prop} {P : β → Prop} {m : σ → Nat}
    (hstep : ∀ s, I s →
      (∃ b, step s = .ok (.done b) ∧ P b) ∨ ∃ s', step s = .ok (.next s') ∧ I s' ∧ m s' < m s)
    {fuel : Nat} {s : σ} (hs : I s) (hfuel : m s < fuel) :
    ∃ b, whileLoop step fuel s = some (.ok b) ∧ P b := by
  induction fuel generalizing s with
  | zero => omega
  | succ fuel ih =>
    rcases hstep s hs with ⟨b, hb, hpost⟩ | ⟨s', hs', hinv, hlt⟩
    · exact ⟨b, by rw [whileLoop, hb], hpost⟩
    · rw [whileLoop, hs']
      exact ih hinv (by omega)

end Lib
