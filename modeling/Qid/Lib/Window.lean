/-
Quotas over a sliding window.

A machine counts from its record of events before it admits the next one, and may forget what lies
further back than a horizon.
-/
import Mathlib.Data.List.Induction
import Qid.Lib.Run

namespace Lib

/-- Any `W` consecutive instants hold at most `M` of the times. -/
def WindowBound (M W : Nat) (ts : List Nat) : Prop :=
  ∀ t, ts.countP (fun x => t ≤ x && x < t + W) ≤ M

/-- A time may be added when the window that ends with it is not full. -/
theorem WindowBound.snoc {M W c : Nat} {ts : List Nat} (h : WindowBound M W ts)
    (hc : ts.countP (fun x => c - (W - 1) ≤ x) < M) : WindowBound M W (ts ++ [c]) := by
  intro t
  rw [List.countP_append, List.countP_singleton]
  split
  · rename_i hin
    rw [Bool.and_eq_true, decide_eq_true_eq, decide_eq_true_eq] at hin
    have hle : ts.countP (fun x => t ≤ x && x < t + W) ≤
        ts.countP (fun x => c - (W - 1) ≤ x) := by
      refine List.countP_mono_left fun x _ hx => ?_
      rw [Bool.and_eq_true, decide_eq_true_eq] at hx
      rw [decide_eq_true_eq]
      omega
    omega
  · exact h t

/-- The number of times at or after `start`, of at most one. -/
def countFrom (start : Nat) (o : Option Nat) : Nat := if o.any (start ≤ ·) then 1 else 0

theorem countFrom_ite {p : Prop} [Decidable p] (start t : Nat) :
    countFrom start (if p then some t else none) = if p ∧ start ≤ t then 1 else 0 := by
  by_cases hp : p <;> simp [hp, countFrom]

theorem countP_filterMap_snoc {α : Type*} (f : α → Option Nat) (start : Nat) (l : List α) (a : α) :
    ((l ++ [a]).filterMap f).countP (fun x => start ≤ x) =
      (l.filterMap f).countP (fun x => start ≤ x) + countFrom start (f a) := by
  cases ha : f a with
  | none => simp [ha, countFrom]
  | some => simp [ha, countFrom, List.countP_singleton]

variable {σ κ ρ : Type}

/-- `remembered start` is what the state still knows of the events admitted at or after `start`; a
call forgets only what lies further back than the horizon, and an event is admitted when the window
that ends with it holds less than the budget. -/
structure Quota (step : σ → κ → ρ × σ) (I : σ → Prop) (clock : κ → Option Nat) (horizon : Nat) where
  admittedAt : Event σ κ ρ → Option Nat
  budget : κ → Option (Nat × Nat)
  remembered : Nat → σ → Nat
  step_remembered : ∀ s k start, I s → (∀ t ∈ clock k, t - horizon ≤ start) →
    remembered start (step s k).2 =
      remembered start s + countFrom start (admittedAt (eventOf step s k))
  admitted : ∀ s k t, I s → admittedAt (eventOf step s k) = some t →
    clock k = some t ∧ ∃ M W, budget k = some (M, W) ∧ W ≤ horizon ∧ remembered (t - (W - 1)) s < M

namespace Quota

variable {step : σ → κ → ρ × σ} {I : σ → Prop} {clock : κ → Option Nat} {horizon : Nat} {s₀ : σ}
  (q : Quota step I clock horizon) (hstep : ∀ s k, I s → I (step s k).2) (h₀ : I s₀)
include q hstep h₀

/-- Within the horizon of every clock so far, nothing has been forgotten. -/
theorem remembered_final (hzero : ∀ start, q.remembered start s₀ = 0) (ks : List κ) (start : Nat)
    (hstart : ∀ t ∈ ks.filterMap clock, t - horizon ≤ start) :
    q.remembered start (final step s₀ ks) =
      ((run step s₀ ks).filterMap q.admittedAt).countP fun x => start ≤ x := by
  induction ks using List.reverseRecOn with
  | nil => exact hzero start
  | append_singleton ks k ih =>
    rw [List.filterMap_append] at hstart
    have hks := ih fun t ht => hstart t (List.mem_append_left _ ht)
    have hk : ∀ t ∈ clock k, t - horizon ≤ start := by
      intro t ht
      refine hstart t (List.mem_append_right _ ?_)
      rw [List.mem_filterMap]
      exact ⟨k, List.mem_singleton_self k, ht⟩
    have hI := final_invariant step hstep h₀ ks
    rw [final_append, run_append]
    show q.remembered start (step (final step s₀ ks) k).2 =
      ((run step s₀ ks ++ [eventOf step (final step s₀ ks) k]).filterMap q.admittedAt).countP _
    rw [countP_filterMap_snoc, q.step_remembered _ k start hI hk, hks]

/-- With a clock that does not go back and one budget for all the calls, every
window holds at most the budget. -/
theorem windowBound (hzero : ∀ start, q.remembered start s₀ = 0) {M W : Nat} {ks : List κ}
    (hclock : (ks.filterMap clock).Pairwise (· ≤ ·))
    (hbudget : ∀ k ∈ ks, ∀ b ∈ q.budget k, b = (M, W)) :
    WindowBound M W ((run step s₀ ks).filterMap q.admittedAt) := by
  induction ks using List.reverseRecOn with
  | nil => exact fun _ => Nat.zero_le M
  | append_singleton ks k ih =>
    rw [List.filterMap_append, List.pairwise_append] at hclock
    obtain ⟨hks, -, hle⟩ := hclock
    have hbound := ih hks fun k' hk' => hbudget k' (List.mem_append_left _ hk')
    have hI := final_invariant step hstep h₀ ks
    rw [run_append]
    show WindowBound M W ((run step s₀ ks ++ [eventOf step (final step s₀ ks) k]).filterMap
      q.admittedAt)
    rw [List.filterMap_append]
    cases ha : q.admittedAt (eventOf step (final step s₀ ks) k) with
    | none =>
      rw [List.filterMap_cons_none ha, List.filterMap_nil, List.append_nil]
      exact hbound
    | some t =>
      rw [List.filterMap_cons_some ha]
      obtain ⟨hclk, M', W', hb, hW, hroom⟩ := q.admitted _ k t hI ha
      have hMW := hbudget k List.mem_append_cons_self _ hb
      rw [Prod.mk.injEq] at hMW
      obtain ⟨rfl, rfl⟩ := hMW
      -- No earlier clock has forgotten anything inside the window of `t`.
      have hstart : ∀ x ∈ ks.filterMap clock, x - horizon ≤ t - (W' - 1) := by
        intro x hx
        have hxt : x ≤ t := by
          refine hle x hx t ?_
          rw [List.mem_filterMap]
          exact ⟨k, List.mem_singleton_self k, hclk⟩
        omega
      rw [q.remembered_final hstep h₀ hzero ks _ hstart] at hroom
      exact hbound.snoc hroom

end Quota
end Lib
