/-
Runs of a deterministic machine.

A machine is a step function `step : σ → κ → ρ × σ` that answers a call and moves to the next state.
`run` keeps every step of a run as an event.
-/
import Mathlib.Data.List.Basic

namespace Lib

variable {σ κ ρ : Type*} {s : σ} {ks : List κ} {I : σ → Prop}

structure Event (σ κ ρ : Type*) where
  before : σ
  call : κ
  reply : ρ
  after : σ

def eventOf (step : σ → κ → ρ × σ) (s : σ) (k : κ) : Event σ κ ρ :=
  { before := s, call := k, reply := (step s k).1, after := (step s k).2 }

def run (step : σ → κ → ρ × σ) : σ → List κ → List (Event σ κ ρ)
  | _, [] => []
  | s, k :: ks => eventOf step s k :: run step (step s k).2 ks

def final (step : σ → κ → ρ × σ) : σ → List κ → σ
  | s, [] => s
  | s, k :: ks => final step (step s k).2 ks

variable (step : σ → κ → ρ × σ)

@[simp] theorem run_nil (s : σ) : run step s [] = [] := rfl

@[simp] theorem run_cons (s : σ) (k : κ) (ks : List κ) :
    run step s (k :: ks) = eventOf step s k :: run step (step s k).2 ks := rfl

@[simp] theorem final_nil (s : σ) : final step s [] = s := rfl

@[simp] theorem final_cons (s : σ) (k : κ) (ks : List κ) :
    final step s (k :: ks) = final step (step s k).2 ks := rfl

theorem run_append (s : σ) (ks ls : List κ) :
    run step s (ks ++ ls) = run step s ks ++ run step (final step s ks) ls := by
  induction ks generalizing s with
  | nil => rfl
  | cons k ks ih => rw [List.cons_append, run_cons, ih, run_cons, final_cons, List.cons_append]

theorem final_append (s : σ) (ks ls : List κ) :
    final step s (ks ++ ls) = final step (final step s ks) ls := by
  induction ks generalizing s with
  | nil => rfl
  | cons k ks ih => exact ih _

variable {e : Event σ κ ρ}

theorem call_mem_of_mem_run (h : e ∈ run step s ks) : e.call ∈ ks := by
  induction ks generalizing s with
  | nil => cases h
  | cons k ks ih =>
    rcases List.mem_cons.mp h with rfl | h
    · exact List.mem_cons_self
    · exact List.mem_cons_of_mem k (ih h)

variable {xs ys : List (Event σ κ ρ)}

/-- A split of the events of a run is a split of its calls. -/
theorem run_eq_append (h : run step s ks = xs ++ ys) :
    ∃ ks₁ ks₂, ks = ks₁ ++ ks₂ ∧ run step s ks₁ = xs ∧ run step (final step s ks₁) ks₂ = ys := by
  induction xs generalizing s ks with
  | nil => exact ⟨[], ks, rfl, rfl, h⟩
  | cons x xs ih =>
    cases ks with
    | nil => simp at h
    | cons k =>
      rw [run_cons, List.cons_append, List.cons.injEq] at h
      obtain ⟨ks₁, ks₂, hks, hxs, hys⟩ := ih h.2
      refine ⟨k :: ks₁, ks₂, ?_, ?_, hys⟩
      · rw [hks, List.cons_append]
      · rw [run_cons, h.1, hxs]

theorem run_eq_append_cons (h : run step s ks = xs ++ e :: ys) :
    ∃ ks₁ k ks₂, ks = ks₁ ++ k :: ks₂ ∧ run step s ks₁ = xs ∧
      e = eventOf step (final step s ks₁) k ∧
      run step (step (final step s ks₁) k).2 ks₂ = ys := by
  obtain ⟨ks₁, ks₂, rfl, hxs, hys⟩ := run_eq_append step h
  cases ks₂ with
  | nil => cases hys
  | cons k ks₂ =>
    rw [run_cons, List.cons.injEq] at hys
    exact ⟨ks₁, k, ks₂, rfl, hxs, hys.1.symm, hys.2⟩

theorem of_mem_run (h : e ∈ run step s ks) :
    ∃ ks₁ k, ks₁ ++ [k] <+: ks ∧ e = eventOf step (final step s ks₁) k := by
  obtain ⟨xs, ys, hrun⟩ := List.append_of_mem h
  obtain ⟨ks₁, k, ks₂, rfl, -, he, -⟩ := run_eq_append_cons step hrun
  refine ⟨ks₁, k, ⟨ks₂, ?_⟩, he⟩
  rw [List.append_assoc, List.singleton_append]

/-- What holds of every call and the calls before it may be checked by position. -/
theorem forall_prefix_iff {P : List κ → κ → Prop} :
    (∀ xs k, xs ++ [k] <+: ks → P xs k) ↔ ∀ i : Fin ks.length, P (ks.take i) (ks.get i) := by
  constructor
  · intro h i
    refine h _ _ ⟨ks.drop (i + 1), ?_⟩
    rw [List.get_eq_getElem, List.take_append_getElem, List.take_append_drop]
  · rintro h xs k ⟨rest, rfl⟩
    have hlt : xs.length < (xs ++ [k] ++ rest).length := by
      simp only [List.length_append, List.length_cons]
      omega
    simpa using h ⟨xs.length, hlt⟩

/-- What holds at the start and is kept by every step holds at the end. -/
theorem final_invariant (hstep : ∀ s k, I s → I (step s k).2) (h : I s) (ks : List κ) :
    I (final step s ks) := by
  induction ks generalizing s with
  | nil => exact h
  | cons k ks ih => exact ih (hstep s k h)

/-- What holds at the start and is kept by every step that meets a condition holds
around every event and at the end of a run whose steps all meet it. -/
theorem run_invariant {G : σ → κ → Prop} (hstep : ∀ s k, I s → G s k → I (step s k).2) (h : I s)
    (hG : ∀ e ∈ run step s ks, G e.before e.call) :
    (∀ e ∈ run step s ks, I e.before ∧ I e.after) ∧ I (final step s ks) := by
  induction ks generalizing s with
  | nil => exact ⟨fun e he => (by cases he), h⟩
  | cons k ks ih =>
    have hnext : I (step s k).2 := hstep s k h (hG _ List.mem_cons_self)
    obtain ⟨hevents, hfinal⟩ := ih hnext fun e he => hG e (List.mem_cons_of_mem _ he)
    exact ⟨List.forall_mem_cons.mpr ⟨⟨h, hnext⟩, hevents⟩, hfinal⟩

theorem run_history {I : List (Event σ κ ρ) → σ → Prop}
    (hstep : ∀ h s k, I h s → I (h ++ [eventOf step s k]) (step s k).2) {h : List (Event σ κ ρ)}
    (hi : I h s) (ks : List κ) : I (h ++ run step s ks) (final step s ks) := by
  induction ks generalizing h s with
  | nil => rw [run_nil, List.append_nil]; exact hi
  | cons k ks ih =>
    have := ih (hstep h s k hi)
    rwa [List.append_assoc] at this

/-- The value the last of a list of events recorded, or the one before them all. -/
def latest {α β : Type*} (record : α → Option β) (c : Option β) (l : List α) : Option β :=
  l.foldl (fun c e => (record e).or c) c

variable {α β : Type*} (record : α → Option β) (c : Option β)

theorem latest_append_cons (xs : List α) (e : α) (ys : List α) :
    latest record c (xs ++ e :: ys) = latest record ((record e).or (latest record c xs)) ys := by
  rw [latest, List.foldl_append]
  rfl

theorem latest_append_singleton (xs : List α) (e : α) :
    latest record c (xs ++ [e]) = (record e).or (latest record c xs) :=
  latest_append_cons record c xs e []

theorem of_latest_eq_some {c : Option β} {l : List α} {x : β} (h : latest record c l = some x) :
    c = some x ∨ ∃ e ∈ l, record e = some x := by
  induction l generalizing c with
  | nil => exact Or.inl h
  | cons e l ih =>
    rcases ih (c := (record e).or c) h with hc | ⟨e', he', hx⟩
    · cases hr : record e with
      | none =>
        rw [hr] at hc
        exact Or.inl hc
      | some =>
        rw [hr] at hc
        exact Or.inr ⟨e, List.mem_cons_self, hr.trans hc⟩
    · exact Or.inr ⟨e', List.mem_cons_of_mem e he', hx⟩

end Lib
