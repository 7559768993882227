/-
Walks and simple paths of a directed graph.

A graph is a relation. A node that a walk reaches is also reached by a trail that is not longer
(`Walk.exists_trail`).
-/
import Mathlib.Data.List.Basic

namespace Lib

variable {α : Type}

inductive Walk (edge : α → α → Prop) (a : α) : Nat → α → Prop
  | nil : Walk edge a 0 a
  | snoc {n : Nat} {b c : α} (h : Walk edge a n b) (he : edge b c) : Walk edge a (n + 1) c

variable {edge : α → α → Prop} {a b c : α}

theorem Walk.single (h : edge a b) : Walk edge a 1 b := Walk.nil.snoc h

variable {n : Nat}

theorem Walk.cons (he : edge a b) (h : Walk edge b n c) : Walk edge a (n + 1) c := by
  induction h with
  | nil => exact Walk.single he
  | snoc _ hbc ih => exact ih.snoc hbc

/-- A walk that starts in a set closed under the edges stays in it, and is one over any edges that
are the same there. -/
theorem Walk.congr {edge' : α → α → Prop} {S : α → Prop}
    (hedge : ∀ a b, S a → edge a b → S b ∧ edge' a b) (ha : S a) (h : Walk edge a n b) :
    S b ∧ Walk edge' a n b := by
  induction h with
  | nil => exact ⟨ha, Walk.nil⟩
  | snoc _ he ih =>
    obtain ⟨hc, he'⟩ := hedge _ _ ih.1 he
    exact ⟨hc, ih.2.snoc he'⟩

/-- The node is reached by a walk of at most `n` edges. -/
def Within (edge : α → α → Prop) (n : Nat) (a b : α) : Prop := ∃ k, k ≤ n ∧ Walk edge a k b

/-- A path without repetition from `a`, the last node first. -/
inductive Trail (edge : α → α → Prop) (a : α) : List α → Prop
  | root : Trail edge a [a]
  | step {b c : α} {l : List α} (h : Trail edge a (b :: l)) (he : edge b c)
      (hc : c ∉ b :: l) : Trail edge a (c :: b :: l)

theorem Trail.walk {l : List α} (h : Trail edge a (b :: l)) : Walk edge a l.length b := by
  generalize hm : b :: l = m at h
  induction h generalizing b l with
  | root =>
    cases hm
    exact Walk.nil
  | step _ he _ ih =>
    cases hm
    exact (ih rfl).snoc he

/-- A trail that has already met a node can be cut back to it. -/
theorem Trail.cut {l : List α} (h : Trail edge a l) (hc : c ∈ l) :
    ∃ l', Trail edge a (c :: l') ∧ (c :: l').length ≤ l.length := by
  induction h with
  | root =>
    rw [List.mem_singleton] at hc
    subst hc
    exact ⟨[], Trail.root, Nat.le_refl _⟩
  | @step b d l h he hd ih =>
    rcases List.mem_cons.mp hc with rfl | hc
    · exact ⟨b :: l, h.step he hd, Nat.le_refl _⟩
    · obtain ⟨l', hl', hlen⟩ := ih hc
      exact ⟨l', hl', Nat.le_succ_of_le hlen⟩

theorem Walk.exists_trail (h : Walk edge a n b) : ∃ l, Trail edge a (b :: l) ∧ l.length ≤ n := by
  classical
  induction h with
  | nil => exact ⟨[], Trail.root, Nat.le_refl 0⟩
  | @snoc n b c h he ih =>
    obtain ⟨l, hl, hlen⟩ := ih
    by_cases hc : c ∈ b :: l
    · obtain ⟨l', hl', hlen'⟩ := hl.cut hc
      rw [List.length_cons, List.length_cons] at hlen'
      exact ⟨l', hl', by omega⟩
    · exact ⟨b :: l, hl.step he hc, Nat.succ_le_succ hlen⟩

end Lib
