/-
Threads that share a state and one lock.

A thread runs outside the lock, asks for it, and gives it back when it returns. The two parts have
different types, so mutual exclusion needs no proof. A step of the system is one access to the
shared state or one operation on the lock.
-/
import Mathlib.Data.List.Basic

namespace Lib

/-- The shared state, the thread that holds the lock, and the others. -/
structure Mutex (σ τ ι : Type) where
  shared : σ
  inside : Option ι
  outside : List τ

namespace Mutex

variable {σ τ ι ρ ω : Type}

/-- The next step of a thread outside. -/
inductive Approach (σ τ ι : Type) where
  | act (s : σ) (t : τ)
  | enter (u : ι)

/-- The next step of the thread inside. -/
inductive Section (σ ι ρ : Type) where
  | act (s : σ) (u : ι)
  | leave (s : σ) (r : ρ)

/-- The shared state that a step inside leaves. -/
def Section.shared : Section σ ι ρ → σ
  | .act s _ | .leave s _ => s

/-- A thread starts, a thread outside moves, or the one inside moves, with an outcome of its
environment. -/
inductive Act (τ ω : Type) where
  | start (t : τ)
  | outside (i : Nat)
  | inside (o : ω)

variable (approach : σ → τ → Approach σ τ ι) (critical : ω → σ → ι → Section σ ι ρ)
  (m : Mutex σ τ ι)

/-- The reply is the result of the thread that returns in the step. A thread that asks for a lock
that is held stays where it is. -/
def step : Act τ ω → Option ρ × Mutex σ τ ι
  | .start t => (none, { m with outside := m.outside ++ [t] })
  | .outside i =>
    match m.outside[i]? with
    | none => (none, m)
    | some t =>
      match approach m.shared t with
      | .act s t' => (none, { m with shared := s, outside := m.outside.set i t' })
      | .enter u =>
        match m.inside with
        | some _ => (none, m)
        | none => (none, { m with inside := some u, outside := m.outside.eraseIdx i })
  | .inside o =>
    match m.inside with
    | none => (none, m)
    | some u =>
      match critical o m.shared u with
      | .act s u' => (none, { m with shared := s, inside := some u' })
      | .leave s r => (some r, { m with shared := s, inside := none })

/-- What one step does to the whole state, with its reply. -/
inductive Moved (m : Mutex σ τ ι) : Option ρ → Mutex σ τ ι → Prop
  | start (t : τ) : Moved m none { m with outside := m.outside ++ [t] }
  | idle : Moved m none m
  | outside (xs ys : List τ) (t t' : τ) (s : σ) (hat : m.outside = xs ++ t :: ys)
      (h : approach m.shared t = .act s t') :
      Moved m none { m with shared := s, outside := xs ++ t' :: ys }
  | enter (xs ys : List τ) (t : τ) (u : ι) (hat : m.outside = xs ++ t :: ys)
      (hfree : m.inside = none) (h : approach m.shared t = .enter u) :
      Moved m none { m with inside := some u, outside := xs ++ ys }
  | inside (o : ω) (u u' : ι) (s : σ) (hin : m.inside = some u)
      (h : critical o m.shared u = .act s u') :
      Moved m none { m with shared := s, inside := some u' }
  | leave (o : ω) (u : ι) (s : σ) (r : ρ) (hin : m.inside = some u)
      (h : critical o m.shared u = .leave s r) :
      Moved m (some r) { m with shared := s, inside := none }

theorem split_at_getElem? {l : List τ} {i : Nat} {t : τ} (h : l[i]? = some t) :
    l = l.take i ++ t :: l.drop (i + 1) ∧ i < l.length := by
  obtain ⟨hi, ht⟩ := List.getElem?_eq_some_iff.mp h
  refine ⟨?_, hi⟩
  rw [← ht, List.getElem_cons_drop, List.take_append_drop]

theorem moved (a : Act τ ω) :
    Moved approach critical m (step approach critical m a).1 (step approach critical m a).2 := by
  cases a with
  | start t => exact Moved.start t
  | outside =>
    dsimp only [step]
    split
    · exact Moved.idle
    · rename_i t ht
      obtain ⟨hat, hi⟩ := split_at_getElem? ht
      split
      · rename_i s t' hact
        rw [List.set_eq_take_append_cons_drop, if_pos hi]
        exact Moved.outside _ _ t t' s hat hact
      · rename_i u henter
        split
        · exact Moved.idle
        · rename_i hfree
          rw [List.eraseIdx_eq_take_drop_succ]
          exact Moved.enter _ _ t u hat hfree henter
  | inside o =>
    dsimp only [step]
    split
    · exact Moved.idle
    · rename_i u hu
      split
      · rename_i s u' hact
        exact Moved.inside o u u' s hu hact
      · rename_i s r hleave
        exact Moved.leave o u s r hu hleave

/-- The shared state and the thread inside before a step, its reply, and the two after it. -/
inductive Stepped (s : σ) : Option ι → Option ρ → σ → Option ι → Prop
  | idle (v : Option ι) : Stepped s v none s v
  | outside (v : Option ι) (t t' : τ) (s' : σ) (h : approach s t = .act s' t') :
      Stepped s v none s' v
  | enter (t : τ) (u : ι) (h : approach s t = .enter u) : Stepped s none none s (some u)
  | inside (o : ω) (u u' : ι) (s' : σ) (h : critical o s u = .act s' u') :
      Stepped s (some u) none s' (some u')
  | leave (o : ω) (u : ι) (s' : σ) (r : ρ) (h : critical o s u = .leave s' r) :
      Stepped s (some u) (some r) s' none

theorem stepped (a : Act τ ω) :
    Stepped approach critical m.shared m.inside (step approach critical m a).1
      (step approach critical m a).2.shared (step approach critical m a).2.inside := by
  have h := moved approach critical m a
  generalize (step approach critical m a).1 = reply at h ⊢
  generalize (step approach critical m a).2 = m' at h ⊢
  cases h with
  | start t | idle => exact Stepped.idle m.inside
  | outside xs ys t t' s hat h => exact Stepped.outside m.inside t t' s h
  | enter xs ys t u hat hfree h => rw [hfree]; exact Stepped.enter t u h
  | inside o u u' s hin h => rw [hin]; exact Stepped.inside o u u' s h
  | leave o u s r hin h => rw [hin]; exact Stepped.leave o u s r h

end Mutex
end Lib
