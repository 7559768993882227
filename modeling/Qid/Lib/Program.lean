/-
Handlers as programs over a store.

A `Program` is the tree of its calls: each node makes one call and continues with the answer. In a
`Pool` any number of programs run on one store, interleaved at their calls. The answers come from a
function `answer`, with an argument for what the store does not determine.
-/
import Mathlib.Data.List.Basic

namespace Lib

/-- A program that makes calls `c : C`, answered in `R c`, and returns an `α`. -/
inductive Program (C : Type) (R : C → Type) (α : Type) where
  | ret (a : α)
  | call (c : C) (k : R c → Program C R α)

variable {C : Type} {R : C → Type} {α σ ω : Type}

namespace Program

variable {p : Program C R α} {P : Program C R α → Prop} {c : C} {A B : C → Prop}

/-- Run alone, the `n`-th call with the `n`-th element of `oracle`. -/
def exec (answer : ω → σ → (c : C) → R c × σ) : (Nat → ω) → σ → Program C R α → α × σ
  | _, s, ret a => (a, s)
  | oracle, s, call c k =>
    exec answer (fun n => oracle (n + 1)) (answer (oracle 0) s c).2 (k (answer (oracle 0) s c).1)

theorem exec_call (answer : ω → σ → (c : C) → R c × σ) (oracle : Nat → ω) (s : σ) (c : C)
    (k : R c → Program C R α) :
    exec answer oracle s (call c k) =
      exec answer (fun n => oracle (n + 1)) (answer (oracle 0) s c).2
        (k (answer (oracle 0) s c).1) := rfl

/-- `P` holds of the program and of all that is left of it after any answers that
satisfy `Q`. -/
def Always (Q : (c : C) → R c → Prop) (P : Program C R α → Prop) : Program C R α → Prop
  | ret a => P (ret a)
  | call c k => P (call c k) ∧ ∀ r, Q c r → Always Q P (k r)

theorem Always.here {Q : (c : C) → R c → Prop} (h : Always Q P p) : P p := by
  cases p with
  | ret => exact h
  | call => exact h.1

/-- Every call the program may make lies in `A`. -/
def Makes (A : C → Prop) : Program C R α → Prop
  | ret _ => True
  | call c k => A c ∧ ∀ r, Makes A (k r)

theorem Makes.mono (hAB : ∀ c, A c → B c) (h : Makes A p) : Makes B p := by
  induction p with
  | ret => exact trivial
  | call c k ih => exact ⟨hAB c h.1, fun r => ih r (h.2 r)⟩

theorem makes_any (p : Program C R α) : Makes (fun _ => True) p := by
  induction p with
  | ret => exact trivial
  | call c k ih => exact ⟨trivial, ih⟩

/-- What every call of a program keeps, the program keeps. -/
theorem exec_invariant {answer : ω → σ → (c : C) → R c × σ} {I : σ → Prop}
    (hstep : ∀ o s c, A c → I s → I (answer o s c).2) (hp : Makes A p) {s : σ} (h : I s)
    (oracle : Nat → ω) : I (exec answer oracle s p).2 := by
  induction p generalizing s oracle with
  | ret => exact h
  | call c k ih => exact ih _ (hp.2 _) (hstep _ s c hp.1 h) _

/-- Oracles that agree on the calls of a program run it alike. -/
theorem exec_congr {answer : ω → σ → (c : C) → R c × σ} {oracle oracle' : Nat → ω}
    (h : ∀ n s c, A c → answer (oracle n) s c = answer (oracle' n) s c) (hp : Makes A p) (s : σ) :
    exec answer oracle s p = exec answer oracle' s p := by
  induction p generalizing s oracle oracle' with
  | ret => rfl
  | call c k ih =>
    rw [exec_call, h 0 s c hp.1]
    exact ih _ (fun n => h (n + 1)) (hp.2 _) _

/-- Run `p` and continue with what it returns. -/
def bind {β : Type} : Program C R α → (α → Program C R β) → Program C R β
  | ret a, f => f a
  | call c k, f => call c fun r => bind (k r) f

/-- Where every call has the same oracle, a sequence runs as its parts. -/
theorem exec_bind {β : Type} (answer : ω → σ → (c : C) → R c × σ) (o : ω) (s : σ)
    (p : Program C R α) (f : α → Program C R β) :
    exec answer (fun _ => o) s (p.bind f) =
      exec answer (fun _ => o) (exec answer (fun _ => o) s p).2
        (f (exec answer (fun _ => o) s p).1) := by
  induction p generalizing s with
  | ret => rfl
  | call c k ih => exact ih _ _

/-- Some answers lead to a call in `A` before any call in `B`. -/
def Ahead (A B : C → Prop) : Program C R α → Prop
  | ret _ => False
  | call c k => A c ∨ ¬ B c ∧ ∃ r, Ahead A B (k r)

/-- Past a call that is not in `B`, nothing new comes to lie ahead. -/
theorem Ahead.of_next {k : R c → Program C R α} {r : R c} (hB : ¬ B c) (h : Ahead A B (k r)) :
    Ahead A B (call c k) := Or.inr ⟨hB, r, h⟩

end Program

structure Pool (σ : Type) (C : Type) (R : C → Type) (α : Type) where
  shared : σ
  threads : List (Program C R α)

/-- A program starts, one makes its next call, or a call comes from elsewhere. -/
inductive Pool.Act (C : Type) (R : C → Type) (α ω : Type) where
  | start (p : Program C R α)
  | resume (i : Nat) (oracle : ω)
  | outside (c : C) (oracle : ω)

namespace Pool

variable (answer : ω → σ → (c : C) → R c × σ)

/-- The reply is the call that was made, with its answer. -/
def step (w : Pool σ C R α) : Act C R α ω → Option ((c : C) × R c) × Pool σ C R α
  | .start p => (none, { w with threads := w.threads ++ [p] })
  | .resume i oracle =>
    match w.threads[i]? with
    | some (.call c k) =>
      let r := answer oracle w.shared c
      (some ⟨c, r.1⟩, { shared := r.2, threads := w.threads.set i (k r.1) })
    | _ => (none, w)
  | .outside c oracle =>
    let r := answer oracle w.shared c
    (some ⟨c, r.1⟩, { w with shared := r.2 })

inductive Stepped (w : Pool σ C R α) : Act C R α ω → Pool σ C R α → Prop
  | start (p : Program C R α) : Stepped w (.start p) { w with threads := w.threads ++ [p] }
  | idle (i : Nat) (oracle : ω) : Stepped w (.resume i oracle) w
  | resume (i : Nat) (oracle : ω) (c : C) (k : R c → Program C R α)
      (h : w.threads[i]? = some (.call c k)) :
      Stepped w (.resume i oracle)
        { shared := (answer oracle w.shared c).2
          threads := w.threads.set i (k (answer oracle w.shared c).1) }
  | outside (c : C) (oracle : ω) :
      Stepped w (.outside c oracle) { w with shared := (answer oracle w.shared c).2 }

theorem stepped (w : Pool σ C R α) (a : Act C R α ω) : Stepped answer w a (step answer w a).2 := by
  cases a with
  | start p => exact Stepped.start p
  | outside c oracle => exact Stepped.outside c oracle
  | resume i oracle =>
    dsimp only [step]
    split
    · exact Stepped.resume i oracle _ _ ‹_›
    · exact Stepped.idle i oracle

end Pool
end Lib
