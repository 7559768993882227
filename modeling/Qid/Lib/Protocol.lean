/-
Handlers and the protocols they follow.

A handler is a program over a store that may fail, and an error ends it. A protocol is an automaton
over calls and their answers. `Leads` is computed by recursion over the program, so that the rules
below take a handler apart in the order it is written.
-/
import Qid.Lib.Program
import Qid.Lib.Checked

namespace Lib

variable {C : Type} {R : C → Type} {ε S : Type} {α β : Type}

/-- A program that returns a value or fails with an `ε`. -/
def Handler (C : Type) (R : C → Type) (ε α : Type) : Type := Program C R (Except ε α)

namespace Handler

def bind (x : Handler C R ε α) (f : α → Handler C R ε β) : Handler C R ε β :=
  Program.bind x fun r =>
    match r with
    | .ok a => f a
    | .error e => Program.ret (.error e)

instance : Monad (Handler C R ε) where
  pure a := Program.ret (.ok a)
  bind := bind

def check (x : Except ε α) : Handler C R ε α := Program.ret x

variable {σ ω : Type} {answer : ω → σ → (c : C) → R c × σ} {o : ω} {s t : σ}
  {x : Handler C R ε α} {f : α → Handler C R ε β}

theorem exec_bind_ok {a : α} (h : Program.exec answer (fun _ => o) s x = (.ok a, t)) :
    Program.exec answer (fun _ => o) s (x >>= f : Handler C R ε β) =
      Program.exec answer (fun _ => o) t (f a) := by
  refine (Program.exec_bind answer o s x _).trans ?_
  rw [h]

theorem exec_bind_error {e : ε} (h : Program.exec answer (fun _ => o) s x = (.error e, t)) :
    Program.exec answer (fun _ => o) s (x >>= f : Handler C R ε β) = (.error e, t) := by
  refine (Program.exec_bind answer o s x _).trans ?_
  rw [h]
  rfl

end Handler

/-- Which calls may be made in a phase, and the phase their answers lead to. -/
structure Protocol (S C : Type) (R : C → Type) where
  calls : S → C → Prop
  next : S → (c : C) → R c → S

variable {f : α → Handler C R ε β} {p : Program C R α} {x : Handler C R ε α} {A : C → Prop}

namespace Protocol

variable (P : Protocol S C R)

/-- From phase `s` the program follows the protocol and returns as `Q` says. -/
def Leads (Q : S → α → Prop) : S → Program C R α → Prop
  | s, .ret a => Q s a
  | s, .call c k => P.calls s c ∧ ∀ r, Leads Q (P.next s c r) (k r)

variable {P} {Q Q' : S → α → Prop} {s : S}

theorem Leads.mono (hQ : ∀ s a, Q s a → Q' s a) {p : Program C R α} (h : P.Leads Q s p) :
    P.Leads Q' s p := by
  induction p generalizing s with
  | ret a => exact hQ s a h
  | call c k ih => exact ⟨h.1, fun r => ih r (h.2 r)⟩

theorem leads_program_bind {Q : S → β → Prop} {f : α → Program C R β} :
    P.Leads Q s (p.bind f) ↔ P.Leads (fun s a => P.Leads Q s (f a)) s p := by
  induction p generalizing s with
  | ret => exact Iff.rfl
  | call c k ih => exact and_congr Iff.rfl (forall_congr' fun r => ih r)

/-- What is asked of a result for the handler to go on with `f`. -/
def Then (P : Protocol S C R) (Q : S → Except ε β → Prop) (f : α → Handler C R ε β) (s : S) :
    Except ε α → Prop
  | .ok a => P.Leads Q s (f a)
  | .error e => Q s (.error e)

theorem leads_bind {Q : S → Except ε β → Prop} :
    P.Leads Q s (x >>= f : Handler C R ε β) ↔ P.Leads (P.Then Q f) s x := by
  refine leads_program_bind.trans (iff_of_eq ?_)
  congr 1
  funext s r
  cases r with
  | _ => rfl

/-- A computation between two calls fails, or the handler goes on with its value. -/
theorem leads_check_bind {Q : S → Except ε β → Prop} {x : Except ε α}
    (herror : ∀ e, x = .error e → Q s (.error e)) (hok : ∀ a, x = .ok a → P.Leads Q s (f a)) :
    P.Leads Q s (Handler.check x >>= f : Handler C R ε β) := by
  cases x with
  | ok a => exact hok a rfl
  | error e => exact herror e rfl

end Protocol

namespace Program

theorem makes_bind {f : α → Program C R β} (hp : p.Makes A) (hf : ∀ a, (f a).Makes A) :
    (p.bind f).Makes A := by
  induction p with
  | ret a => exact hf a
  | call c k ih => exact ⟨hp.1, fun r => ih r (hp.2 r)⟩

/-- A program that makes calls in `A` follows any protocol that allows them in its phase and
stays there. -/
theorem Makes.leads {P : Protocol S C R} {s : S} (hcalls : ∀ c, A c → P.calls s c)
    (hnext : ∀ c r, A c → P.next s c r = s) (h : p.Makes A) : P.Leads (fun t _ => t = s) s p := by
  induction p with
  | ret => exact rfl
  | call c k ih =>
    refine ⟨hcalls c h.1, fun r => ?_⟩
    rw [hnext c r h.1]
    exact ih r (h.2 r)

end Program

theorem Handler.makes_bind (hx : Program.Makes A x) (hf : ∀ a, Program.Makes A (f a)) :
    Program.Makes A (x >>= f : Handler C R ε β) := by
  refine Program.makes_bind hx fun r => ?_
  cases r with
  | ok a => exact hf a
  | error => exact trivial

theorem Handler.makes_call_bind {c : C} {g : R c → Except ε α} (hc : A c)
    (hf : ∀ a, Program.Makes A (f a)) :
    Program.Makes A (Handler.bind (.call c fun r => .ret (g r)) f) :=
  Handler.makes_bind ⟨hc, fun _ => trivial⟩ hf

theorem Handler.makes_check_bind {x : Except ε α} (hf : ∀ a, Program.Makes A (f a)) :
    Program.Makes A (Handler.check x >>= f : Handler C R ε β) :=
  Handler.makes_bind trivial hf

end Lib
