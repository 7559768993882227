/-
Programs that run alone.

`Wp answer Q p s` says that `p`, run alone from the store `s`, ends with a value and a store that
satisfy `Q`. It is computed by recursion over the program.
-/
import Qid.Lib.Protocol

namespace Lib

variable {C : Type} {R : C → Type} {α β ε σ ω : Type}

namespace Program

variable {p : Program C R α}

/-- However the calls are answered, the program ends as `Q` says. -/
def Wp (answer : ω → σ → (c : C) → R c × σ) (Q : α → σ → Prop) : Program C R α → σ → Prop
  | .ret a, s => Q a s
  | .call c k, s => ∀ o, Wp answer Q (k (answer o s c).1) (answer o s c).2

variable {answer : ω → σ → (c : C) → R c × σ} {Q Q' : α → σ → Prop} {s : σ}

theorem Wp.exec (h : p.Wp answer Q s) (oracle : Nat → ω) :
    Q (p.exec answer oracle s).1 (p.exec answer oracle s).2 := by
  induction p generalizing s oracle with
  | ret => exact h
  | call c k ih => exact ih _ (h (oracle 0)) _

theorem Wp.mono (hQ : ∀ a t, Q a t → Q' a t) (h : p.Wp answer Q s) : p.Wp answer Q' s := by
  induction p generalizing s with
  | ret a => exact hQ a s h
  | call c k ih => exact fun o => ih _ (h o)

theorem wp_program_bind {Q : β → σ → Prop} {f : α → Program C R β} :
    (p.bind f).Wp answer Q s ↔ p.Wp answer (fun a t => (f a).Wp answer Q t) s := by
  induction p generalizing s with
  | ret => exact Iff.rfl
  | call c k ih => exact forall_congr' fun o => ih _

/-- What every call of a program keeps, the program keeps. -/
theorem Makes.wp {I : σ → Prop} {A : C → Prop} (hstep : ∀ o s c, A c → I s → I (answer o s c).2)
    (hp : p.Makes A) (h : I s) : p.Wp answer (fun _ t => I t) s := by
  induction p generalizing s with
  | ret => exact h
  | call c k ih => exact fun o => ih _ (hp.2 _) (hstep o s c hp.1 h)

end Program

namespace Handler

variable {answer : ω → σ → (c : C) → R c × σ} {Q : Except ε β → σ → Prop} {s : σ}
  {f : α → Handler C R ε β}

/-- What is asked of a result for the handler to go on with `f`. -/
def After (answer : ω → σ → (c : C) → R c × σ) (Q : Except ε β → σ → Prop)
    (f : α → Handler C R ε β) : Except ε α → σ → Prop
  | .ok a, t => Program.Wp answer Q (f a) t
  | .error e, t => Q (.error e) t

theorem wp_bind {x : Handler C R ε α} :
    Program.Wp answer Q (x >>= f : Handler C R ε β) s ↔
      Program.Wp answer (After answer Q f) x s := by
  refine Program.wp_program_bind.trans (iff_of_eq ?_)
  congr 1
  funext r t
  cases r with
  | _ => rfl

/-- A computation between two calls fails, or the handler goes on with its value. -/
theorem wp_check_bind {x : Except ε α} (herror : ∀ e, x = .error e → Q (.error e) s)
    (hok : ∀ a, x = .ok a → Program.Wp answer Q (f a) s) :
    Program.Wp answer Q (Handler.check x >>= f : Handler C R ε β) s := by
  cases x with
  | ok a => exact hok a rfl
  | error e => exact herror e rfl

end Handler

end Lib
