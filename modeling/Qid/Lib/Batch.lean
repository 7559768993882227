/-
Loops that write as they go.

`forEach f s l` runs `f` over a list until the first error, and keeps the state that it has reached,
also when it fails.
-/
import Mathlib.Data.List.Basic

namespace Lib

variable {σ α ε : Type}

def forEach (f : σ → α → Except ε Unit × σ) : σ → List α → Except ε Unit × σ
  | s, [] => (.ok (), s)
  | s, a :: l =>
    let r := f s a
    match r.1 with
    | .error e => (.error e, r.2)
    | .ok () => forEach f r.2 l

variable {f : σ → α → Except ε Unit × σ} {s : σ} {a : α} {l : List α}

theorem forEach_cons_ok (h : (f s a).1 = .ok ()) :
    forEach f s (a :: l) = forEach f (f s a).2 l := by
  rw [forEach, h]

theorem of_forEach_cons_ok (h : (forEach f s (a :: l)).1 = .ok ()) : (f s a).1 = .ok () := by
  cases hstep : (f s a).1 with
  | error =>
    rw [forEach, hstep] at h
    cases h
  | ok => rfl

theorem of_forEach_append_ok {l' : List α} (h : (forEach f s (l ++ l')).1 = .ok ()) :
    (forEach f s l).1 = .ok () ∧ (forEach f (forEach f s l).2 l').1 = .ok () := by
  induction l generalizing s with
  | nil => exact ⟨rfl, h⟩
  | cons a l ih =>
    have ha := of_forEach_cons_ok h
    rw [List.cons_append, forEach_cons_ok ha] at h
    rw [forEach_cons_ok ha]
    exact ih h

/-- What every step keeps holds at the end of a loop, however it ends. -/
theorem forEach_keeps {I : σ → Prop} (hstep : ∀ s, ∀ a ∈ l, I s → I (f s a).2) (hs : I s) :
    I (forEach f s l).2 := by
  induction l generalizing s with
  | nil => exact hs
  | cons a l ih =>
    have hnext := hstep s a List.mem_cons_self hs
    rw [forEach]
    split
    · exact hnext
    · exact ih (fun s b hb => hstep s b (List.mem_cons_of_mem a hb)) hnext

/-- What every step that succeeds keeps holds at the end of a loop that succeeds. -/
theorem forEach_invariant {I : List α → σ → Prop}
    (hstep : ∀ pre a post, l = pre ++ a :: post → ∀ s, I pre s → (f s a).1 = .ok () →
      I (pre ++ [a]) (f s a).2)
    (hs : I [] s) (hok : (forEach f s l).1 = .ok ()) : I l (forEach f s l).2 := by
  suffices h : ∀ pre post s, l = pre ++ post → I pre s → (forEach f s post).1 = .ok () →
      I l (forEach f s post).2 from h [] l s rfl hs hok
  intro pre post
  induction post generalizing pre with
  | nil =>
    intro s hl hI _
    rw [List.append_nil] at hl
    rw [hl]
    exact hI
  | cons a post ih =>
    intro s hl hI hok
    have ha := of_forEach_cons_ok hok
    rw [forEach_cons_ok ha] at hok ⊢
    have hl' : l = pre ++ [a] ++ post := by rw [hl, List.append_assoc, List.singleton_append]
    exact ih (pre ++ [a]) (f s a).2 hl' (hstep pre a post hl s hI ha) hok

/-- A loop whose steps succeed wherever the invariant holds succeeds, and the invariant holds at
its end. -/
theorem forEach_ok {I : List α → σ → Prop}
    (hstep : ∀ pre a post, l = pre ++ a :: post → ∀ s, I pre s →
      (f s a).1 = .ok () ∧ I (pre ++ [a]) (f s a).2)
    (hs : I [] s) : (forEach f s l).1 = .ok () ∧ I l (forEach f s l).2 := by
  suffices h : ∀ pre post s, l = pre ++ post → I pre s → (forEach f s post).1 = .ok () from
    ⟨h [] l s rfl hs, forEach_invariant (fun pre a post hl s hI _ => (hstep pre a post hl s hI).2)
      hs (h [] l s rfl hs)⟩
  intro pre post
  induction post generalizing pre with
  | nil => exact fun _ _ _ => rfl
  | cons a post ih =>
    intro s hl hI
    obtain ⟨ha, hI'⟩ := hstep pre a post hl s hI
    have hl' : l = pre ++ [a] ++ post := by rw [hl, List.append_assoc, List.singleton_append]
    rw [forEach_cons_ok ha]
    exact ih (pre ++ [a]) (f s a).2 hl' hI'

end Lib
