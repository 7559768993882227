/-
Claims on a record.

Requests of a service compete for a record that can be claimed once: no call takes the flag of the
claim back, and a request comes to hold the claim only by the call that sets the flag.
-/
import Qid.Lib.Service

namespace Lib
namespace Service

variable {σ Q C : Type} {R : C → Type} {ω S : Type} {m m' : Served σ Q S}
  {e : Event σ (Act Q C ω) (Option ((c : C) × R c))}

/-- At most one request holds the claim, and the flag shows it. -/
structure Claimed (flag : σ → Prop) (holds : Q → S → Prop) (m : Served σ Q S) : Prop where
  unique : ∀ {i j : Nat} {q q' : Q} {s s' : S}, m.jobs[i]? = some (q, s) → holds q s →
    m.jobs[j]? = some (q', s') → holds q' s' → i = j
  flagged : ∀ {i : Nat} {q : Q} {s : S}, m.jobs[i]? = some (q, s) → holds q s → flag m.shared

variable {P : Q → Protocol S C R} {start : Q → S} {answer : ω → σ → (c : C) → R c × σ}
  {flag : σ → Prop} {holds : Q → S → Prop}

theorem claimed_opened (s : σ) : Claimed flag holds ({ shared := s, jobs := [] } : Served σ Q S) :=
  ⟨fun hi => (by cases hi), fun hi => (by cases hi)⟩

theorem Moved.flagged (hflag : ∀ oracle s c, flag s → flag (answer oracle s c).2)
    (hmoved : Moved P start answer m e m') (h : flag m.shared) : flag m'.shared := by
  cases hmoved with
  | arrive q | idle i oracle => exact h
  | advance i oracle q s c | outside c oracle => exact hflag oracle m.shared c h

/-- A request that holds the claim held it before, or has just set the flag. -/
theorem Moved.of_holds (hstart : ∀ q, ¬ holds q (start q))
    (hclaim : ∀ oracle s q ph c, (P q).calls ph c → ¬ holds q ph →
      holds q ((P q).next ph c (answer oracle s c).1) → ¬ flag s ∧ flag (answer oracle s c).2)
    (hmoved : Moved P start answer m e m') {i : Nat} {q : Q} {s : S}
    (hi : m'.jobs[i]? = some (q, s)) (hs : holds q s) :
    (∃ s₀, m.jobs[i]? = some (q, s₀) ∧ holds q s₀) ∨
      ¬ flag m.shared ∧ flag m'.shared ∧ ∃ oracle, e.call = .advance i oracle := by
  rcases hmoved.of_job hi with hi | ⟨hnew, -⟩ | ⟨s₀, oracle, c, hi, hcall, he, hnext⟩
  · exact Or.inl ⟨s, hi, hs⟩
  · rw [hnew] at hs
    exact absurd hs (hstart q)
  · by_cases hs₀ : holds q s₀
    · exact Or.inl ⟨s₀, hi, hs₀⟩
    · rw [hnext] at hs
      obtain ⟨hbefore, hafter⟩ := hclaim oracle m.shared q s₀ c hcall hs₀ hs
      have hshared : m'.shared = (answer oracle m.shared c).2 := by rw [← hmoved.after, he]
      exact Or.inr ⟨hbefore, hshared ▸ hafter, oracle, by rw [he]⟩

theorem Claimed.moved (hstart : ∀ q, ¬ holds q (start q))
    (hflag : ∀ oracle s c, flag s → flag (answer oracle s c).2)
    (hclaim : ∀ oracle s q ph c, (P q).calls ph c → ¬ holds q ph →
      holds q ((P q).next ph c (answer oracle s c).1) → ¬ flag s ∧ flag (answer oracle s c).2)
    (hm : Claimed flag holds m) (hmoved : Moved P start answer m e m') : Claimed flag holds m' := by
  refine ⟨fun {i j q q' s s'} hi hs hj hs' => ?_, fun {i q s} hi hs => ?_⟩
  · rcases hmoved.of_holds hstart hclaim hi hs with ⟨t, ht, hold⟩ | ⟨hfree, -, oracle, hcall⟩
    · rcases hmoved.of_holds hstart hclaim hj hs' with ⟨t', ht', hold'⟩ | ⟨hfree, -⟩
      · exact hm.unique ht hold ht' hold'
      · exact absurd (hm.flagged ht hold) hfree
    · rcases hmoved.of_holds hstart hclaim hj hs' with ⟨t', ht', hold'⟩ | ⟨-, -, oracle', hcall'⟩
      · exact absurd (hm.flagged ht' hold') hfree
      · rw [hcall] at hcall'
        injection hcall'
  · rcases hmoved.of_holds hstart hclaim hi hs with ⟨t, ht, hold⟩ | ⟨-, hset, -⟩
    · exact hmoved.flagged hflag (hm.flagged ht hold)
    · exact hset

end Service
end Lib
