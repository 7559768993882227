/-
Jobs that share a store.

A job is a request in progress, at one of the points where it waits for a call to be answered.
`advance` makes that call and runs the job up to the next one; it is `none` for a job that has
returned.
-/
import Qid.Lib.Run

namespace Lib
namespace Jobs

variable {σ φ κ ε : Type} {job job' : φ} {env : ε} {i j : Nat}

structure System (σ φ : Type) where
  store : σ
  jobs : List φ

inductive Act (κ ε : Type) where
  | arrive (request : κ)
  | advance (i : Nat) (env : ε)
  deriving DecidableEq

/-- The reply of a step is the job it has moved. -/
def step (start : κ → φ) (advance : ε → σ → φ → Option (φ × σ)) (s : System σ φ) :
    Act κ ε → Option φ × System σ φ
  | .arrive request => (none, { s with jobs := s.jobs ++ [start request] })
  | .advance i env =>
    match (s.jobs[i]?).bind (advance env s.store) with
    | none => (none, s)
    | some (job, store) => (some job, { store := store, jobs := s.jobs.set i job })

/-- Run a job on its own, for at most `n` steps in one environment. -/
def complete (advance : ε → σ → φ → Option (φ × σ)) (env : ε) : Nat → σ → φ → φ × σ
  | 0, s, job => (job, s)
  | n + 1, s, job =>
    match advance env s job with
    | none => (job, s)
    | some (job', s') => complete advance env n s' job'

theorem complete_succ {advance : ε → σ → φ → Option (φ × σ)} {s s' : σ}
    (h : advance env s job = some (job', s')) (n : Nat) :
    complete advance env (n + 1) s job = complete advance env n s' job' := by
  rw [complete, h]

theorem complete_of_none {advance : ε → σ → φ → Option (φ × σ)} {s : σ}
    (h : advance env s job = none) (n : Nat) : complete advance env n s job = (job, s) := by
  cases n with
  | zero => rfl
  | succ => rw [complete, h]

def Any (P : φ → Prop) (jobs : List φ) : Prop := ∃ (j : Nat) (job : φ), jobs[j]? = some job ∧ P job

def All (P : φ → Prop) (jobs : List φ) : Prop := ∀ (j : Nat) (job : φ), jobs[j]? = some job → P job

variable {start : κ → φ} {advance : ε → σ → φ → Option (φ × σ)} {s : System σ φ} {act : Act κ ε}

/-- A request arrives, a job moves, or nothing happens. -/
theorem step_induction {motive : Option φ × System σ φ → Prop}
    (harrive : ∀ request, act = .arrive request →
      motive (none, { s with jobs := s.jobs ++ [start request] }))
    (hidle : motive (none, s))
    (hadvance : ∀ i env job job' store, act = .advance i env → s.jobs[i]? = some job →
      advance env s.store job = some (job', store) →
      motive (some job', { store := store, jobs := s.jobs.set i job' })) :
    motive (step start advance s act) := by
  cases act with
  | arrive request => exact harrive request rfl
  | advance i env =>
    rw [step]
    split
    · exact hidle
    · rename_i job' store hmoved
      obtain ⟨job, hjob, hmoved⟩ := Option.bind_eq_some_iff.mp hmoved
      exact hadvance i env job job' store rfl hjob hmoved

variable {P : φ → Prop} {jobs : List φ}

theorem lt_length (h : jobs[i]? = some job) : i < jobs.length := (List.getElem?_eq_some_iff.mp h).1

theorem of_getElem?_set (h : (jobs.set i job)[j]? = some job') :
    (j = i ∧ job' = job) ∨ (j ≠ i ∧ jobs[j]? = some job') := by
  by_cases hij : i = j
  · subst hij
    have hlt : i < jobs.length := by
      have := lt_length h
      rwa [List.length_set] at this
    rw [List.getElem?_set_self hlt] at h
    exact Or.inl ⟨rfl, (Option.some.inj h).symm⟩
  · rw [List.getElem?_set_ne hij] at h
    exact Or.inr ⟨fun h' => hij h'.symm, h⟩

theorem of_getElem?_append (h : (jobs ++ [job])[j]? = some job') :
    (j = jobs.length ∧ job' = job) ∨ jobs[j]? = some job' := by
  by_cases hj : j < jobs.length
  · rw [List.getElem?_append_left hj] at h
    exact Or.inr h
  · have hlt := lt_length h
    rw [List.length_append, List.length_singleton] at hlt
    have hj' : j = jobs.length := by omega
    rw [hj', List.getElem?_concat_length] at h
    exact Or.inl ⟨hj', (Option.some.inj h).symm⟩

/-- A job stays as it is, or it is the one that moves. -/
theorem step_job (start : κ → φ) (advance : ε → σ → φ → Option (φ × σ)) (act : Act κ ε)
    (hj : s.jobs[j]? = some job) :
    (step start advance s act).2.jobs[j]? = some job ∨
      ∃ env job' store, act = .advance j env ∧ advance env s.store job = some (job', store) ∧
        step start advance s act = (some job', { store := store, jobs := s.jobs.set j job' }) := by
  refine step_induction (motive := fun r => r.2.jobs[j]? = some job ∨
    ∃ env job' store, act = .advance j env ∧ advance env s.store job = some (job', store) ∧
      r = (some job', { store := store, jobs := s.jobs.set j job' })) ?_ (Or.inl hj) ?_
  · intro request _
    refine Or.inl ?_
    rw [List.getElem?_append_left (lt_length hj), hj]
  · intro i env found job' store hact hi hadvance
    by_cases hij : i = j
    · subst hij
      rw [hj, Option.some.injEq] at hi
      subst hi
      exact Or.inr ⟨env, job', store, hact, hadvance, rfl⟩
    · refine Or.inl ?_
      rw [List.getElem?_set_ne hij, hj]

theorem Any.append (h : Any P jobs) (job : φ) : Any P (jobs ++ [job]) := by
  obtain ⟨j, found, hfound, hP⟩ := h
  exact ⟨j, found, by rw [List.getElem?_append_left (lt_length hfound), hfound], hP⟩

/-- A job that moves keeps the property, or it is another one that has it. -/
theorem Any.set (h : Any P jobs) (hi : jobs[i]? = some job) (hjob : P job → P job') :
    Any P (jobs.set i job') := by
  obtain ⟨j, found, hfound, hP⟩ := h
  by_cases hij : i = j
  · subst hij
    rw [hi, Option.some.injEq] at hfound
    subst hfound
    exact ⟨i, job', List.getElem?_set_self (lt_length hi), hjob hP⟩
  · exact ⟨j, found, by rw [List.getElem?_set_ne hij, hfound], hP⟩

theorem All.append (h : All P jobs) (hjob : P job) : All P (jobs ++ [job]) := by
  intro j found hfound
  rcases of_getElem?_append hfound with ⟨-, rfl⟩ | hold
  · exact hjob
  · exact h j found hold

end Jobs
end Lib
