/-
Services.

A service is a pool whose programs are the handlers of requests: a request arrives and its handler
starts, a handler makes its next call, or a call comes from elsewhere. Where the handlers follow
protocols, what every step keeps (`Moved`) holds after every run, with phases that the programs have
reached (`track`).
-/
import Qid.Lib.Protocol
import Qid.Lib.Run

namespace Lib
namespace Service

variable {σ Q C : Type} {R : C → Type} {α ω S : Type} {w : Pool σ C R α}

inductive Act (Q C ω : Type) where
  | arrive (q : Q)
  | advance (i : Nat) (oracle : ω)
  | outside (c : C) (oracle : ω)

section

variable (handler : Q → Program C R α) (answer : ω → σ → (c : C) → R c × σ)

def Act.toPool : Act Q C ω → Pool.Act C R α ω
  | .arrive q => .start (handler q)
  | .advance i oracle => .resume i oracle
  | .outside c oracle => .outside c oracle

def step (w : Pool σ C R α) (a : Act Q C ω) : Option ((c : C) × R c) × Pool σ C R α :=
  Pool.step answer w (a.toPool handler)

/-- A service before its first request. -/
def opened (s : σ) : Pool σ C R α := { shared := s, threads := [] }

/-- The event of the store in an event of the service. -/
def ofStore (e : Event (Pool σ C R α) (Act Q C ω) (Option ((c : C) × R c))) :
    Event σ (Act Q C ω) (Option ((c : C) × R c)) :=
  { before := e.before.shared, call := e.call, reply := e.reply, after := e.after.shared }

/-- A run as the store sees it. -/
def trace (w : Pool σ C R α) (acts : List (Act Q C ω)) :
    List (Event σ (Act Q C ω) (Option ((c : C) × R c))) :=
  (run (step handler answer) w acts).map ofStore

end

variable {h : List (Event σ (Act Q C ω) (Option ((c : C) × R c)))}

/-- A relation between the history of the store and the store, kept by every call, holds after
every run, whatever the handlers are. -/
theorem trace_history (handler : Q → Program C R α) (answer : ω → σ → (c : C) → R c × σ)
    {I : List (Event σ (Act Q C ω) (Option ((c : C) × R c))) → σ → Prop} (hidle : ∀ h s a, I h s →
      I (h ++ [{ before := s, call := a, reply := none, after := s }]) s)
    (hcall : ∀ h s a c oracle, I h s →
      I (h ++ [{ before := s, call := a, reply := some ⟨c, (answer oracle s c).1⟩
                 after := (answer oracle s c).2 }]) (answer oracle s c).2) (hi : I h w.shared)
    (acts : List (Act Q C ω)) :
    I (h ++ trace handler answer w acts) (final (step handler answer) w acts).shared := by
  induction acts generalizing h w with
  | nil =>
    rw [trace, run_nil, List.map_nil, List.append_nil]
    exact hi
  | cons a acts ih =>
    have hnext : I (h ++ [ofStore (eventOf (step handler answer) w a)])
        (step handler answer w a).2.shared := by
      cases a with
      | arrive => exact hidle h _ _ hi
      | outside c oracle => exact hcall h _ _ c oracle hi
      | advance i oracle =>
        dsimp only [eventOf, ofStore, step, Act.toPool, Pool.step]
        split
        · exact hcall h _ _ _ oracle hi
        · exact hidle h _ _ hi
    have := ih hnext
    rwa [List.append_assoc] at this

def arrivals : List (Act Q C ω) → List Q
  | [] => []
  | .arrive q :: acts => q :: arrivals acts
  | _ :: acts => arrivals acts

theorem arrivals_append (acts acts' : List (Act Q C ω)) :
    arrivals (acts ++ acts') = arrivals acts ++ arrivals acts' := by
  induction acts with
  | nil => rfl
  | cons a acts ih =>
    cases a with
    | arrive q => exact congrArg (q :: ·) ih
    | _ => exact ih

structure Served (σ Q S : Type) where
  shared : σ
  jobs : List (Q × S)

variable (P : Q → Protocol S C R) (start : Q → S) (answer : ω → σ → (c : C) → R c × σ)
  {m m' : Served σ Q S} {e : Event σ (Act Q C ω) (Option ((c : C) × R c))} {q : Q} {s : S} {i : Nat}
  {p : Program C R α} {k : Nat}
  {I : List (Event σ (Act Q C ω) (Option ((c : C) × R c))) → Served σ Q S → Prop}
  {acts : List (Act Q C ω)}

/-- What may happen in one step, and the event it leaves. -/
inductive Moved (m : Served σ Q S) :
    Event σ (Act Q C ω) (Option ((c : C) × R c)) → Served σ Q S → Prop
  | arrive (q : Q) :
      Moved m { before := m.shared, call := .arrive q, reply := none, after := m.shared }
        { m with jobs := m.jobs ++ [(q, start q)] }
  | idle (i : Nat) (oracle : ω) :
      Moved m { before := m.shared, call := .advance i oracle, reply := none
                after := m.shared } m
  | advance (i : Nat) (oracle : ω) (q : Q) (s : S) (c : C) (hjob : m.jobs[i]? = some (q, s))
      (hcall : (P q).calls s c) :
      Moved m
        { before := m.shared
          call := .advance i oracle
          reply := some ⟨c, (answer oracle m.shared c).1⟩
          after := (answer oracle m.shared c).2 }
        { shared := (answer oracle m.shared c).2
          jobs := m.jobs.set i (q, (P q).next s c (answer oracle m.shared c).1) }
  | outside (c : C) (oracle : ω) :
      Moved m
        { before := m.shared
          call := .outside c oracle
          reply := some ⟨c, (answer oracle m.shared c).1⟩
          after := (answer oracle m.shared c).2 }
        { m with shared := (answer oracle m.shared c).2 }

section

variable {P start answer} (hmoved : Moved P start answer m e m')
include hmoved

theorem Moved.requests :
    m'.jobs.map Prod.fst = m.jobs.map Prod.fst ++ arrivals [e.call] := by
  cases hmoved with
  | arrive =>
    rw [List.map_append]
    rfl
  | idle i oracle | outside c oracle => exact (List.append_nil _).symm
  | advance i oracle q s c hjob =>
    obtain ⟨hlt, hq⟩ := List.getElem?_eq_some_iff.mp hjob
    have hlt' : i < (m.jobs.map Prod.fst).length := by
      rw [List.length_map]
      exact hlt
    have hget : (m.jobs.map Prod.fst)[i] = q := by rw [List.getElem_map, hq]
    show (m.jobs.set i (q, _)).map Prod.fst = m.jobs.map Prod.fst ++ []
    rw [List.map_set, List.append_nil]
    conv_lhs => rw [← hget]
    exact List.set_getElem_self _

theorem Moved.before : e.before = m.shared := by cases hmoved <;> rfl

theorem Moved.after : e.after = m'.shared := by cases hmoved <;> rfl

theorem Moved.of_job (hk : m'.jobs[k]? = some (q, s)) :
    m.jobs[k]? = some (q, s) ∨ s = start q ∧ e.call = .arrive q ∨
      ∃ s₀ oracle c, m.jobs[k]? = some (q, s₀) ∧ (P q).calls s₀ c ∧
        e = { before := m.shared
              call := .advance k oracle
              reply := some ⟨c, (answer oracle m.shared c).1⟩
              after := (answer oracle m.shared c).2 } ∧
        s = (P q).next s₀ c (answer oracle m.shared c).1 := by
  cases hmoved with
  | idle i oracle | outside c oracle => exact Or.inl hk
  | arrive =>
    by_cases hlt : k < m.jobs.length
    · rw [List.getElem?_append_left hlt] at hk
      exact Or.inl hk
    · rw [List.getElem?_append_right (Nat.le_of_not_lt hlt)] at hk
      have hmem := List.mem_singleton.mp (List.mem_of_getElem? hk)
      rw [Prod.mk.injEq] at hmem
      rw [hmem.2, hmem.1]
      exact Or.inr (Or.inl ⟨rfl, rfl⟩)
  | advance i oracle r s₀ c hjob hcall =>
    rw [List.getElem?_set] at hk
    by_cases hik : i = k
    · subst hik
      have hlt : i < m.jobs.length := (List.getElem?_eq_some_iff.mp hjob).1
      rw [if_pos rfl, if_pos hlt] at hk
      cases hk
      exact Or.inr (Or.inr ⟨s₀, oracle, c, hjob, hcall, rfl, rfl⟩)
    · rw [if_neg hik] at hk
      exact Or.inl hk

/-- A job stays as it is, or makes its next call. -/
theorem Moved.job (hk : m.jobs[k]? = some (q, s)) :
    m'.jobs[k]? = some (q, s) ∨
      ∃ oracle c, (P q).calls s c ∧ m'.shared = (answer oracle m.shared c).2 ∧
        m'.jobs[k]? = some (q, (P q).next s c (answer oracle m.shared c).1) := by
  have hlt : k < m.jobs.length := (List.getElem?_eq_some_iff.mp hk).1
  cases hmoved with
  | idle i oracle | outside c oracle => exact Or.inl hk
  | arrive =>
    refine Or.inl ?_
    rw [List.getElem?_append_left hlt]
    exact hk
  | advance i oracle r s₀ c hjob hcall =>
    by_cases hik : i = k
    · subst hik
      rw [hk] at hjob
      cases hjob
      refine Or.inr ⟨oracle, c, hcall, rfl, ?_⟩
      rw [List.getElem?_set_self hlt]
    · refine Or.inl ?_
      rw [List.getElem?_set_ne hik]
      exact hk

end

variable (returns : Q → S → α → Prop)

/-- The programs of a pool have reached the phases. -/
structure Reached (w : Pool σ C R α) (m : Served σ Q S) : Prop where
  shared : m.shared = w.shared
  length : m.jobs.length = w.threads.length
  leads : ∀ (i : Nat) (p : Program C R α) (j : Q × S), w.threads[i]? = some p →
    m.jobs[i]? = some j → (P j.1).Leads (returns j.1) j.2 p

variable {P start answer returns} {handler : Q → Program C R α}

theorem reached_opened (s : σ) :
    Reached P returns (opened s : Pool σ C R α) { shared := s, jobs := [] } :=
  ⟨rfl, rfl, fun i p j hp => (by cases hp)⟩

theorem Reached.job (h : Reached P returns w m) (hp : w.threads[i]? = some p) :
    ∃ q s, m.jobs[i]? = some (q, s) ∧ (P q).Leads (returns q) s p := by
  have hlt : i < m.jobs.length := h.length ▸ (List.getElem?_eq_some_iff.mp hp).1
  have hj : m.jobs[i]? = some m.jobs[i] := List.getElem?_eq_getElem hlt
  exact ⟨_, _, hj, h.leads i p _ hp hj⟩

theorem Reached.arrive (h : Reached P returns w m) (hp : (P q).Leads (returns q) (start q) p) :
    Reached P returns { w with threads := w.threads ++ [p] }
      { m with jobs := m.jobs ++ [(q, start q)] } := by
  refine ⟨h.shared, ?_, ?_⟩
  · rw [List.length_append, List.length_append, h.length]
    rfl
  · intro i p' j hp' hj
    by_cases hi : i < w.threads.length
    · rw [List.getElem?_append_left hi] at hp'
      rw [List.getElem?_append_left (h.length ▸ hi)] at hj
      exact h.leads i p' j hp' hj
    · have hi : w.threads.length ≤ i := Nat.le_of_not_lt hi
      rw [List.getElem?_append_right hi, List.getElem?_singleton] at hp'
      rw [List.getElem?_append_right (h.length ▸ hi), List.getElem?_singleton, h.length] at hj
      split at hp'
      · rename_i h0
        rw [if_pos h0] at hj
        cases hp'
        cases hj
        exact hp
      · cases hp'

private theorem Reached.advance (h : Reached P returns w m) {shared : σ}
    (hp : (P q).Leads (returns q) s p) :
    Reached P returns { shared := shared, threads := w.threads.set i p }
      { shared := shared, jobs := m.jobs.set i (q, s) } := by
  refine ⟨rfl, ?_, ?_⟩
  · rw [List.length_set, List.length_set, h.length]
  · intro k p' j hp' hj
    rw [List.getElem?_set] at hp' hj
    by_cases hk : i = k
    · rw [if_pos hk] at hp' hj
      rw [h.length] at hj
      split at hp'
      · rename_i hlt
        rw [if_pos hlt] at hj
        cases hp'
        cases hj
        exact hp
      · cases hp'
    · rw [if_neg hk] at hp' hj
      exact h.leads k p' j hp' hj

section

variable (answer) (hhandler : ∀ q, (P q).Leads (returns q) (start q) (handler q))
include hhandler

theorem Reached.step (h : Reached P returns w m) (a : Act Q C ω) :
    ∃ m', Moved P start answer m (ofStore (eventOf (step handler answer) w a)) m' ∧
      Reached P returns (Service.step handler answer w a).2 m' := by
  obtain ⟨s, jobs⟩ := m
  have hshared := h.shared
  subst hshared
  cases a with
  | arrive q => exact ⟨_, Moved.arrive q, h.arrive (hhandler q)⟩
  | outside c oracle => exact ⟨_, Moved.outside c oracle, rfl, h.length, h.leads⟩
  | advance i oracle =>
    dsimp only [eventOf, ofStore, Service.step, Act.toPool, Pool.step]
    split
    · rename_i c k hi
      obtain ⟨q, p, hj, hlead⟩ := h.job hi
      exact ⟨_, Moved.advance i oracle q p c hj hlead.1, h.advance (hlead.2 _)⟩
    · exact ⟨_, Moved.idle i oracle, h⟩

/-- A relation between the history of the store and the phases, kept by every step,
holds after every run. -/
theorem track (hmoved : ∀ h m e m', I h m → Moved P start answer m e m' → I (h ++ [e]) m')
    (hw : Reached P returns w m) (hi : I h m) (acts : List (Act Q C ω)) :
    ∃ m', Reached P returns (final (step handler answer) w acts) m' ∧
      m'.jobs.map Prod.fst = m.jobs.map Prod.fst ++ arrivals acts ∧
      I (h ++ trace handler answer w acts) m' := by
  induction acts generalizing h w m with
  | nil =>
    refine ⟨m, hw, (List.append_nil _).symm, ?_⟩
    rw [trace, run_nil, List.map_nil, List.append_nil]
    exact hi
  | cons a acts ih =>
    obtain ⟨m₁, hmove, hw₁⟩ := hw.step answer hhandler a
    have hjobs₁ : m₁.jobs.map Prod.fst = m.jobs.map Prod.fst ++ arrivals [a] := hmove.requests
    obtain ⟨m₂, hw₂, hjobs₂, hi₂⟩ := ih hw₁ (hmoved h m _ m₁ hi hmove)
    refine ⟨m₂, hw₂, ?_, ?_⟩
    · rw [hjobs₂, hjobs₁, List.append_assoc, ← arrivals_append]
      rfl
    · rw [List.append_assoc] at hi₂
      exact hi₂

theorem track_event (hrun : ∀ acts₁ acts₂, acts = acts₁ ++ acts₂ →
      ∃ m, Reached P returns (final (step handler answer) w acts₁) m ∧
        m.jobs.map Prod.fst = arrivals acts₁ ∧ I (trace handler answer w acts₁) m)
    (he : e ∈ trace handler answer w acts) :
    ∃ pre post m m' later, trace handler answer w acts = pre ++ e :: post ∧ I pre m ∧
      Moved P start answer m e m' ∧ arrivals acts = m.jobs.map Prod.fst ++ later := by
  obtain ⟨x, hx, rfl⟩ := List.mem_map.mp he
  obtain ⟨xs, ys, hsplit⟩ := List.append_of_mem hx
  obtain ⟨acts₁, a, acts₂, hacts, rfl, rfl, -⟩ := run_eq_append_cons _ hsplit
  obtain ⟨m, hw, hrequests, hi⟩ := hrun acts₁ (a :: acts₂) hacts
  obtain ⟨m', hmove, -⟩ := hw.step answer hhandler a
  refine ⟨_, ys.map ofStore, m, m', arrivals (a :: acts₂), ?_, hi, hmove, ?_⟩
  · rw [trace, hsplit, List.map_append]
    rfl
  · rw [hacts, arrivals_append, hrequests]

end

theorem request_eq {r : Q} {l : List Q} (hjob : m.jobs[i]? = some (q, s))
    (hr : (m.jobs.map Prod.fst ++ l)[i]? = some r) : r = q := by
  have hlt : i < (m.jobs.map Prod.fst).length := by
    rw [List.length_map]
    exact (List.getElem?_eq_some_iff.mp hjob).1
  rw [List.getElem?_append_left hlt, List.getElem?_map, hjob] at hr
  exact (Option.some.inj hr).symm

theorem call_mem_of_mem_trace (he : e ∈ trace handler answer w acts) : e.call ∈ acts := by
  obtain ⟨e', he', rfl⟩ := List.mem_map.mp he
  exact call_mem_of_mem_run (step handler answer) he'

end Service
end Lib
