/-
Maps whose entries expire.

A key that is not live may be taken again.
-/
import Qid.Lib.HashMap
import Qid.Lib.Run

namespace Lib

structure Timed (V : Type) where
  value : V
  expiresAt : Nat
  deriving DecidableEq

abbrev ExpiringMap (V : Type) : Type := HashMap (Timed V)

namespace ExpiringMap

variable {V : Type} {now ttl later : Nat} {v : V} {l : String} (m : ExpiringMap V)

def live (now : Nat) (k : String) : Bool := (m.lookup k).any fun e => now < e.expiresAt

def set (now : Nat) (k : String) (v : V) (ttl : Nat) : ExpiringMap V :=
  m.insert k { value := v, expiresAt := now + ttl }

def setIfAbsent (now : Nat) (k : String) (v : V) (ttl : Nat) : Bool × ExpiringMap V :=
  if m.live now k then (false, m) else (true, m.set now k v ttl)

def get (now : Nat) (k : String) : Option V :=
  ((m.lookup k).filter fun e => now < e.expiresAt).map Timed.value

/-- Remove an entry, and return its value if it was live. -/
def take (now : Nat) (k : String) : Option V × ExpiringMap V :=
  (((m.lookup k).filter fun e => now < e.expiresAt).map Timed.value, m.erase k)

def Held (k : String) (T : Nat) : Prop := ∃ e, m.lookup k = some e ∧ T ≤ e.expiresAt

/-- Every entry's value is in a relation with its key. -/
def Sound (R : String → V → Prop) (m : ExpiringMap V) : Prop :=
  ∀ k e, m.lookup k = some e → R k e.value

section

variable {R : String → V → Prop} {m : ExpiringMap V}

theorem sound_empty : Sound R (∅ : ExpiringMap V) := by
  intro k e h
  cases h

theorem Sound.get (h : Sound R m) {k : String} (hget : m.get now k = some v) : R k v := by
  rw [ExpiringMap.get, Option.map_eq_some_iff] at hget
  obtain ⟨e, he, rfl⟩ := hget
  rw [Option.filter_eq_some_iff] at he
  exact h k e he.1

theorem Sound.set (h : Sound R m) {k : String} (hv : R k v) (now ttl : Nat) :
    Sound R (m.set now k v ttl) := by
  intro l e he
  rcases HashMap.of_lookup_insert he with ⟨rfl, rfl⟩ | ⟨-, he⟩
  · exact hv
  · exact h l e he

theorem Sound.retain (h : Sound R m) (keep : String → Bool) : Sound R (HashMap.retain keep m) := by
  intro k e he
  rw [HashMap.lookup_retain] at he
  split at he
  · exact h k e he
  · cases he

end

variable {m : ExpiringMap V} {k : String} {T : Nat}

theorem Held.live (h : Held m k T) (hnow : now < T) : m.live now k = true := by
  obtain ⟨e, he, hT⟩ := h
  rw [ExpiringMap.live, he, Option.any_some, decide_eq_true_eq]
  exact Nat.lt_of_lt_of_le hnow hT

theorem Held.set (h : Held m k T) (hne : k ≠ l) (now : Nat) (v : V) (ttl : Nat) :
    Held (m.set now l v ttl) k T := by
  obtain ⟨e, he, hT⟩ := h
  refine ⟨e, ?_, hT⟩
  rw [ExpiringMap.set, AList.lookup_insert_ne hne, he]

theorem Held.take (h : Held m k T) (hne : k ≠ l) (now : Nat) : Held (m.take now l).2 k T := by
  obtain ⟨e, he, hT⟩ := h
  refine ⟨e, ?_, hT⟩
  rw [ExpiringMap.take, AList.lookup_erase_ne hne, he]

theorem held_set_self (m : ExpiringMap V) (now : Nat) (k : String) (v : V) (ttl : Nat) :
    Held (m.set now k v ttl) k (now + ttl) :=
  ⟨_, AList.lookup_insert m, Nat.le_refl _⟩

theorem Held.setIfAbsent (h : Held m k T) (hnow : now < T) (l : String) (v : V) (ttl : Nat) :
    Held (m.setIfAbsent now l v ttl).2 k T := by
  rw [ExpiringMap.setIfAbsent]
  split
  · exact h
  · rename_i hl
    refine h.set (fun heq => hl ?_) now v ttl
    rw [← heq]
    exact h.live hnow

theorem setIfAbsent_eq_true (h : (m.setIfAbsent now k v ttl).1 = true) :
    m.live now k = false ∧ (m.setIfAbsent now k v ttl).2 = m.set now k v ttl := by
  rw [setIfAbsent] at h ⊢
  split at h
  · cases h
  · rename_i hl
    rw [if_neg hl]
    exact ⟨Bool.eq_false_iff.mpr hl, rfl⟩

theorem setIfAbsent_set_self (m : ExpiringMap V) (k : String) (v w : V) (hlater : now + ttl ≤ later)
    (ttl' : Nat) : ((m.set now k v ttl).setIfAbsent later k w ttl').1 = true := by
  have hdead : (m.set now k v ttl).live later k = false := by
    rw [live, set, AList.lookup_insert, Option.any_some, decide_eq_false_iff_not]
    exact Nat.not_lt.mpr hlater
  rw [setIfAbsent, hdead]
  rfl

end ExpiringMap

/-- Steps that keep a property up to a time keep it along a run in order of time. -/
theorem holds_of_mem_run {σ κ ρ : Type} {step : σ → κ → ρ × σ} (time : κ → Nat) {T : Nat}
    {I : σ → Prop} (hstep : ∀ s c, time c < T → I s → I (step s c).2) {s : σ} (h : I s)
    {calls : List κ} (hclock : calls.Pairwise fun a b => time a ≤ time b) :
    ∀ e ∈ run step s calls, time e.call < T → I e.before := by
  induction calls generalizing s with
  | nil =>
    intro e he
    cases he
  | cons c calls ih =>
    rw [List.pairwise_cons] at hclock
    intro e he hT
    rcases List.mem_cons.mp he with rfl | he
    · exact h
    · -- a later call is made before `T` only if this one is
      have hle : time c ≤ time e.call := hclock.1 e.call (call_mem_of_mem_run step he)
      exact ih (hstep s c (Nat.lt_of_le_of_lt hle hT) h) hclock.2 e he hT

end Lib
