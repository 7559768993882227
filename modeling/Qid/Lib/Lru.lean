/-
Least recently used caches.

A cache keeps its entries in the order of their last use, the latest first.
-/
import Mathlib.Data.List.Nodup

namespace Lib

structure Lru (V : Type) (capacity : Nat) where
  entries : List (String × V)
  nodup : (entries.map Prod.fst).Nodup
  bounded : entries.length ≤ capacity

namespace Lru

variable {V : Type} {capacity : Nat} (c : Lru V capacity) {k : String} {e : String × V}

def empty : Lru V capacity := ⟨[], List.nodup_nil, Nat.zero_le _⟩

def peek (k : String) : Option V := c.entries.lookup k

/-- The entries of the other keys. -/
def others (k : String) : List (String × V) := c.entries.filter fun e => e.1 ≠ k

theorem nodup_others (k : String) : ((c.others k).map Prod.fst).Nodup :=
  c.nodup.sublist (List.filter_sublist.map _)

def pop (k : String) : Lru V capacity :=
  ⟨c.others k, c.nodup_others k, Nat.le_trans (List.length_filter_le _ _) c.bounded⟩

def put (k : String) (v : V) : Lru V capacity where
  entries := ((k, v) :: c.others k).take capacity
  nodup := by
    have hnew : k ∉ (c.others k).map Prod.fst := by
      intro hmem
      obtain ⟨e, he, rfl⟩ := List.mem_map.mp hmem
      simp [others] at he
    have hall : (((k, v) :: c.others k).map Prod.fst).Nodup := by
      rw [List.map_cons, List.nodup_cons]
      exact ⟨hnew, c.nodup_others k⟩
    exact hall.sublist ((List.take_sublist _ _).map _)
  bounded := List.length_take_le _ _

/-- The value of a key, which becomes the latest. -/
def get (k : String) : Option V × Lru V capacity :=
  match c.peek k with
  | none => (none, c)
  | some v => (some v, c.put k v)

variable {c}

theorem mem_of_peek {v : V} (h : c.peek k = some v) : (k, v) ∈ c.entries := by
  rw [peek, List.lookup_eq_some_iff] at h
  obtain ⟨front, back, hentries, -⟩ := h
  rw [hentries]
  simp

theorem notMem_of_peek (h : c.peek k = none) (v : V) : (k, v) ∉ c.entries := by
  intro hmem
  rw [peek, List.lookup_eq_none_iff] at h
  simpa using h (k, v) hmem

theorem mem_pop : e ∈ (c.pop k).entries ↔ e ∈ c.entries ∧ e.1 ≠ k := by
  show e ∈ c.others k ↔ _
  simp [others]

theorem mem_put {v : V} (h : e ∈ (c.put k v).entries) : e = (k, v) ∨ e ∈ c.entries ∧ e.1 ≠ k := by
  have hmem : e ∈ (k, v) :: c.others k := List.mem_of_mem_take h
  rcases List.mem_cons.mp hmem with rfl | hold
  · exact Or.inl rfl
  · exact Or.inr (mem_pop.mp hold)

theorem mem_get (h : e ∈ (c.get k).2.entries) : e ∈ c.entries := by
  rw [get] at h
  cases hpeek : c.peek k with
  | none =>
    rw [hpeek] at h
    exact h
  | some =>
    rw [hpeek] at h
    rcases mem_put h with rfl | hold
    · exact mem_of_peek hpeek
    · exact hold.1

theorem get_fst (c : Lru V capacity) (k : String) : (c.get k).1 = c.peek k := by
  rw [get]
  cases c.peek k with
  | _ => rfl

end Lru
end Lib
