/-
Tables of records.

A table stores each record under the record's own key. The key is part of the type, so a record that
is found under a key has that key.
-/
import Qid.Lib.HashMap

namespace Lib

structure Table (V : Type) (key : V → String) where
  entries : HashMap V
  keyed : ∀ k v, entries.lookup k = some v → key v = k

namespace Table

variable {V : Type} {key : V → String} {v : V} {t : Table V key} {k : String} {vs : List V}

def empty : Table V key := ⟨∅, fun k v h => by rw [AList.lookup_empty] at h; cases h⟩

def find (t : Table V key) (k : String) : Option V := t.entries.lookup k

def put (t : Table V key) (v : V) : Table V key :=
  ⟨t.entries.insert (key v) v, fun k w h => by
    rcases HashMap.of_lookup_insert h with ⟨hk, hw⟩ | ⟨-, hw⟩
    · rw [← hw, hk]
    · exact t.keyed k w hw⟩

theorem key_of_find (h : t.find k = some v) : key v = k := t.keyed k v h

theorem find_key (h : t.find k = some v) : t.find (key v) = some v := by rw [key_of_find h, h]

theorem find_put (t : Table V key) (v : V) (k : String) :
    (t.put v).find k = if k = key v then some v else t.find k :=
  KeyMap.lookup_insert_eq t.entries (key v) k v

@[simp] theorem find_put_self (t : Table V key) (v : V) : (t.put v).find (key v) = some v := by
  rw [find_put, if_pos rfl]

theorem find_put_of_ne (t : Table V key) (h : k ≠ key v) : (t.put v).find k = t.find k := by
  rw [find_put, if_neg h]

def putAll (t : Table V key) (vs : List V) : Table V key := vs.foldl put t

theorem putAll_entries (t : Table V key) (vs : List V) :
    (t.putAll vs).entries = HashMap.insertAll key vs t.entries := by
  induction vs generalizing t with
  | nil => rfl
  | cons v vs ih => exact ih (t.put v)

theorem find_putAll_of_notMem (h : k ∉ vs.map key) (t : Table V key) :
    (t.putAll vs).find k = t.find k := by
  rw [find, putAll_entries]
  exact HashMap.lookup_insertAll_of_notMem h t.entries

theorem find_putAll_of_mem (hkeys : (vs.map key).Nodup) (hv : v ∈ vs) (t : Table V key) :
    (t.putAll vs).find (key v) = some v := by
  rw [find, putAll_entries]
  exact HashMap.lookup_insertAll_of_mem hkeys hv t.entries

/-- What is found is one of the new records, or was there under a key that none of them has. -/
theorem of_find_putAll (hkeys : (vs.map key).Nodup) {w : V}
    (h : (t.putAll vs).find (key w) = some w) :
    w ∈ vs ∨ key w ∉ vs.map key ∧ t.find (key w) = some w := by
  by_cases hmem : key w ∈ vs.map key
  · obtain ⟨v, hv, hkey⟩ := List.mem_map.mp hmem
    rw [← hkey, find_putAll_of_mem hkeys hv] at h
    exact Or.inl (Option.some.inj h ▸ hv)
  · rw [find_putAll_of_notMem hmem] at h
    exact Or.inr ⟨hmem, h⟩

def retain (keep : V → Bool) (t : Table V key) : Table V key :=
  ⟨KeyMap.filter (fun _ v => keep v) t.entries, fun k v h => by
    rw [KeyMap.lookup_filter, Option.filter_eq_some_iff] at h
    exact t.keyed k v h.1⟩

theorem find_retain (keep : V → Bool) (t : Table V key) (k : String) :
    (t.retain keep).find k = (t.find k).filter keep :=
  KeyMap.lookup_filter (fun _ v => keep v) t.entries k

theorem find_retain_eq_some {keep : V → Bool} :
    (t.retain keep).find k = some v ↔ t.find k = some v ∧ keep v = true := by
  rw [find_retain, Option.filter_eq_some_iff]

def erase (t : Table V key) (k : String) : Table V key :=
  ⟨t.entries.erase k, fun l v h => by
    rw [KeyMap.lookup_erase_eq] at h
    split at h
    · cases h
    · exact t.keyed l v h⟩

theorem find_erase (t : Table V key) (k l : String) :
    (t.erase k).find l = if l = k then none else t.find l :=
  KeyMap.lookup_erase_eq t.entries k l

def values (t : Table V key) : List V := t.entries.values

theorem mem_values : v ∈ t.values ↔ t.find (key v) = some v := by
  rw [values, HashMap.mem_values]
  constructor
  · rintro ⟨k, hk⟩
    rw [t.keyed k v hk]
    exact hk
  · intro h
    exact ⟨key v, h⟩

theorem nodup_values (t : Table V key) : t.values.Nodup := by
  have hkeys : t.values.map key = t.entries.keys := by
    rw [values, HashMap.values, List.map_map]
    refine List.map_congr_left fun e he => ?_
    exact t.keyed e.1 e.2 (AList.mem_lookup_iff.mpr he)
  refine List.Nodup.of_map key ?_
  rw [hkeys]
  exact t.entries.keys_nodup

/-- A loop that looks for one record finds only it. -/
theorem filter_values_eq_singleton {p : V → Bool} (hv : t.find (key v) = some v) (hp : p v = true)
    (honly : ∀ w, t.find (key w) = some w → p w = true → w = v) : t.values.filter p = [v] := by
  have hnodup : (t.values.filter p).Nodup := t.nodup_values.filter p
  refine List.perm_singleton.mp
    ((List.perm_ext_iff_of_nodup hnodup (List.nodup_singleton v)).mpr fun w => ?_)
  rw [List.mem_filter, mem_values, List.mem_singleton]
  constructor
  · intro hw
    exact honly w hw.1 hw.2
  · rintro rfl
    exact ⟨hv, hp⟩

theorem mem_map_filter_values {p : V → Bool} (hv : t.find (key v) = some v) :
    key v ∈ (t.values.filter p).map key ↔ p v = true := by
  simp only [List.mem_map, List.mem_filter, mem_values]
  constructor
  · rintro ⟨w, ⟨hw, hp⟩, hkey⟩
    rw [hkey, hv] at hw
    exact Option.some.inj hw ▸ hp
  · intro hp
    exact ⟨v, ⟨hv, hp⟩, rfl⟩

end Table
end Lib
