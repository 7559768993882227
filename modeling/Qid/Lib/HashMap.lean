/-
Finite maps, with string keys and with any.

A map is an association list without duplicate keys, in the order a loop visits them. Nothing proved
about a map depends on it.
-/
import Mathlib.Data.List.AList
import Mathlib.Data.List.Induction
import Mathlib.Algebra.BigOperators.Group.List.Basic
import Mathlib.Algebra.GroupWithZero.Nat

namespace Lib

abbrev KeyMap (K V : Type) : Type := AList (fun _ : K => V)

namespace KeyMap

variable {K V : Type}

def filter (keep : K → V → Bool) (m : KeyMap K V) : KeyMap K V :=
  ⟨m.entries.filter fun e => keep e.1 e.2, m.nodupKeys.sublist List.filter_sublist⟩

def values (m : KeyMap K V) : List V := m.entries.map fun e => e.2

def size (m : KeyMap K V) : Nat := m.entries.length

variable [DecidableEq K]

theorem lookup_filter (keep : K → V → Bool) (m : KeyMap K V) (k : K) :
    (m.filter keep).lookup k = (m.lookup k).filter (keep k) := by
  apply Option.ext
  intro v
  rw [← Option.mem_def, AList.mem_lookup_iff, Option.filter_eq_some_iff, ← Option.mem_def,
    AList.mem_lookup_iff]
  exact List.mem_filter

variable (m : KeyMap K V)

theorem lookup_insert_eq (k l : K) (v : V) :
    (m.insert k v).lookup l = if l = k then some v else m.lookup l := by
  by_cases h : l = k
  · subst h
    rw [AList.lookup_insert, if_pos rfl]
  · rw [AList.lookup_insert_ne h, if_neg h]

theorem lookup_erase_eq (k l : K) : (m.erase k).lookup l = if l = k then none else m.lookup l := by
  by_cases h : l = k
  · subst h
    rw [AList.lookup_erase, if_pos rfl]
  · rw [AList.lookup_erase_ne h, if_neg h]

/-- A value stored under a key that is there takes no room. -/
theorem size_insert_of_mem {m : KeyMap K V} {k : K} (h : k ∈ m) (v : V) :
    size (m.insert k v) = m.size := by
  obtain ⟨w, xs, ys, -, hm, he⟩ := List.exists_of_kerase h
  show (⟨k, v⟩ :: m.entries.kerase k).length = m.entries.length
  rw [he, hm, List.length_cons, List.length_append, List.length_append, List.length_cons]
  omega

theorem size_insert_le (k : K) (v : V) : size (m.insert k v) ≤ m.size + 1 := by
  show (⟨k, v⟩ :: m.entries.kerase k).length ≤ m.entries.length + 1
  have hlen := (List.kerase_sublist k m.entries).length_le
  rw [List.length_cons]
  omega

end KeyMap

abbrev HashMap (V : Type) : Type := AList (fun _ : String => V)

namespace HashMap

variable {V : Type} {m : HashMap V} {k : String} {v w : V} {l : String} {key : V → String}
  {vs : List V} {α : Type} {n : HashMap V}

def pairs (m : HashMap V) : List (String × V) := m.entries.map fun e => (e.1, e.2)

theorem mem_pairs : (k, v) ∈ m.pairs ↔ m.lookup k = some v := by
  rw [pairs, List.mem_map, ← Option.mem_def, AList.mem_lookup_iff]
  constructor
  · rintro ⟨⟨k', v'⟩, he, h⟩
    obtain ⟨rfl, rfl⟩ := h
    exact he
  · intro he
    exact ⟨⟨k, v⟩, he, rfl⟩

theorem lookup_isSome_iff : k ∈ m ↔ ∃ v, m.lookup k = some v := by
  rw [← AList.lookup_isSome, Option.isSome_iff_exists]

theorem of_lookup_insert (h : (m.insert k v).lookup l = some w) :
    l = k ∧ v = w ∨ l ≠ k ∧ m.lookup l = some w := by
  rw [KeyMap.lookup_insert_eq] at h
  split at h
  · rename_i hl
    exact Or.inl ⟨hl, Option.some.inj h⟩
  · rename_i hl
    exact Or.inr ⟨hl, h⟩

theorem lookup_insert_of_fresh (hk : m.lookup k = none) (hl : m.lookup l = some w) :
    (m.insert k v).lookup l = some w := by
  have hne : l ≠ k := by
    intro heq
    rw [heq, hk] at hl
    cases hl
  rw [AList.lookup_insert_ne hne, hl]

def retain (keep : String → Bool) (m : HashMap V) : HashMap V :=
  ⟨m.entries.filter fun e => keep e.1, m.nodupKeys.sublist List.filter_sublist⟩

theorem lookup_retain (keep : String → Bool) (m : HashMap V) (k : String) :
    (m.retain keep).lookup k = if keep k then m.lookup k else none := by
  apply Option.ext
  intro v
  rw [← Option.mem_def, AList.mem_lookup_iff]
  show _ ∈ m.entries.filter _ ↔ _
  rw [List.mem_filter, ← AList.mem_lookup_iff]
  cases keep k <;> simp

def values (m : HashMap V) : List V := m.entries.map fun e => e.2

theorem mem_values : v ∈ m.values ↔ ∃ k, m.lookup k = some v := by
  rw [values, List.mem_map]
  constructor
  · rintro ⟨e, he, rfl⟩
    exact ⟨e.1, AList.mem_lookup_iff.mpr he⟩
  · rintro ⟨k, hk⟩
    exact ⟨⟨k, v⟩, AList.mem_lookup_iff.mp hk, rfl⟩

def insertAll (key : V → String) (vs : List V) (m : HashMap V) : HashMap V :=
  vs.foldl (fun m v => m.insert (key v) v) m

theorem lookup_insertAll_of_notMem (h : k ∉ vs.map key) (m : HashMap V) :
    (insertAll key vs m).lookup k = m.lookup k := by
  induction vs generalizing m with
  | nil => rfl
  | cons v vs ih =>
    rw [List.map_cons, List.mem_cons, not_or] at h
    show (insertAll key vs (m.insert (key v) v)).lookup k = _
    rw [ih h.2, AList.lookup_insert_ne h.1]

theorem lookup_insertAll_of_mem (hkeys : (vs.map key).Nodup) (hv : v ∈ vs) (m : HashMap V) :
    (insertAll key vs m).lookup (key v) = some v := by
  induction vs generalizing m with
  | nil => cases hv
  | cons w vs ih =>
    rw [List.map_cons, List.nodup_cons] at hkeys
    show (insertAll key vs (m.insert (key w) w)).lookup (key v) = _
    rcases List.mem_cons.mp hv with rfl | hv
    · rw [lookup_insertAll_of_notMem hkeys.1, AList.lookup_insert]
    · exact ih hkeys.2 hv _

/-- An index of a list: where elements with one key agree on the value, it is found. -/
theorem lookup_foldl_insert {f : α → String} {g : α → V} {l : List α} {x : α} (hx : x ∈ l)
    (hagree : ∀ y ∈ l, f y = f x → g y = g x) (m : HashMap V) :
    (l.foldl (fun m y => m.insert (f y) (g y)) m).lookup (f x) = some (g x) := by
  induction l using List.reverseRecOn with
  | nil => cases hx
  | append_singleton l y ih =>
    rw [List.foldl_append, List.foldl_cons, List.foldl_nil, KeyMap.lookup_insert_eq]
    split_ifs with heq
    · rw [hagree y (List.mem_append_right l List.mem_cons_self) heq.symm]
    · refine ih ?_ fun z hz => hagree z (List.mem_append_left [y] hz)
      rcases List.mem_append.mp hx with hx | hx
      · exact hx
      · exact absurd (congrArg f (List.mem_singleton.mp hx)) heq

theorem of_lookup_foldl_insert {f : α → String} {g : α → V} {l : List α}
    (h : (l.foldl (fun m y => m.insert (f y) (g y)) m).lookup k = some v) :
    (∃ x ∈ l, f x = k ∧ g x = v) ∨ m.lookup k = some v := by
  induction l generalizing m with
  | nil => exact Or.inr h
  | cons y l ih =>
    rcases ih h with ⟨x, hx, hfx⟩ | hfound
    · exact Or.inl ⟨x, List.mem_cons_of_mem y hx, hfx⟩
    · rcases of_lookup_insert hfound with ⟨hk, hv⟩ | ⟨-, hold⟩
      · exact Or.inl ⟨y, List.mem_cons_self, hk.symm, hv⟩
      · exact Or.inr hold

variable (f : String → V → Nat)

/-- The sum of `f` over the entries. -/
def total (m : HashMap V) : Nat := (m.entries.map fun e => f e.1 e.2).sum

theorem sum_pairs (f : String × V → Nat) (m : HashMap V) :
    (m.pairs.map f).sum = total (fun k v => f (k, v)) m := by
  rw [pairs, List.map_map]
  rfl

theorem total_insert_of_notMem (h : m.lookup k = none) :
    total f (m.insert k v) = f k v + total f m := by
  rw [total, AList.entries_insert_of_notMem (AList.lookup_eq_none.mp h), List.map_cons,
    List.sum_cons, total]

theorem total_erase (h : m.lookup k = some v) : total f m = f k v + total f (m.erase k) := by
  have hk : k ∈ m.entries.keys := lookup_isSome_iff.mpr ⟨v, h⟩
  obtain ⟨w, xs, ys, -, hm, he⟩ := List.exists_of_kerase hk
  have hmem : Sigma.mk k w ∈ m.entries := by rw [hm]; simp
  have hw : m.lookup k = some w := AList.mem_lookup_iff.mpr hmem
  have hwv : w = v := Option.some.inj (hw.symm.trans h)
  subst hwv
  show (m.entries.map _).sum = _ + ((m.entries.kerase k).map _).sum
  rw [he, hm]
  simp only [List.map_append, List.map_cons, List.sum_append, List.sum_cons]
  omega

theorem total_insert_of_lookup (h : m.lookup k = some v) :
    total f (m.insert k w) + f k v = total f m + f k w := by
  have hins : total f (m.insert k w) = f k w + total f (m.erase k) := rfl
  rw [total_erase f h]
  omega

theorem total_congr {f g : String → V → Nat} (h : ∀ k v, m.lookup k = some v → f k v = g k v) :
    total f m = total g m := by
  rw [total]
  congr 1
  refine List.map_congr_left fun e he => h e.1 e.2 ?_
  exact AList.mem_lookup_iff.mpr he

/-- A sum reads the map only through `lookup`, so the order of the entries is
irrelevant. -/
theorem total_eq_of_lookup (h : ∀ k, m.lookup k = n.lookup k) : total f m = total f n := by
  have hperm : m.entries.Perm n.entries := by
    refine List.lookup_ext m.nodupKeys n.nodupKeys fun k v => ?_
    have hk : List.dlookup k m.entries = List.dlookup k n.entries := h k
    rw [hk]
  exact (hperm.map _).sum_eq

theorem total_eq_of_removed (h : ∀ k, n.lookup k = m.lookup k ∨
      n.lookup k = none ∧ ∀ v, m.lookup k = some v → f k v = 0) : total f n = total f m := by
  induction m using AList.insertRec generalizing n with
  | H0 =>
    refine total_eq_of_lookup f fun k => ?_
    rcases h k with hk | ⟨hk, -⟩
    · exact hk
    · rw [hk, AList.lookup_empty]
  | IH k v m hk ih =>
    have hnone : m.lookup k = none := AList.lookup_eq_none.mpr hk
    rw [total_insert_of_notMem f hnone]
    have hrest : total f (n.erase k) = total f m := by
      refine ih fun l => ?_
      rw [KeyMap.lookup_erase_eq]
      by_cases hl : l = k
      · rw [if_pos hl, hl, hnone]
        exact Or.inl rfl
      · have hl' := h l
        rw [KeyMap.lookup_insert_eq, if_neg hl] at hl'
        rw [if_neg hl]
        exact hl'
    have hk' := h k
    rw [KeyMap.lookup_insert_eq, if_pos rfl] at hk'
    rcases hk' with hsome | ⟨hgone, hzero⟩
    · rw [total_erase f hsome, hrest]
    · rw [hzero v rfl, Nat.zero_add, ← hrest]
      refine total_eq_of_lookup f fun l => ?_
      rw [KeyMap.lookup_erase_eq]
      split_ifs with hl
      · rw [hl, hgone]
      · rfl

end HashMap

end Lib
