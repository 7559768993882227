/-
The fields of a JSON object.

`serde_json::Map` is sorted by its keys; `insert` and `remove` are written for any list of fields.
Equality of values compares floats as numbers, so equal values need not be the same.
-/
import Qid.Core.Json

namespace Qid.Json

abbrev Fields : Type := List (String × Value)

namespace Fields

variable {key k : String} {v : Value} {m : Fields} {f : String × Value}

def set (key : String) (v : Value) : Fields → Fields
  | [] => []
  | (k, w) :: m => if key = k then (k, v) :: m else (k, w) :: set key v m

def insert (key : String) (v : Value) (m : Fields) : Fields :=
  if (m.lookup key).isSome then set key v m else Value.insertField key v m

def remove (key : String) (m : Fields) : Fields := m.filter fun f => f.1 != key

def assign (key : String) : Option Value → Fields → Fields
  | some v, m => insert key v m
  | none, m => remove key m

def extend (m added : Fields) : Fields := added.foldl (fun m f => insert f.1 f.2 m) m

theorem lookup_cons (key k : String) (v : Value) (m : Fields) :
    List.lookup key ((k, v) :: m) = if key = k then some v else m.lookup key := by
  rw [List.lookup_cons]
  split_ifs with h
  · rw [beq_iff_eq.mpr h]
  · rw [beq_eq_false_iff_ne.mpr h]

theorem lookup_set (key k : String) (v : Value) (m : Fields) :
    (set key v m).lookup k = if k = key then (m.lookup key).map fun _ => v else m.lookup k := by
  induction m with
  | nil => simp [set]
  | cons f m ih =>
    obtain ⟨l, w⟩ := f
    rw [set]
    by_cases hl : key = l
    · rw [if_pos hl, lookup_cons, lookup_cons, lookup_cons, if_pos hl, hl]
      split <;> rfl
    · rw [if_neg hl, lookup_cons, ih, lookup_cons, if_neg hl, lookup_cons]
      by_cases hk : k = key
      · rw [if_pos hk, if_neg (hk ▸ hl), if_pos hk]
      · rw [if_neg hk, if_neg hk]

theorem lookup_insertField (key k : String) (v : Value) (h : m.lookup key = none) :
    (Value.insertField key v m).lookup k = if k = key then some v else m.lookup k := by
  induction m with
  | nil => rw [Value.insertField, lookup_cons]
  | cons f m ih =>
    rw [Value.insertField]
    split
    · rw [lookup_cons]
    · rw [lookup_cons] at h
      split at h
      · cases h
      · rename_i hl
        rw [lookup_cons, lookup_cons, ih h]
        by_cases hk : k = key
        · rw [if_pos hk, if_neg (hk ▸ hl), if_pos hk]
        · rw [if_neg hk, if_neg hk]

theorem lookup_insert (key k : String) (v : Value) (m : Fields) :
    (insert key v m).lookup k = if k = key then some v else m.lookup k := by
  rw [insert]
  cases h : m.lookup key with
  | none => exact lookup_insertField key k v h
  | some =>
    rw [Option.isSome_some, if_pos rfl, lookup_set, h]
    rfl

theorem lookup_remove (key k : String) (m : Fields) :
    (remove key m).lookup k = if k = key then none else m.lookup k := by
  induction m with
  | nil => simp [remove]
  | cons f m ih =>
    obtain ⟨l, w⟩ := f
    rw [remove, List.filter_cons]
    by_cases hl : l = key
    · rw [hl, if_neg (by simp), ← remove, ih, lookup_cons]
      split <;> rfl
    · rw [if_pos (bne_iff_ne.mpr hl), ← remove, lookup_cons, ih, lookup_cons]
      by_cases hk : k = key
      · rw [if_pos hk, if_neg fun h => hl (h.symm.trans hk), if_pos hk]
      · rw [if_neg hk, if_neg hk]

theorem set_of_lookup (h : m.lookup key = some v) : set key v m = m := by
  induction m with
  | nil => rfl
  | cons f m ih =>
    obtain ⟨l, w⟩ := f
    rw [lookup_cons] at h
    rw [set]
    split at h
    · rename_i hl
      rw [if_pos hl, Option.some.inj h]
    · rename_i hl
      rw [if_neg hl, ih h]

theorem insert_of_lookup (h : m.lookup key = some v) : insert key v m = m := by
  rw [insert, h, Option.isSome_some, if_pos rfl, set_of_lookup h]

theorem remove_of_lookup (h : m.lookup key = none) : remove key m = m := by
  rw [remove, List.filter_eq_self]
  intro f hf
  rw [List.lookup_eq_none_iff] at h
  have hne := h f hf
  rw [bne_iff_ne]
  intro heq
  exact bne_iff_ne.mp hne heq.symm

theorem of_mem_set (h : f ∈ set key v m) : f = (key, v) ∨ f ∈ m := by
  induction m with
  | nil => cases h
  | cons g m ih =>
    rw [set] at h
    split at h
    · rename_i hl
      rcases List.mem_cons.mp h with heq | hmem
      · exact Or.inl (hl ▸ heq)
      · exact Or.inr (List.mem_cons_of_mem _ hmem)
    · rcases List.mem_cons.mp h with heq | hmem
      · exact Or.inr (heq ▸ List.mem_cons_self)
      · exact (ih hmem).imp id (List.mem_cons_of_mem _)

theorem of_mem_insertField (h : f ∈ Value.insertField key v m) : f = (key, v) ∨ f ∈ m := by
  induction m with
  | nil => exact Or.inl (List.mem_singleton.mp h)
  | cons g m ih =>
    rw [Value.insertField] at h
    split at h
    · exact List.mem_cons.mp h
    · rcases List.mem_cons.mp h with heq | hmem
      · exact Or.inr (heq ▸ List.mem_cons_self)
      · exact (ih hmem).imp id (List.mem_cons_of_mem _)

theorem of_mem_insert (h : f ∈ insert key v m) : f = (key, v) ∨ f ∈ m := by
  rw [insert] at h
  split at h
  · exact of_mem_set h
  · exact of_mem_insertField h

theorem of_mem_extend {added : Fields} (h : f ∈ extend m added) : f ∈ m ∨ f ∈ added := by
  induction added generalizing m with
  | nil => exact Or.inl h
  | cons g added ih =>
    rcases ih h with hm | hadded
    · rcases of_mem_insert hm with rfl | hm
      · exact Or.inr List.mem_cons_self
      · exact Or.inl hm
    · exact Or.inr (List.mem_cons_of_mem _ hadded)

theorem mem_remove : f ∈ remove key m ↔ f ∈ m ∧ f.1 ≠ key := by
  rw [remove, List.mem_filter, bne_iff_ne]

theorem lookup_assign (key k : String) (v : Option Value) (m : Fields) :
    (assign key v m).lookup k = if k = key then v else m.lookup k := by
  cases v with
  | none => exact lookup_remove key k m
  | some v => exact lookup_insert key k v m

theorem assign_of_lookup {v : Option Value} (h : m.lookup key = v) : assign key v m = m := by
  cases v with
  | none => exact remove_of_lookup h
  | some => exact insert_of_lookup h

end Fields

namespace Value

variable {v : Value}

/-- `as_object().cloned().unwrap_or_default()`. -/
def fieldsOrDefault : Value → Fields
  | object fields => fields
  | _ => []

def asBool : Value → Option Bool
  | bool b => some b
  | _ => none

def u64 (n : Nat) : Value := number (.posInt (UInt64.ofNat n))

mutual

def floatFree : Value → Bool
  | number (.float _) => false
  | array items => floatFreeItems items
  | object fields => floatFreeFields fields
  | _ => true

def floatFreeItems : List Value → Bool
  | [] => true
  | v :: items => floatFree v && floatFreeItems items

def floatFreeFields : List (String × Value) → Bool
  | [] => true
  | (_, v) :: fields => floatFree v && floatFreeFields fields

end

theorem eq_of_beq_number {a b : Number} (hb : floatFree (number b) = true)
    (h : (a == b) = true) : a = b := by
  cases b with
  | posInt =>
    cases a with
    | posInt => exact congrArg Number.posInt (beq_iff_eq.mp h)
    | _ => cases h
  | negInt =>
    cases a with
    | posInt => cases h
    | negInt => exact congrArg Number.negInt (beq_iff_eq.mp h)
    | float => cases h
  | float => cases hb

mutual

theorem eq_of_beq : (v w : Value) → floatFree w = true → beq v w = true → v = w
  | null, null, _, _ => rfl
  | bool _, bool _, _, h => congrArg bool (beq_iff_eq.mp h)
  | number _, number _, hw, h => congrArg number (eq_of_beq_number hw h)
  | string _, string _, _, h => congrArg string (beq_iff_eq.mp h)
  | array a, array b, hw, h => congrArg array (eq_of_beqItems a b hw h)
  | object a, object b, hw, h => congrArg object (eq_of_beqFields a b hw h)

theorem eq_of_beqItems : (v w : List Value) → floatFreeItems w = true → beqItems v w = true → v = w
  | [], [], _, _ => rfl
  | a :: v, b :: w, hw, h => by
    rw [floatFreeItems, Bool.and_eq_true] at hw
    rw [beqItems, Bool.and_eq_true] at h
    rw [eq_of_beq a b hw.1 h.1, eq_of_beqItems v w hw.2 h.2]

theorem eq_of_beqFields : (v w : List (String × Value)) → floatFreeFields w = true →
    beqFields v w = true → v = w
  | [], [], _, _ => rfl
  | (k, a) :: v, (l, b) :: w, hw, h => by
    rw [floatFreeFields, Bool.and_eq_true] at hw
    rw [beqFields, Bool.and_eq_true, Bool.and_eq_true, beq_iff_eq] at h
    rw [h.1.1, eq_of_beq a b hw.1 h.1.2, eq_of_beqFields v w hw.2 h.2]

end

theorem get_of_beq (h : (v == w) = true) (key : String) :
    v.get key = none ∧ w.get key = none ∨
      ∃ a b, v.get key = some a ∧ w.get key = some b ∧ (a == b) = true := by
  cases v with
  | object v =>
    cases w with
    | object w =>
      change beqFields v w = true at h
      simp only [get]
      induction v generalizing w with
      | nil =>
        cases w with
        | nil => exact Or.inl ⟨rfl, rfl⟩
        | cons => cases h
      | cons f v ih =>
        obtain ⟨k, a⟩ := f
        cases w with
        | nil => cases h
        | cons g w =>
          obtain ⟨l, b⟩ := g
          rw [beqFields, Bool.and_eq_true, Bool.and_eq_true, beq_iff_eq] at h
          rw [Fields.lookup_cons, Fields.lookup_cons, h.1.1]
          by_cases hkey : key = l
          · rw [if_pos hkey, if_pos hkey]
            exact Or.inr ⟨a, b, rfl, rfl, h.1.2⟩
          · rw [if_neg hkey, if_neg hkey]
            exact ih w h.2
    | null | bool _ | number _ | string _ | array _ => cases h
  | null | bool _ | number _ | string _ | array _ =>
    cases w with
    | object => cases h
    | null | bool _ | number _ | string _ | array _ => exact Or.inl ⟨rfl, rfl⟩

/-- A field without floats is the same in equal objects. -/
theorem get_eq_of_beq (h : (v == w) = true) {key : String} {x : Option Value}
    (hx : ∀ a ∈ x, floatFree a = true) (hw : w.get key = x) : v.get key = x := by
  subst hw
  rcases get_of_beq h key with ⟨hv, hw⟩ | ⟨a, b, ha, hb, hab⟩
  · rw [hv, hw]
  · rw [ha, hb, eq_of_beq a b (hx b hb) hab]

theorem isObject_iff : v.isObject = true ↔ ∃ m, v = object m := by
  cases v with
  | object m => exact ⟨fun _ => ⟨m, rfl⟩, fun _ => rfl⟩
  | null | bool _ | number _ | string _ | array _ =>
    constructor
    · intro h
      cases h
    · rintro ⟨m, h⟩
      cases h

end Value

end Qid.Json
