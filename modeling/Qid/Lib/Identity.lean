/-
Records that are found by an identity.

Besides its key a record of a table may have an identity, such as a name within an owner, which no
two records may share (`Distinct`).
-/
import Qid.Lib.Table

namespace Lib
namespace Table

variable {V I : Type} {key : V → String} (ident : V → Option I)

/-- No two records share an identity. -/
def Distinct (t : Table V key) : Prop :=
  ∀ v w, t.find (key v) = some v → t.find (key w) = some w → ∀ i, ident v = some i →
    ident w = some i → v = w

def Free (t : Table V key) (v : V) : Prop :=
  ∀ w, t.find (key w) = some w → key w ≠ key v → ∀ i, ident v = some i → ident w ≠ some i

variable {ident} {t : Table V key} {v : V}

theorem distinct_empty : Distinct ident (empty : Table V key) := by
  intro v w hv
  cases hv

theorem distinct_of_nodup (h : (t.values.map ident).Nodup) : Distinct ident t :=
  fun _ _ hv hw _ hi hi' => List.inj_on_of_nodup_map h (mem_values.mpr hv) (mem_values.mpr hw)
    (hi.trans hi'.symm)

theorem of_find_put {w : V} (h : (t.put v).find (key w) = some w) :
    w = v ∨ key w ≠ key v ∧ t.find (key w) = some w := by
  rw [find_put] at h
  split at h
  · exact Or.inl (Option.some.inj h).symm
  · rename_i hne
    exact Or.inr ⟨hne, h⟩

section

variable (h : Distinct ident t)
include h

theorem Distinct.put (hfree : Free ident t v) : Distinct ident (t.put v) := by
  intro w w' hw hw' i hi hi'
  rcases of_find_put hw with rfl | ⟨hne, hold⟩
  · rcases of_find_put hw' with rfl | ⟨hne', hold'⟩
    · rfl
    · exact absurd hi' (hfree w' hold' hne' i hi)
  · rcases of_find_put hw' with rfl | ⟨-, hold'⟩
    · exact absurd hi (hfree w hold hne i hi')
    · exact h w w' hold hold' i hi hi'

/-- Records may be put together when no two of them share an identity, and none has that of a record
that stays. -/
theorem Distinct.putAll {vs : List V} (hkeys : (vs.map key).Nodup)
    (hnew : ∀ v ∈ vs, ∀ w ∈ vs, ∀ i, ident v = some i → ident w = some i → v = w)
    (hold : ∀ v ∈ vs, ∀ w, t.find (key w) = some w → key w ∉ vs.map key → ∀ i, ident v = some i →
      ident w ≠ some i) : Distinct ident (t.putAll vs) := by
  intro v w hv hw i hi hi'
  rcases of_find_putAll hkeys hv with hv | ⟨hvk, hv⟩
  · rcases of_find_putAll hkeys hw with hw | ⟨hwk, hw⟩
    · exact hnew v hv w hw i hi hi'
    · exact absurd hi' (hold v hv w hw hwk i hi)
  · rcases of_find_putAll hkeys hw with hw | ⟨-, hw⟩
    · exact absurd hi (hold w hw v hv hvk i hi')
    · exact h v w hv hw i hi hi'

theorem Distinct.of_find {t' : Table V key}
    (hsub : ∀ v, t'.find (key v) = some v → t.find (key v) = some v) : Distinct ident t' :=
  fun v w hv hw => h v w (hsub v hv) (hsub w hw)

theorem Distinct.retain (keep : V → Bool) : Distinct ident (t.retain keep) :=
  h.of_find fun _ hv => (find_retain_eq_some.mp hv).1

theorem Distinct.erase (k : String) : Distinct ident (t.erase k) := by
  refine h.of_find fun v hv => ?_
  rw [find_erase] at hv
  split at hv
  · cases hv
  · exact hv

/-- A record may be replaced by one with the same identity. -/
theorem Distinct.free_of_same {w : V} (hw : t.find (key w) = some w) (hkey : key v = key w)
    (hident : ident v = ident w) : Free ident t v := by
  intro u hu hne i hi hi'
  have huw : u = w := h u w hu hw i hi' (hident ▸ hi)
  exact hne (by rw [huw, hkey])

end

variable [DecidableEq I]

theorem Distinct.filter_values (h : Distinct ident t) (i : I) :
    (t.values.filter fun v => ident v = some i) = [] ∨
      ∃ v, t.find (key v) = some v ∧ ident v = some i ∧
        (t.values.filter fun v => ident v = some i) = [v] := by
  cases hfound : t.values.filter fun v => ident v = some i with
  | nil => exact Or.inl rfl
  | cons v =>
    have hmem : v ∈ t.values.filter fun v => ident v = some i := by
      rw [hfound]
      exact List.mem_cons_self
    rw [List.mem_filter, decide_eq_true_eq, mem_values] at hmem
    refine Or.inr ⟨v, hmem.1, hmem.2, ?_⟩
    rw [← hfound]
    refine filter_values_eq_singleton hmem.1 (decide_eq_true hmem.2) fun w hw hi => ?_
    exact h w v hw hmem.1 i (of_decide_eq_true hi) hmem.2

/-- The first record that a loop meets is the one that has the identity. -/
theorem Distinct.head?_filter (h : Distinct ident t) (i : I) :
    (t.values.filter fun v => ident v = some i).head? = some v ↔
      t.find (key v) = some v ∧ ident v = some i := by
  constructor
  · intro hhead
    have hmem := List.mem_of_head? hhead
    rw [List.mem_filter, decide_eq_true_eq, mem_values] at hmem
    exact hmem
  · intro hv
    have hone := filter_values_eq_singleton hv.1 (decide_eq_true hv.2) fun w hw hi =>
      h w v hw hv.1 i (of_decide_eq_true hi) hv.2
    rw [hone, List.head?_cons]

end Table
end Lib
