/-
What the calls do to a token family.
-/
import Qid.Token.Store

namespace Qid.Token

open Lib Storage

variable {ρ : Type} {s s' : Store ρ} {id : String} {family : TokenFamily}

/-- Every family of `s'` is one of `s` with the refresh token that `g` gives it, and is
revoked if it was. -/
def Updates (g : String → Refresh → Refresh) (s s' : Store ρ) : Prop :=
  ∀ id f', s'.families.lookup id = some f' → ∃ f, s.families.lookup id = some f ∧
    f'.refresh = g id f.refresh ∧ (f.revoked = true → f'.revoked = true)

def setAt (id : String) (x : Refresh) : String → Refresh → Refresh :=
  fun k y => if k = id then x else y

theorem Updates.refl (s : Store ρ) : Updates (fun _ x => x) s s :=
  fun _ f' h => ⟨f', h, rfl, fun hr => hr⟩

theorem Store.updates_setRefresh (hf : s.families.lookup id = some family) (x : Refresh) :
    Updates (setAt id x) s (s.setRefresh family id x) := by
  intro k f' h
  rcases HashMap.of_lookup_insert h with ⟨hk, rfl⟩ | ⟨hk, hold⟩
  · exact ⟨family, hk ▸ hf, (if_pos hk).symm, fun hr => hr⟩
  · exact ⟨f', hold, (if_neg hk).symm, fun hr => hr⟩

theorem Store.updates_restore (s : Store ρ) (id : String) (x : Refresh) :
    Updates (setAt id x) s (s.restore id x) := by
  rw [restore]
  split
  · rename_i hnone
    intro k f' h
    have hk : k ≠ id := by
      intro hk
      rw [hk, hnone] at h
      cases h
    exact ⟨f', h, (if_neg hk).symm, fun hr => hr⟩
  · rename_i family hf
    exact s.updates_setRefresh hf x

theorem Store.updates_mutate (s : Store ρ) (change : Mutation ρ) :
    Updates (fun _ x => x) s (s.mutate change) := by
  cases change with
  | revoke =>
    rw [mutate]
    split
    · exact Updates.refl s
    · rename_i family hf
      intro k f' h
      rcases HashMap.of_lookup_insert h with ⟨hk, rfl⟩ | ⟨-, hold⟩
      · refine ⟨family, hk ▸ hf, rfl, fun hr => ?_⟩
        rw [hr, Bool.true_or]
      · exact ⟨f', hold, rfl, fun hr => hr⟩
  | other keep =>
    intro k f' h
    have h : (s.families.retain keep).lookup k = some f' := h
    rw [HashMap.lookup_retain] at h
    split at h
    · exact ⟨f', h, rfl, fun hr => hr⟩
    · cases h

/-- A rotation that passes the checks: the family it found, and the store it leaves. -/
theorem Store.rotate_ok {r : Rotation} {previous : Refresh} (h : s.rotate r = .ok (previous, s')) :
    ∃ family, s.families.lookup r.id = some family ∧ previous = family.refresh ∧
      previous.hash = r.expectedRefreshHash ∧ r.refreshHash ≠ r.expectedRefreshHash ∧
      s' = s.setRefresh family r.id r.refresh := by
  rw [rotate] at h
  split at h
  · cases h
  · rename_i family hfamily
    rw [Option.filter_eq_some_iff] at hfamily
    cases hvalid : validateTokenFamilyRotation family r.expectedRefreshHash r.refreshHash with
    | error =>
      rw [hvalid] at h
      cases h
    | ok =>
      obtain ⟨-, hcurrent, hnew⟩ := validateTokenFamilyRotation_ok hvalid
      rw [hvalid] at h
      cases h
      exact ⟨family, hfamily.1, rfl, hcurrent, hnew, rfl⟩

theorem Store.create_ok (h : s.create family = .ok s') :
    s.families.lookup family.id = none ∧
      s' = { s with families := s.families.insert family.id family } := by
  rw [create] at h
  split at h
  · cases h
  · rename_i hnone
    cases h
    rw [Option.not_isSome_iff_eq_none] at hnone
    exact ⟨hnone, rfl⟩

/-- What any step does to the store. -/
def Rewrites (s s' : Store ρ) : Prop := (∃ g, Updates g s s') ∨ ∃ family, s.create family = .ok s'

theorem Rewrites.refl (s : Store ρ) : Rewrites s s := Or.inl ⟨_, Updates.refl s⟩

theorem Rewrites.revoked (h : Rewrites s s') {f f' : TokenFamily}
    (hf : s.families.lookup id = some f) (hf' : s'.families.lookup id = some f')
    (hr : f.revoked = true) : f'.revoked = true := by
  rcases h with ⟨g, hg⟩ | ⟨family, hcreate⟩
  · obtain ⟨f₀, hf₀, -, hrevoked⟩ := hg id f' hf'
    rw [hf] at hf₀
    cases hf₀
    exact hrevoked hr
  · obtain ⟨hnone, rfl⟩ := Store.create_ok hcreate
    have hkept : (s.families.insert family.id family).lookup id = some f :=
      HashMap.lookup_insert_of_fresh hnone hf
    have hsame : f = f' := Option.some.inj (hkept.symm.trans hf')
    rwa [← hsame]

theorem Turn.rewrites {s : Repository ρ} {i : Inside ρ}
    {t : Mutex.Section (Repository ρ) (Inside ρ) (Call ρ × QidResult Unit)} (h : Turn s i t) :
    Rewrites s.store t.shared.store := by
  cases h with
  | rotate hr =>
    obtain ⟨family, hf, -, -, -, rfl⟩ := Store.rotate_ok hr
    exact Or.inl ⟨_, s.store.updates_setRefresh hf _⟩
  | rollback r previous => exact Or.inl ⟨_, s.store.updates_restore r.id previous⟩
  | create hcreate => exact Or.inr ⟨_, hcreate⟩
  | replace change => exact Or.inl ⟨_, s.store.updates_mutate change⟩
  | _ => exact Rewrites.refl _

theorem stepped_rewrites {s s' : Repository ρ} {u u' : Option (Inside ρ)}
    {reply : Option (Call ρ × QidResult Unit)}
    (h : Mutex.Stepped approach critical s u reply s' u') : Rewrites s.store s'.store := by
  cases h with
  | idle _ => exact Rewrites.refl _
  | outside _ t t' _ ht =>
    cases t with
    | save => cases ht
    | start c =>
      cases c with
      | rotate r | create family | replace change => cases ht
      | mutate change =>
        cases ht
        exact Or.inl ⟨_, s.store.updates_mutate change⟩
  | enter => exact Rewrites.refl _
  | inside o i i' _ hi | leave o i _ r hi =>
    have hrewrites := (critical_turn o s i).rewrites
    rwa [hi] at hrewrites

end Qid.Token
