/-
Grants are materialized once and completely.

Whatever calls run and whichever writes fail, a request has at most one grant for an entitlement.
-/
import Qid.Iga.Step

namespace Qid.Iga

open Lib Storage

variable {g : IgaAccessGrantRecord} {k : String} {t s : IgaStore} {c : Call}

namespace Staged

variable {candidates missing : List IgaAccessGrantRecord} {c : IgaAccessGrantRecord}
  (staged : Staged s candidates missing)
include staged

theorem mem_candidates (hg : g ∈ missing) : g ∈ candidates := ((staged.checked.mem_iff g).mp hg).1

theorem ids_nodup : (missing.map fun g => g.id).Nodup :=
  staged.batch.ids.sublist (staged.checked.sublist.map _)

theorem missing_binding (hc : c ∈ missing) (hk : s.accessGrants.lookup k = some g)
    (htenant : g.tenantId = c.tenantId) (hrequest : g.requestId = c.requestId) :
    g.entitlement ≠ c.entitlement := by
  intro heq
  obtain ⟨hcand, hnew⟩ := (staged.checked.mem_iff c).mp hc
  refine hnew (List.mem_map.mpr ⟨g, ?_, heq⟩)
  have hsame := staged.batch.same c hcand
  rw [incumbentGrants, List.mem_filter, Bool.and_eq_true, beq_iff_eq, beq_iff_eq]
  exact ⟨HashMap.mem_values.mpr ⟨k, hk⟩, htenant.trans hsame.tenant, hrequest.trans hsame.request⟩

/-- The id of a missing grant is free: a grant under it would be its counterpart. -/
theorem missing_fresh (hc : c ∈ missing) : s.accessGrants.lookup c.id = none := by
  cases hk : s.accessGrants.lookup c.id with
  | none => rfl
  | some =>
    exfalso
    have hown := staged.own c (staged.mem_candidates hc)
    rw [bindsElsewhere, hk] at hown
    simp only [Bool.or_eq_false_iff, bne_eq_false_iff_eq] at hown
    obtain ⟨⟨⟨htenant, hrequest⟩, -⟩, hent⟩ := hown
    exact staged.missing_binding hc hk htenant hrequest hent

theorem lookup_withGrants :
    (s.withGrants missing).accessGrants.lookup k = some g ↔
      s.accessGrants.lookup k = some g ∨ g ∈ missing ∧ g.id = k := by
  show (HashMap.insertAll _ missing s.accessGrants).lookup k = some g ↔ _
  by_cases hk : k ∈ missing.map fun g => g.id
  · obtain ⟨c, hc, rfl⟩ := List.mem_map.mp hk
    rw [HashMap.lookup_insertAll_of_mem staged.ids_nodup hc, staged.missing_fresh hc]
    constructor
    · intro h
      cases h
      exact Or.inr ⟨hc, rfl⟩
    · rintro (h | ⟨hg, hid⟩)
      · cases h
      · rw [List.inj_on_of_nodup_map staged.ids_nodup hg hc hid]
  · rw [HashMap.lookup_insertAll_of_notMem hk]
    constructor
    · exact Or.inl
    · rintro (h | ⟨hg, hid⟩)
      · exact h
      · exact absurd (List.mem_map.mpr ⟨g, hg, hid⟩) hk

end Staged

structure Owned (s : IgaStore) (g : IgaAccessGrantRecord) : Prop where
  owner : ∃ r members, s.accessRequests.lookup g.requestId = some r ∧
    r.tenantId = g.tenantId ∧ r.subject = g.subject ∧
    requestSnapshot r = .ok members ∧ g.entitlement ∈ members

structure GrantsSound (s : IgaStore) : Prop where
  unique : ∀ k l g h, s.accessGrants.lookup k = some g → s.accessGrants.lookup l = some h →
    g.tenantId = h.tenantId → g.requestId = h.requestId → g.entitlement = h.entitlement → k = l
  owned : ∀ k g, s.accessGrants.lookup k = some g → Owned s g

/-- A change of the requests keeps each of them, up to its status. -/
def RequestsKept (s t : IgaStore) : Prop :=
  ∀ id r, s.accessRequests.lookup id = some r →
    ∃ status, t.accessRequests.lookup id = some { r with status := status }

theorem RequestsKept.of_eq (h : t.accessRequests = s.accessRequests) : RequestsKept s t := by
  intro id r hr
  exact ⟨r.status, by rw [h]; exact hr⟩

theorem Change.requestsKept (h : Change s c t) : RequestsKept s t := by
  cases h with
  | request r _ hnew =>
    intro id r' hr'
    exact ⟨r'.status, HashMap.lookup_insert_of_fresh hnew hr'⟩
  | status id status r hget =>
    intro id' r' hr'
    by_cases hid : id' = id
    · subst hid
      rw [hget, Option.some.injEq] at hr'
      subst hr'
      exact ⟨status, AList.lookup_insert _⟩
    · refine ⟨r'.status, ?_⟩
      rw [AList.lookup_insert_ne hid, hr']
  | _ => exact RequestsKept.of_eq rfl

theorem Owned.kept (h : RequestsKept s t) (hg : Owned s g) : Owned t g := by
  obtain ⟨r, members, hr, htenant, hsubject, hmembers, hmem⟩ := hg.owner
  obtain ⟨status, hr'⟩ := h _ _ hr
  exact ⟨{ r with status := status }, members, hr', htenant, hsubject, hmembers, hmem⟩

theorem Staged.owned {candidates missing : List IgaAccessGrantRecord}
    (staged : Staged s candidates missing) (hg : g ∈ missing) : Owned s g := by
  have hcand := staged.mem_candidates hg
  have hsame := staged.batch.same g hcand
  obtain ⟨members, hmembers, hcover⟩ := staged.checked.snapshot
  refine ⟨staged.request, members, ?_, ?_, ?_, hmembers, ?_⟩
  · rw [hsame.request]
    exact staged.found
  · exact staged.checked.sameTenant.trans hsame.tenant.symm
  · exact staged.checked.sameSubject.trans hsame.subject.symm
  · exact (hcover g.entitlement).mpr (List.mem_map.mpr ⟨g, hcand, rfl⟩)

theorem GrantsSound.of_eq (h : GrantsSound s) (hkept : RequestsKept s t)
    (hgrants : t.accessGrants = s.accessGrants) : GrantsSound t := by
  constructor
  · rw [hgrants]
    exact h.unique
  · intro k g hk
    rw [hgrants] at hk
    exact (h.owned k g hk).kept hkept

theorem GrantsSound.withGrants {candidates missing : List IgaAccessGrantRecord} (h : GrantsSound s)
    (staged : Staged s candidates missing) : GrantsSound (s.withGrants missing) := by
  constructor
  · intro k l g g' hk hl htenant hrequest hent
    -- Two old grants are unique already, an old and a new one differ in the
    -- entitlement, and two new ones are one candidate.
    rcases staged.lookup_withGrants.mp hk with hk | ⟨hg, rfl⟩ <;>
      rcases staged.lookup_withGrants.mp hl with hl | ⟨hg', rfl⟩
    · exact h.unique k l g g' hk hl htenant hrequest hent
    · exact absurd hent (staged.missing_binding hg' hk htenant hrequest)
    · exact absurd hent.symm (staged.missing_binding hg hl htenant.symm hrequest.symm)
    · rw [List.inj_on_of_nodup_map staged.batch.entitlements (staged.mem_candidates hg)
        (staged.mem_candidates hg') hent]
  · intro k g hk
    have hkept : RequestsKept s (s.withGrants missing) := RequestsKept.of_eq rfl
    rcases staged.lookup_withGrants.mp hk with hk | ⟨hg, -⟩
    · exact (h.owned k g hk).kept hkept
    · exact (staged.owned hg).kept hkept

theorem GrantsSound.revoke (h : GrantsSound s) {id : String}
    (hget : s.accessGrants.lookup id = some g) :
    GrantsSound { s with
      accessGrants := s.accessGrants.insert id { g with revoked := true } } := by
  -- Every grant after the call has the binding of a grant before it.
  have hback : ∀ k g', (s.accessGrants.insert id { g with revoked := true }).lookup k = some g' →
      ∃ g₀, s.accessGrants.lookup k = some g₀ ∧ g₀.tenantId = g'.tenantId ∧
        g₀.requestId = g'.requestId ∧ g₀.subject = g'.subject ∧
        g₀.entitlement = g'.entitlement := by
    intro k g' hk
    rcases HashMap.of_lookup_insert hk with ⟨rfl, rfl⟩ | ⟨-, hold⟩
    · exact ⟨g, hget, rfl, rfl, rfl, rfl⟩
    · exact ⟨g', hold, rfl, rfl, rfl, rfl⟩
  constructor
  · intro k l g₁ g₂ hk hl htenant hrequest hent
    obtain ⟨h₁, hk, ht₁, hr₁, -, he₁⟩ := hback k g₁ hk
    obtain ⟨h₂, hl, ht₂, hr₂, -, he₂⟩ := hback l g₂ hl
    refine h.unique k l h₁ h₂ hk hl ?_ ?_ ?_
    · rw [ht₁, ht₂, htenant]
    · rw [hr₁, hr₂, hrequest]
    · rw [he₁, he₂, hent]
  · intro k g₁ hk
    obtain ⟨h₁, hk, ht₁, hr₁, hs₁, he₁⟩ := hback k g₁ hk
    obtain ⟨r, members, hr, htenant, hsubject, hmembers, hmem⟩ := (h.owned k h₁ hk).owner
    rw [hr₁] at hr
    rw [ht₁] at htenant
    rw [hs₁] at hsubject
    rw [he₁] at hmem
    exact ⟨r, members, hr, htenant, hsubject, hmembers, hmem⟩

theorem GrantsSound.change (h : GrantsSound s) (hc : Change s c t) : GrantsSound t := by
  cases hc with
  | grants staged => exact h.withGrants staged
  | revoke id g hget => exact h.revoke hget
  | request r hr hnew => exact h.of_eq (Change.request r hr hnew).requestsKept rfl
  | status id status r hget => exact h.of_eq (Change.status id status r hget).requestsKept rfl
  | _ => exact h.of_eq (RequestsKept.of_eq rfl) rfl

/-- A grant stays under its id, and changes only by being revoked. -/
def GrantsKept (s t : IgaStore) : Prop :=
  ∀ k g, s.accessGrants.lookup k = some g →
    t.accessGrants.lookup k = some g ∨ t.accessGrants.lookup k = some { g with revoked := true }

theorem GrantsKept.refl (s : IgaStore) : GrantsKept s s := fun _ _ hk => Or.inl hk

theorem GrantsKept.trans {u : IgaStore} (hst : GrantsKept s t) (htu : GrantsKept t u) :
    GrantsKept s u := by
  intro k g hk
  rcases hst k g hk with h | h
  · exact htu k g h
  · rcases htu k _ h with h' | h' <;> exact Or.inr h'

theorem Change.grantsKept (h : Change s c t) : GrantsKept s t := by
  cases h with
  | grants staged => exact fun k g hk => Or.inl (staged.lookup_withGrants.mpr (Or.inl hk))
  | revoke id g hget =>
    intro k g' hk
    rw [KeyMap.lookup_insert_eq]
    split
    · rename_i heq
      subst heq
      rw [hget, Option.some.injEq] at hk
      subst hk
      exact Or.inr rfl
    · exact Or.inl hk
  | _ => exact GrantsKept.refl _

theorem GrantsKept.revoked (h : GrantsKept s t) (hk : s.accessGrants.lookup k = some g)
    (hrev : g.revoked = true) : t.accessGrants.lookup k = some g := by
  have hsame : { g with revoked := true } = g := by rw [← hrev]
  rcases h k g hk with h' | h'
  · exact h'
  · rw [h', hsame]

variable (repo : FileRepository)

theorem grantsKept_final (calls : List (Persist × Call)) :
    GrantsKept repo.store (final step repo calls).store := by
  refine final_invariant step (I := fun r => GrantsKept repo.store r.store) ?_
    (GrantsKept.refl repo.store) calls
  intro r k h
  exact h.trans (answer_change k.1 r k.2).grantsKept

structure Materialized (s t : IgaStore) (candidates inserted : List IgaAccessGrantRecord)
    (request : IgaAccessRequestRecord) (members : List String) : Prop where
  found : ∃ c ∈ candidates, s.accessRequests.lookup c.requestId = some request
  snapshot : requestSnapshot request = .ok members
  /-- Every member of the snapshot has a grant. -/
  complete : ∀ e ∈ members, ∃ k g, t.accessGrants.lookup k = some g ∧
    g.tenantId = request.tenantId ∧ g.requestId = request.id ∧ g.subject = request.subject ∧
    g.entitlement = e
  /-- What was there stays, and what is new was inserted. -/
  grants : ∀ k g, t.accessGrants.lookup k = some g ↔
    s.accessGrants.lookup k = some g ∨ g ∈ inserted ∧ g.id = k
  /-- Only candidates whose entitlement had no grant are inserted. -/
  missing : ∀ g ∈ inserted, g ∈ candidates ∧ ∀ k g', s.accessGrants.lookup k = some g' →
    g'.tenantId = request.tenantId → g'.requestId = request.id → g'.entitlement ≠ g.entitlement

def EnsureAtomic (s t : IgaStore) (candidates : List IgaAccessGrantRecord) :
    QidResult (List IgaAccessGrantRecord) → Prop
  | .error _ => t.accessGrants = s.accessGrants
  | .ok inserted => ∃ request members, Materialized s t candidates inserted request members

theorem Staged.materialized {candidates missing : List IgaAccessGrantRecord}
    (staged : Staged s candidates missing) :
    ∃ request members,
      Materialized s (s.withGrants missing) candidates missing request members := by
  have hreq := staged.checked
  obtain ⟨members, hmembers, hcover⟩ := hreq.snapshot
  refine ⟨staged.request, members, ?_, hmembers, ?_, ?_, ?_⟩
  · exact ⟨staged.first, List.mem_of_mem_head? staged.batch.head, staged.found⟩
  · intro e he
    obtain ⟨c, hc, rfl⟩ := List.mem_map.mp ((hcover e).mp he)
    have hsame := staged.batch.same c hc
    by_cases hm : c ∈ missing
    · refine ⟨c.id, c, staged.lookup_withGrants.mpr (Or.inr ⟨hm, rfl⟩), ?_, ?_, ?_, rfl⟩
      · exact hsame.tenant.trans hreq.sameTenant.symm
      · exact hsame.request.trans hreq.sameId.symm
      · exact hsame.subject.trans hreq.sameSubject.symm
    · -- The candidate was left out, so its entitlement has a grant already.
      have hpresent : c.entitlement ∈ (incumbentGrants staged.first s).map (·.entitlement) := by
        by_contra hnot
        exact hm ((hreq.mem_iff c).mpr ⟨hc, hnot⟩)
      obtain ⟨g, hg, hent⟩ := List.mem_map.mp hpresent
      obtain ⟨hvalue, -⟩ := List.mem_filter.mp hg
      obtain ⟨k, hk⟩ := HashMap.mem_values.mp hvalue
      have hbind := (hreq.agree g hg).1
      refine ⟨k, g, staged.lookup_withGrants.mpr (Or.inl hk), ?_, ?_, ?_, hent⟩
      · exact hbind.tenant.trans hreq.sameTenant.symm
      · exact hbind.request.trans hreq.sameId.symm
      · exact hbind.subject.trans hreq.sameSubject.symm
  · exact fun k g => staged.lookup_withGrants
  · intro g hg
    have hcand := staged.mem_candidates hg
    have hsame := staged.batch.same g hcand
    refine ⟨hcand, fun k g' hk htenant hrequest => ?_⟩
    refine staged.missing_binding hg hk ?_ ?_
    · exact htenant.trans (hreq.sameTenant.trans hsame.tenant.symm)
    · exact hrequest.trans (hreq.sameId.trans hsame.request.symm)

def FileRepository.withoutGrants : FileRepository :=
  { repo with store := { repo.store with accessGrants := ∅ } }

/-- In every run from a store without grants, in either flush mode and with any failed writes, the
grants are sound at every point, a revoked grant is the same record ever after, and a call of
`ensure_iga_access_grants` completes the snapshot of its request or fails and leaves the grants as
they are. -/
theorem grants_materialized_once (calls : List (Persist × Call)) :
    GrantsSound (final step repo.withoutGrants calls).store ∧
    (∀ later k g, (final step repo.withoutGrants calls).store.accessGrants.lookup k = some g →
      g.revoked = true →
      (final step repo.withoutGrants (calls ++ later)).store.accessGrants.lookup k = some g) ∧
    ∀ persist candidates,
      EnsureAtomic (final step repo.withoutGrants calls).store
        (ensureIgaAccessGrants persist candidates (final step repo.withoutGrants calls)).2.store
        candidates
        (ensureIgaAccessGrants persist candidates (final step repo.withoutGrants calls)).1 := by
  refine ⟨?_, ?_, ?_⟩
  · refine final_invariant step (I := fun r => GrantsSound r.store) ?_ ⟨?_, ?_⟩ calls
    · intro r k h
      exact h.change (answer_change k.1 r k.2)
    · intro k l g h hk
      cases hk
    · intro k g hk
      cases hk
  · intro later k g hk hrev
    rw [final_append]
    exact (grantsKept_final _ later).revoked hk hrev
  · intro persist candidates
    rcases ensureIgaAccessGrants_cases persist candidates
        (final step repo.withoutGrants calls) with ⟨e, he, hs⟩ | ⟨missing, hm, hs, ⟨staged⟩⟩
    · rw [he, hs]
      exact rfl
    · rw [hm, hs]
      exact staged.materialized

end Qid.Iga
