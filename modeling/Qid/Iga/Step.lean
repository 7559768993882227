/-
What one repository call does to the store.

`Change` lists every effect a call can have, with what the call has checked by then.
-/
import Qid.Iga.Store

namespace Qid.Iga

open Lib Storage

def IgaStore.withGrants (s : IgaStore) (missing : List IgaAccessGrantRecord) : IgaStore :=
  { s with accessGrants := HashMap.insertAll (fun g => g.id) missing s.accessGrants }

/-- What passes the checks of `ensure_iga_access_grants`. -/
structure Staged (s : IgaStore) (candidates missing : List IgaAccessGrantRecord) where
  first : IgaAccessGrantRecord
  request : IgaAccessRequestRecord
  batch : Batch first candidates
  found : s.accessRequests.lookup first.requestId = some request
  checked : Missing first candidates request (incumbentGrants first s) missing
  own : ∀ c ∈ candidates, bindsElsewhere s c = false

theorem stageIgaAccessGrants_ok {s : IgaStore} {first : IgaAccessGrantRecord}
    {candidates missing : List IgaAccessGrantRecord} (hbatch : Batch first candidates)
    (h : stageIgaAccessGrants first candidates s = .ok missing) :
    Nonempty (Staged s candidates missing) := by
  unfold stageIgaAccessGrants at h
  split at h
  · cases h
  · rename_i request hfound
    rw [bind_eq_ok] at h
    obtain ⟨missing', hmissing, h⟩ := h
    rw [guard_eq_ok, pure_eq_ok] at h
    obtain ⟨hown, rfl⟩ := h
    obtain ⟨hlookup, -⟩ := Option.filter_eq_some_iff.mp hfound
    refine ⟨first, request, hbatch, hlookup, missingGrants_ok hmissing, ?_⟩
    intro c hc
    rw [List.any_eq_true, not_exists] at hown
    rw [← Bool.not_eq_true]
    exact fun hb => hown c ⟨hc, hb⟩

variable (persist : Persist)

theorem ensureIgaAccessGrants_cases
    (candidates : List IgaAccessGrantRecord) (repo : FileRepository) :
    (∃ e, (ensureIgaAccessGrants persist candidates repo).1 = .error e ∧
      (ensureIgaAccessGrants persist candidates repo).2.store = repo.store) ∨
    ∃ missing, (ensureIgaAccessGrants persist candidates repo).1 = .ok missing ∧
      (ensureIgaAccessGrants persist candidates repo).2.store = repo.store.withGrants missing ∧
      Nonempty (Staged repo.store candidates missing) := by
  unfold ensureIgaAccessGrants
  cases hfirst : validateCandidates candidates with
  | error e => exact Or.inl ⟨e, rfl, rfl⟩
  | ok first =>
    have hbatch := validateCandidates_ok hfirst
    simp only [ensureIgaAccessGrantsInner]
    cases hstage : stageIgaAccessGrants first candidates repo.store with
    | error e => exact Or.inl ⟨e, rfl, rfl⟩
    | ok missing =>
      have hstaged := stageIgaAccessGrants_ok hbatch hstage
      cases missing with
      | nil => exact Or.inr ⟨[], rfl, rfl, hstaged⟩
      | cons g rest =>
        cases repo.flushMode with
        | interval => exact Or.inr ⟨g :: rest, rfl, rfl, hstaged⟩
        | immediate =>
          cases persist.result with
          | error e => exact Or.inl ⟨e, rfl, rfl⟩
          | ok => exact Or.inr ⟨g :: rest, rfl, rfl, hstaged⟩

inductive Change (s : IgaStore) : Call → IgaStore → Prop
  | unchanged (c : Call) : Change s c s
  | entitlement (e : IgaEntitlementRecord) (h : e.validate = .ok ()) :
      Change s (.storeIgaEntitlement e)
        { s with entitlements := s.entitlements.insert (scopedRecordKey e.tenantId e.id) e }
  | entitlementGone (tenantId id : String) :
      Change s (.deleteIgaEntitlement tenantId id)
        { s with entitlements := s.entitlements.erase (scopedRecordKey tenantId id) }
  | package (p : IgaAccessPackageRecord) (h : p.validate = .ok ()) :
      Change s (.storeIgaAccessPackage p)
        { s with accessPackages := s.accessPackages.insert (scopedRecordKey p.tenantId p.id) p }
  | packageGone (tenantId id : String) :
      Change s (.deleteIgaAccessPackage tenantId id)
        { s with accessPackages := s.accessPackages.erase (scopedRecordKey tenantId id) }
  | request (r : IgaAccessRequestRecord) (h : r.validate = .ok ())
      (hnew : s.accessRequests.lookup r.id = none) :
      Change s (.storeIgaAccessRequest r)
        { s with accessRequests := s.accessRequests.insert r.id r }
  | status (id status : String) (r : IgaAccessRequestRecord)
      (hget : s.accessRequests.lookup id = some r) :
      Change s (.updateIgaAccessRequestStatus r.tenantId id status)
        { s with accessRequests := s.accessRequests.insert id { r with status := status } }
  | approval (a : IgaApprovalRecord) (h : a.validate = .ok ())
      (hnew : s.approvals.lookup a.id = none) :
      Change s (.storeIgaApproval a) { s with approvals := s.approvals.insert a.id a }
  | grants {candidates missing : List IgaAccessGrantRecord}
      (staged : Staged s candidates missing) :
      Change s (.ensureIgaAccessGrants candidates) (s.withGrants missing)
  | revoke (id : String) (g : IgaAccessGrantRecord) (hget : s.accessGrants.lookup id = some g) :
      Change s (.revokeIgaAccessGrant g.tenantId id)
        { s with accessGrants := s.accessGrants.insert id { g with revoked := true } }

theorem answer_change (repo : FileRepository) (c : Call) :
    Change repo.store c (answer persist repo c).2.store := by
  cases c with
  | storeIgaEntitlement e =>
    dsimp only [answer]
    unfold storeIgaEntitlement
    cases h : e.validate with
    | error => exact Change.unchanged _
    | ok =>
      rw [mutate_store]
      exact Change.entitlement e h
  | deleteIgaEntitlement tenantId id =>
    dsimp only [answer]
    rw [deleteIgaEntitlement, mutate_store]
    exact Change.entitlementGone tenantId id
  | storeIgaAccessPackage p =>
    dsimp only [answer]
    unfold storeIgaAccessPackage
    cases h : p.validate with
    | error err => exact Change.unchanged _
    | ok u =>
      rw [mutate_store]
      exact Change.package p h
  | deleteIgaAccessPackage tenantId id =>
    dsimp only [answer]
    rw [deleteIgaAccessPackage, mutate_store]
    exact Change.packageGone tenantId id
  | storeIgaAccessRequest r =>
    dsimp only [answer]
    unfold storeIgaAccessRequest
    cases h : r.validate with
    | error err => exact Change.unchanged _
    | ok u =>
      cases hget : repo.store.accessRequests.lookup r.id with
      | some => exact Change.unchanged _
      | none =>
        rw [mutate_store]
        exact Change.request r h hget
  | updateIgaAccessRequestStatus tenantId id status =>
    dsimp only [answer]
    unfold updateIgaAccessRequestStatus
    split
    · exact Change.unchanged _
    · split
      · rename_i r hget
        split
        · rename_i htenant
          rw [mutate_store, ← htenant]
          exact Change.status id status r hget
        · rw [save_store]
          exact Change.unchanged _
      · rw [save_store]
        exact Change.unchanged _
  | storeIgaApproval a =>
    dsimp only [answer]
    unfold storeIgaApproval
    cases h : a.validate with
    | error err => exact Change.unchanged _
    | ok u =>
      cases hget : repo.store.approvals.lookup a.id with
      | some old => exact Change.unchanged _
      | none =>
        rw [mutate_store]
        exact Change.approval a h hget
  | ensureIgaAccessGrants candidates =>
    dsimp only [answer]
    rcases ensureIgaAccessGrants_cases persist candidates repo with
      ⟨e, -, hs⟩ | ⟨missing, -, hs, ⟨staged⟩⟩
    · rw [hs]
      exact Change.unchanged _
    · rw [hs]
      exact Change.grants staged
  | revokeIgaAccessGrant tenantId id =>
    dsimp only [answer]
    unfold revokeIgaAccessGrant
    split
    · rename_i g hget
      split
      · rename_i htenant
        rw [mutate_store, ← htenant]
        exact Change.revoke id g hget
      · rw [save_store]
        exact Change.unchanged _
    · rw [save_store]
      exact Change.unchanged _
  | _ => exact Change.unchanged _

end Qid.Iga
