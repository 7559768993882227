/-
The governance repository of the file store.

A translation of `qid-storage/src/file/iga.rs`. A failed save leaves the change in memory, except
for `ensure_iga_access_grants`, which puts the old store back.
-/
import Qid.Lib.HashMap
import Qid.Lib.Run
import Qid.Storage.Persist
import Qid.Iga.Grants
import Mathlib.Data.List.Sort

namespace Qid.Iga

open Lib Storage

structure IgaStore where
  entitlements : HashMap IgaEntitlementRecord
  accessPackages : HashMap IgaAccessPackageRecord
  accessRequests : HashMap IgaAccessRequestRecord
  approvals : HashMap IgaApprovalRecord
  accessGrants : HashMap IgaAccessGrantRecord

def IgaStore.empty : IgaStore :=
  { entitlements := ∅, accessPackages := ∅, accessRequests := ∅, approvals := ∅,
    accessGrants := ∅ }

inductive FileFlushMode where
  | immediate
  | interval
  deriving DecidableEq

structure FileRepository where
  flushMode : FileFlushMode
  store : IgaStore
  dirty : Bool

def FileRepository.new (flushMode : FileFlushMode) : FileRepository :=
  { flushMode := flushMode, store := IgaStore.empty, dirty := false }

variable (persist : Persist) (repo : FileRepository)

def save : QidResult Unit × FileRepository :=
  match repo.flushMode with
  | .immediate => (persist.result, repo)
  | .interval => (.ok (), { repo with dirty := true })

@[simp] theorem save_store : (save persist repo).2.store = repo.store := by
  unfold save
  cases repo.flushMode with
  | _ => rfl

variable (store : IgaStore)

def mutate : QidResult Unit × FileRepository := save persist { repo with store := store }

@[simp] theorem mutate_store : (mutate persist repo store).2.store = store := save_store persist _

/-- The length keeps a delimiter in either part from making two keys equal. -/
def scopedRecordKey (scope id : String) : String :=
  toString scope.utf8ByteSize ++ ":" ++ scope ++ id

def storeIgaEntitlement (entitlement : IgaEntitlementRecord) (repo : FileRepository) :
    QidResult Unit × FileRepository :=
  match entitlement.validate with
  | .error e => (.error e, repo)
  | .ok () =>
    mutate persist repo
      { repo.store with
        entitlements := repo.store.entitlements.insert
          (scopedRecordKey entitlement.tenantId entitlement.id) entitlement }

def listIgaEntitlements (tenantId : String) (repo : FileRepository) :
    QidResult (List IgaEntitlementRecord) :=
  let found := repo.store.entitlements.values.filter fun e => e.tenantId == tenantId
  return found.insertionSort fun a b => a.id ≤ b.id

variable (tenantId id : String)

def deleteIgaEntitlement (repo : FileRepository) : QidResult Unit × FileRepository :=
  mutate persist repo
    { repo.store with
      entitlements := repo.store.entitlements.erase (scopedRecordKey tenantId id) }

def storeIgaAccessPackage (package : IgaAccessPackageRecord) (repo : FileRepository) :
    QidResult Unit × FileRepository :=
  match package.validate with
  | .error e => (.error e, repo)
  | .ok () =>
    mutate persist repo
      { repo.store with
        accessPackages := repo.store.accessPackages.insert
          (scopedRecordKey package.tenantId package.id) package }

def listIgaAccessPackages (tenantId : String) (repo : FileRepository) :
    QidResult (List IgaAccessPackageRecord) :=
  let found := repo.store.accessPackages.values.filter fun p => p.tenantId == tenantId
  return found.insertionSort fun a b => a.id ≤ b.id

def deleteIgaAccessPackage (repo : FileRepository) : QidResult Unit × FileRepository :=
  mutate persist repo
    { repo.store with
      accessPackages := repo.store.accessPackages.erase (scopedRecordKey tenantId id) }

def storeIgaAccessRequest (request : IgaAccessRequestRecord) (repo : FileRepository) :
    QidResult Unit × FileRepository :=
  match request.validate with
  | .error e => (.error e, repo)
  | .ok () =>
    match repo.store.accessRequests.lookup request.id with
    | some _ =>
      (.error (.conflict ("IGA access request ID " ++ request.id ++ " already exists")), repo)
    | none =>
      mutate persist repo
        { repo.store with
          accessRequests := repo.store.accessRequests.insert request.id request }

def getIgaAccessRequest (repo : FileRepository) : QidResult (Option IgaAccessRequestRecord) :=
  return (repo.store.accessRequests.lookup id).filter fun r => r.tenantId == tenantId

def validateIgaAccessRequestStatus (status : String) : QidResult Unit :=
  if status ∈ ["auto_approved", "approval_required", "approved", "rejected"] then return ()
  else throw (.badRequest "IGA access request status is not supported")

def updateIgaAccessRequestStatus (tenantId id status : String) (repo : FileRepository) :
    QidResult Unit × FileRepository :=
  match validateIgaAccessRequestStatus status with
  | .error e => (.error e, repo)
  | .ok () =>
    match repo.store.accessRequests.lookup id with
    | some request =>
      if request.tenantId = tenantId then
        mutate persist repo
          { repo.store with
            accessRequests :=
              repo.store.accessRequests.insert id { request with status := status } }
      else save persist repo
    | none => save persist repo

def storeIgaApproval (approval : IgaApprovalRecord) (repo : FileRepository) :
    QidResult Unit × FileRepository :=
  match approval.validate with
  | .error e => (.error e, repo)
  | .ok () =>
    match repo.store.approvals.lookup approval.id with
    | some _ => (.error (.conflict ("IGA approval ID " ++ approval.id ++ " already exists")), repo)
    | none =>
      mutate persist repo
        { repo.store with approvals := repo.store.approvals.insert approval.id approval }

def listIgaApprovals (tenantId requestId : String) (repo : FileRepository) :
    QidResult (List IgaApprovalRecord) :=
  let found := repo.store.approvals.values.filter fun a =>
    a.tenantId == tenantId && a.requestId == requestId
  return found.insertionSort fun a b =>
    a.approvedAtEpochSeconds < b.approvedAtEpochSeconds ∨
      a.approvedAtEpochSeconds = b.approvedAtEpochSeconds ∧ a.id ≤ b.id

variable (first : IgaAccessGrantRecord)

def incumbentGrants (store : IgaStore) : List IgaAccessGrantRecord :=
  store.accessGrants.values.filter fun g =>
    g.tenantId == first.tenantId && g.requestId == first.requestId

/-- The id of a candidate is that of a grant with another binding. -/
def bindsElsewhere (candidate : IgaAccessGrantRecord) : Bool :=
  match store.accessGrants.lookup candidate.id with
  | some g => g.tenantId != candidate.tenantId || g.requestId != candidate.requestId ||
      g.subject != candidate.subject || g.entitlement != candidate.entitlement
  | none => false

variable (candidates : List IgaAccessGrantRecord)

def stageIgaAccessGrants (store : IgaStore) : QidResult (List IgaAccessGrantRecord) :=
  match (store.accessRequests.lookup first.requestId).filter fun r =>
      r.tenantId == first.tenantId with
  | none => throw (.badRequest "IGA access request not found")
  | some request => do
    let missing ← missingGrants first candidates request (incumbentGrants first store)
    if candidates.any (bindsElsewhere store) then
      throw (.badRequest "IGA grant ID belongs to another binding")
    else
      return missing

def ensureIgaAccessGrantsInner (repo : FileRepository) :
    QidResult (List IgaAccessGrantRecord) × FileRepository :=
  match stageIgaAccessGrants first candidates repo.store with
  | .error e => (.error e, repo)
  | .ok [] => (.ok [], repo)
  | .ok missing =>
    let staged := { repo.store with
      accessGrants := HashMap.insertAll (fun g => g.id) missing repo.store.accessGrants }
    match repo.flushMode with
    | .immediate =>
      match persist.result with
      | .ok () => (.ok missing, { repo with store := staged })
      | .error e => (.error e, repo)
    | .interval => (.ok missing, { repo with store := staged, dirty := true })

def ensureIgaAccessGrants (repo : FileRepository) :
    QidResult (List IgaAccessGrantRecord) × FileRepository :=
  match validateCandidates candidates with
  | .error e => (.error e, repo)
  | .ok first => ensureIgaAccessGrantsInner persist first candidates repo

def listIgaAccessGrants (tenantId : String) (subject : Option String) (repo : FileRepository) :
    QidResult (List IgaAccessGrantRecord) :=
  let found := repo.store.accessGrants.values.filter fun g =>
    g.tenantId == tenantId && subject.all fun value => g.subject == value
  return found.insertionSort fun a b =>
    b.grantedAtEpochSeconds < a.grantedAtEpochSeconds ∨
      a.grantedAtEpochSeconds = b.grantedAtEpochSeconds ∧ a.id ≤ b.id

def revokeIgaAccessGrant (repo : FileRepository) : QidResult Unit × FileRepository :=
  match repo.store.accessGrants.lookup id with
  | some grant =>
    if grant.tenantId = tenantId then
      mutate persist repo
        { repo.store with
          accessGrants := repo.store.accessGrants.insert id { grant with revoked := true } }
    else save persist repo
  | none => save persist repo

inductive Call where
  | storeIgaEntitlement (entitlement : IgaEntitlementRecord)
  | listIgaEntitlements (tenantId : String)
  | deleteIgaEntitlement (tenantId id : String)
  | storeIgaAccessPackage (package : IgaAccessPackageRecord)
  | listIgaAccessPackages (tenantId : String)
  | deleteIgaAccessPackage (tenantId id : String)
  | storeIgaAccessRequest (request : IgaAccessRequestRecord)
  | getIgaAccessRequest (tenantId id : String)
  | updateIgaAccessRequestStatus (tenantId id status : String)
  | storeIgaApproval (approval : IgaApprovalRecord)
  | listIgaApprovals (tenantId requestId : String)
  | ensureIgaAccessGrants (candidates : List IgaAccessGrantRecord)
  | listIgaAccessGrants (tenantId : String) (subject : Option String)
  | revokeIgaAccessGrant (tenantId id : String)

@[reducible] def Call.Answer : Call → Type
  | .storeIgaEntitlement _ => QidResult Unit
  | .listIgaEntitlements _ => QidResult (List IgaEntitlementRecord)
  | .deleteIgaEntitlement _ _ | .storeIgaAccessPackage _ => QidResult Unit
  | .listIgaAccessPackages _ => QidResult (List IgaAccessPackageRecord)
  | .deleteIgaAccessPackage _ _ | .storeIgaAccessRequest _ => QidResult Unit
  | .getIgaAccessRequest _ _ => QidResult (Option IgaAccessRequestRecord)
  | .updateIgaAccessRequestStatus _ _ _ | .storeIgaApproval _ => QidResult Unit
  | .listIgaApprovals _ _ => QidResult (List IgaApprovalRecord)
  | .ensureIgaAccessGrants _ | .listIgaAccessGrants _ _ => QidResult (List IgaAccessGrantRecord)
  | .revokeIgaAccessGrant _ _ => QidResult Unit

def answer : (c : Call) → c.Answer × FileRepository
  | .storeIgaEntitlement entitlement => storeIgaEntitlement persist entitlement repo
  | .listIgaEntitlements tenantId => (listIgaEntitlements tenantId repo, repo)
  | .deleteIgaEntitlement tenantId id => deleteIgaEntitlement persist tenantId id repo
  | .storeIgaAccessPackage package => storeIgaAccessPackage persist package repo
  | .listIgaAccessPackages tenantId => (listIgaAccessPackages tenantId repo, repo)
  | .deleteIgaAccessPackage tenantId id => deleteIgaAccessPackage persist tenantId id repo
  | .storeIgaAccessRequest request => storeIgaAccessRequest persist request repo
  | .getIgaAccessRequest tenantId id => (getIgaAccessRequest tenantId id repo, repo)
  | .updateIgaAccessRequestStatus tenantId id status =>
    updateIgaAccessRequestStatus persist tenantId id status repo
  | .storeIgaApproval approval => storeIgaApproval persist approval repo
  | .listIgaApprovals tenantId requestId => (listIgaApprovals tenantId requestId repo, repo)
  | .ensureIgaAccessGrants candidates => ensureIgaAccessGrants persist candidates repo
  | .listIgaAccessGrants tenantId subject => (listIgaAccessGrants tenantId subject repo, repo)
  | .revokeIgaAccessGrant tenantId id => revokeIgaAccessGrant persist tenantId id repo

def step (k : Persist × Call) : ((c : Call) × c.Answer) × FileRepository :=
  (⟨k.2, (answer k.1 repo k.2).1⟩, (answer k.1 repo k.2).2)

end Qid.Iga
