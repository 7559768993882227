/-
The handlers of access requests.

A translation of `qid-iga/src/routes/access.rs` from the point where the caller is authenticated. A
handler is a program over the repository, so that it can run alone or interleaved with others.
-/
import Qid.Iga.Engine
import Qid.Iga.Store
import Qid.Lib.Program

namespace Qid.Iga

open Lib

inductive Response (α : Type) where
  | json (body : α)
  | unauthorized (error : String)
  | badRequest (error : String)
  | notFound (error : String)
  | storageError (operation : String) (error : QidError)

abbrev Handler (α : Type) : Type := Program Call Call.Answer (Response α)

structure AccessRequest where
  subject : String
  entitlement : Option String
  accessPackageId : Option String
  reason : Option String
  requestedDurationSeconds : Option Nat
  deriving DecidableEq

/-- `clock` gives the readings of the time and `ulid` the identifiers drawn, in order. -/
structure RequestRun where
  tenantId : String
  req : AccessRequest
  clock : Nat → Nat
  ulid : Nat → String

inductive RequestBody where
  | single (tenantId : String) (reason : Option String) (evaluation : AccessRequestEvaluation)
  | package (tenantId : String) (reason : Option String) (entitlement : String)
      (evaluation : AccessPackageEvaluation)
  deriving DecidableEq

def nonBlank (value : Option String) : Option String := value.filter fun v => !(trim v).isEmpty

def currentEntitlements (now : Nat) (grants : List IgaAccessGrantRecord) : List String :=
  let active := (grants.filter fun g => !g.revoked).filter fun g =>
    g.expiresAtEpochSeconds.all fun expiresAt => expiresAt > now
  sortDedup (active.map fun g => g.entitlement)

def evaluationInputs {α : Type} (tenantId subject : String) (now : Nat)
    (next : List String → List Entitlement → Handler α) : Handler α :=
  .call (.listIgaAccessGrants tenantId (some subject))
    fun (r : QidResult (List IgaAccessGrantRecord)) =>
      match r with
      | .error e => .ret (.storageError "list_iga_access_grants" e)
      | .ok grants =>
        .call (.listIgaEntitlements tenantId) fun (r : QidResult (List IgaEntitlementRecord)) =>
          match r with
          | .error e => .ret (.storageError "list_iga_entitlements" e)
          | .ok stored => next (currentEntitlements now grants) (activeCatalog stored)

def storeRequest (record : IgaAccessRequestRecord) (body : RequestBody) : Handler RequestBody :=
  .call (.storeIgaAccessRequest record) fun (r : QidResult Unit) =>
    match r with
    | .error e => .ret (.storageError "store_iga_access_request" e)
    | .ok () => .ret (.json body)

variable (run : RequestRun)

def requestRecord (evaluation : AccessRequestEvaluation) : IgaAccessRequestRecord :=
  { id := evaluation.requestId
    tenantId := run.tenantId
    subject := evaluation.subject
    entitlement := evaluation.entitlement
    reason := run.req.reason
    packageEntitlementIdsJson := .array []
    status := accessRequestStatusAsStr evaluation.status
    approvalStepsJson := encodeApprovalSteps evaluation.approvalSteps
    violationsJson := encodeStrings evaluation.violations
    expiresAtEpochSeconds := evaluation.expiresAtEpochSeconds
    createdAtEpochSeconds := run.clock 0 }

variable (package : IgaAccessPackageRecord)

def packageRecord (evaluation : AccessPackageEvaluation) : IgaAccessRequestRecord :=
  { id := run.ulid 0
    tenantId := run.tenantId
    subject := evaluation.subject
    entitlement := "access_package:" ++ package.id
    reason := run.req.reason
    packageEntitlementIdsJson := encodeStrings package.entitlementIds
    status := accessRequestStatusAsStr evaluation.status
    approvalStepsJson := encodeApprovalSteps evaluation.approvalSteps
    violationsJson := encodeStrings evaluation.violations
    expiresAtEpochSeconds := evaluation.expiresAtEpochSeconds
    createdAtEpochSeconds := run.clock 0 }

def packageDuration : Option Nat → Option Nat → Option Nat
  | some requested, some max => some (min requested max)
  | some requested, none => some requested
  | none, max => max

def memberEvaluations (current : List String) (catalog : List Entitlement) :
    List AccessRequestEvaluation :=
  package.entitlementIds.mapIdx fun i entitlementId =>
    evaluateAccessRequest (run.ulid 0) (run.clock (i + 1)) run.req.subject entitlementId
      (current ++ package.entitlementIds.filter fun member => member != entitlementId)
      (packageDuration run.req.requestedDurationSeconds package.maxDurationSeconds) catalog

def requestPackage : Handler RequestBody :=
  evaluationInputs run.tenantId run.req.subject (run.clock 0) fun current catalog =>
    let evaluation := buildAccessPackageEvaluation (run.ulid 0) run.req.subject package.id
      (memberEvaluations run package current catalog)
    let record := packageRecord run package evaluation
    storeRequest record (.package run.tenantId run.req.reason record.entitlement evaluation)

def accessPackageRequest (accessPackageId : String) : Handler RequestBody :=
  .call (.listIgaAccessPackages run.tenantId) fun (r : QidResult (List IgaAccessPackageRecord)) =>
    match r with
    | .error e => .ret (.storageError "list_iga_access_packages" e)
    | .ok packages =>
      match packages.find? fun p => p.id == accessPackageId && p.active with
      | none => .ret (.badRequest "access_package_unknown")
      | some package => requestPackage run package

def requestEntitlement (entitlement : String) : Handler RequestBody :=
  evaluationInputs run.tenantId run.req.subject (run.clock 0) fun current catalog =>
    let evaluation := evaluateAccessRequest (run.ulid 0) (run.clock 1) run.req.subject
      entitlement current run.req.requestedDurationSeconds catalog
    storeRequest (requestRecord run evaluation) (.single run.tenantId run.req.reason evaluation)

def accessRequest : Handler RequestBody :=
  match nonBlank run.req.accessPackageId with
  | some accessPackageId => accessPackageRequest run accessPackageId
  | none =>
    match nonBlank run.req.entitlement with
    | none => .ret (.badRequest "entitlement_required")
    | some entitlement => requestEntitlement run entitlement

structure ApprovalValidationRequest where
  requestId : Option String
  approvals : List AccessApprovalRecord
  decision : Option AccessApprovalDecision
  reason : Option String
  expiresAtEpochSeconds : Option Nat
  issueGrant : Bool
  deriving DecidableEq

structure ValidateRun where
  admin : String
  tenantId : String
  req : ApprovalValidationRequest
  now : Nat
  ulid : Nat → String

structure ValidationBody where
  validation : ApprovalValidation
  grant : Option TimeBoundAccessGrant
  grants : List TimeBoundAccessGrant
  deriving DecidableEq

namespace ValidateRun

def requestId? (run : ValidateRun) : Option String :=
  ((run.req.requestId.map trim).filter fun value => !value.isEmpty) <|>
    run.req.approvals.head?.map fun approval => approval.requestId

def currentApprovals (run : ValidateRun) (requestId : String) (stored : IgaAccessRequestRecord) :
    List AccessApprovalRecord :=
  if stored.status = "approval_required" then
    let given := (run.req.approvals.filter fun a => a.approver == run.admin).mapIdx fun i a =>
      { id := run.ulid i
        requestId := requestId
        approver := run.admin
        decision := a.decision
        approvedAtEpochSeconds := run.now
        expiresAtEpochSeconds := a.expiresAtEpochSeconds <|> run.req.expiresAtEpochSeconds
        reason := a.reason <|> run.req.reason : AccessApprovalRecord }
    match given, run.req.decision with
    | [], some decision =>
      [{ id := run.ulid 0
         requestId := requestId
         approver := run.admin
         decision := decision
         approvedAtEpochSeconds := run.now
         expiresAtEpochSeconds := run.req.expiresAtEpochSeconds
         reason := run.req.reason }]
    | given, _ => given
  else []

end ValidateRun

def storedEvaluation (stored : IgaAccessRequestRecord) : AccessRequestEvaluation :=
  { requestId := stored.id
    subject := stored.subject
    entitlement := stored.entitlement
    status := .approvalRequired
    approvalSteps := (decodeApprovalSteps stored.approvalStepsJson).getD []
    violations := (decodeStrings stored.violationsJson).getD []
    expiresAtEpochSeconds := stored.expiresAtEpochSeconds }

def accessApprovalFromStored (record : IgaApprovalRecord) : Except String AccessApprovalRecord :=
  let decided (decision : AccessApprovalDecision) : AccessApprovalRecord :=
    { id := record.id
      requestId := record.requestId
      approver := record.approver
      decision := decision
      approvedAtEpochSeconds := record.approvedAtEpochSeconds
      expiresAtEpochSeconds := record.expiresAtEpochSeconds
      reason := record.reason }
  if record.decision = "approved" then return decided .approved
  else if record.decision = "rejected" then return decided .rejected
  else throw "stored_approval_decision_invalid"

def approvalRecord (tenantId : String) (approval : AccessApprovalRecord) : IgaApprovalRecord :=
  { id := approval.id
    tenantId := tenantId
    requestId := approval.requestId
    approver := approval.approver
    decision := approvalDecisionAsStr approval.decision
    approvedAtEpochSeconds := approval.approvedAtEpochSeconds
    expiresAtEpochSeconds := approval.expiresAtEpochSeconds
    reason := approval.reason }

def grantRecord (tenantId : String) (grant : TimeBoundAccessGrant) : IgaAccessGrantRecord :=
  { id := grant.id
    tenantId := tenantId
    requestId := grant.requestId
    subject := grant.subject
    entitlement := grant.entitlement
    grantedAtEpochSeconds := grant.grantedAtEpochSeconds
    expiresAtEpochSeconds := grant.expiresAtEpochSeconds
    approvalIds := grant.approvals
    revoked := false }

variable (run : ValidateRun) (validation : ApprovalValidation)

/-- The last call of a run: insert the grants, and answer with those inserted. -/
def materializeGrants (grants : List TimeBoundAccessGrant) : Handler ValidationBody :=
  if grants.isEmpty then
    .ret (.json { validation := validation, grant := none, grants := [] })
  else
    .call (.ensureIgaAccessGrants (grants.map (grantRecord run.tenantId)))
      fun (r : QidResult (List IgaAccessGrantRecord)) =>
        match r with
        | .error e => .ret (.storageError "ensure_iga_access_grants" e)
        | .ok inserted =>
          let grants := grants.filter fun g => inserted.any fun record => record.id == g.id
          .ret (.json { validation := validation, grant := grants.head?, grants := grants })

def nextStatus : Option String :=
  if validation.valid then some "approved"
  else if !validation.rejectedApprovers.isEmpty then some "rejected"
  else none

variable (requestId : String) (stored : IgaAccessRequestRecord)

/-- Unless the request was approved already. -/
def updateStatus (validation : ApprovalValidation) (grants : List TimeBoundAccessGrant) :
    Handler ValidationBody :=
  match if stored.status = "approval_required" then nextStatus validation else none with
  | some status =>
    .call (.updateIgaAccessRequestStatus run.tenantId requestId status) fun (r : QidResult Unit) =>
      match r with
      | .error e => .ret (.storageError "update_iga_access_request_status" e)
      | .ok () => materializeGrants run validation grants
  | none => materializeGrants run validation grants

def storeApprovals (tenantId : String) (next : Handler ValidationBody) :
    List AccessApprovalRecord → Handler ValidationBody
  | [] => next
  | approval :: rest =>
    .call (.storeIgaApproval (approvalRecord tenantId approval)) fun (r : QidResult Unit) =>
      match r with
      | .error e => .ret (.storageError "store_iga_approval" e)
      | .ok () => storeApprovals tenantId next rest

variable (current approvals : List AccessApprovalRecord)

def writeDecision (grants : List TimeBoundAccessGrant) : Handler ValidationBody :=
  let validation := validateAccessRequestApprovals (storedEvaluation stored) approvals run.now
  let own := approvals.filter fun a => current.any fun c => c.id == a.id
  storeApprovals run.tenantId (updateStatus run requestId stored validation grants) own

def issueSnapshot (requestId packageId : String) (stored : IgaAccessRequestRecord)
    (current approvals : List AccessApprovalRecord) (snapshot : List String)
    (packages : List IgaAccessPackageRecord) : Handler ValidationBody :=
  match packages.find? fun p => p.id == packageId && p.active with
  | none => .ret (.badRequest "access_package_unknown")
  | some package =>
    if package.entitlementIds.insertionSort (fun a b => a ≤ b) ≠
        snapshot.insertionSort (fun a b => a ≤ b) then
      .ret (.badRequest "access_package_changed")
    else
      match issuePackageMemberGrants (storedEvaluation stored) approvals run.now
          (fun n => run.ulid (current.length + n)) snapshot with
      | .error e => .ret (.storageError "issue_package_member_grants" e)
      | .ok grants => writeDecision run requestId stored current approvals grants

def issuePackage (requestId packageId : String) (stored : IgaAccessRequestRecord)
    (current approvals : List AccessApprovalRecord) : Handler ValidationBody :=
  let snapshot := (decodeStrings stored.packageEntitlementIdsJson).getD []
  if snapshot.isEmpty then .ret (.badRequest "access_package_snapshot_missing")
  else
    .call (.listIgaAccessPackages run.tenantId) fun (r : QidResult (List IgaAccessPackageRecord)) =>
      match r with
      | .error e => .ret (.storageError "list_iga_access_packages" e)
      | .ok packages =>
        issueSnapshot run requestId packageId stored current approvals snapshot packages

def decideApprovals : Handler ValidationBody :=
  let evaluation := storedEvaluation stored
  let validation := validateAccessRequestApprovals evaluation approvals run.now
  if run.req.issueGrant && validation.valid then
    match stripPrefix "access_package:" stored.entitlement with
    | some packageId => issuePackage run requestId packageId stored current approvals
    | none =>
      match issueTimeBoundAccessGrant (run.ulid current.length) evaluation approvals run.now with
      | .ok grant => writeDecision run requestId stored current approvals [grant]
      | .error _ => writeDecision run requestId stored current approvals []
  else writeDecision run requestId stored current approvals []

/-- From the request to the read of its approvals. -/
def validateStored : Handler ValidationBody :=
  if stored.status != "approval_required" && stored.status != "approved" then
    .ret (.badRequest ("request_status_not_approval_required:" ++ stored.status))
  else if run.req.expiresAtEpochSeconds.any fun expiresAt => expiresAt ≤ run.now then
    .ret (.badRequest "approval_expired")
  else
    let current := run.currentApprovals requestId stored
    if !current.isEmpty &&
        !(storedEvaluation stored).approvalSteps.any fun step => step.approver == run.admin then
      .ret (.unauthorized "admin is not an approver for this access request")
    else
      .call (.listIgaApprovals run.tenantId requestId)
        fun (r : QidResult (List IgaApprovalRecord)) =>
          match r with
          | .error e => .ret (.storageError "list_iga_approvals" e)
          | .ok storedApprovals =>
            match storedApprovals.mapM accessApprovalFromStored with
            | .error error => .ret (.badRequest error)
            | .ok approvals => decideApprovals run requestId stored current (approvals ++ current)

def validateApprovals : Handler ValidationBody :=
  match run.requestId? with
  | none => .ret (.badRequest "request_id_required")
  | some requestId =>
    .call (.getIgaAccessRequest run.tenantId requestId)
      fun (r : QidResult (Option IgaAccessRequestRecord)) =>
        match r with
        | .error e => .ret (.storageError "get_iga_access_request" e)
        | .ok none => .ret (.notFound "access_request_not_found")
        | .ok (some stored) => validateStored run requestId stored

structure RevokeBody where
  tenantId : String
  id : String
  subject : String
  entitlement : String
  revoked : Bool
  reason : Option String
  deriving DecidableEq

def revokeAccessGrant (tenantId id : String) (reason : Option String) : Handler RevokeBody :=
  .call (.listIgaAccessGrants tenantId none) fun (r : QidResult (List IgaAccessGrantRecord)) =>
    match r with
    | .error e => .ret (.storageError "list_iga_access_grants" e)
    | .ok grants =>
      match grants.find? fun g => g.id == id with
      | none => .ret (.notFound "IGA access grant not found")
      | some existing =>
        .call (.revokeIgaAccessGrant tenantId id) fun (r : QidResult Unit) =>
          match r with
          | .error e => .ret (.storageError "revoke_iga_access_grant" e)
          | .ok () =>
            .ret (.json
              { tenantId := tenantId, id := id, subject := existing.subject,
                entitlement := existing.entitlement, revoked := true, reason := reason })

end Qid.Iga
