/-
Evaluation of access requests and of their approvals.

A translation of `qid-iga/src/engine.rs`. The identifiers a function draws from `Ulid::new` and the
clock it reads are arguments.
-/
import Qid.Iga.Record
import Mathlib.Data.List.Sort
import Mathlib.Data.List.Destutter

namespace Qid.Iga

open Json

inductive EntitlementRiskLevel where
  | low
  | medium
  | high
  | critical
  deriving DecidableEq

namespace EntitlementRiskLevel

def rank : EntitlementRiskLevel → Nat
  | low => 0
  | medium => 1
  | high => 2
  | critical => 3

instance : LE EntitlementRiskLevel := ⟨fun a b => a.rank ≤ b.rank⟩

instance (a b : EntitlementRiskLevel) : Decidable (a ≤ b) :=
  inferInstanceAs (Decidable (a.rank ≤ b.rank))

end EntitlementRiskLevel

structure Entitlement where
  id : String
  displayName : String
  owner : String
  riskLevel : EntitlementRiskLevel
  conflictingEntitlements : List String
  maxDurationSeconds : Option Nat
  deriving DecidableEq

inductive AccessRequestStatus where
  | autoApproved
  | approvalRequired
  | rejected
  deriving DecidableEq

structure ApprovalStep where
  approver : String
  reason : String
  deriving DecidableEq

structure AccessRequestEvaluation where
  requestId : String
  subject : String
  entitlement : String
  status : AccessRequestStatus
  approvalSteps : List ApprovalStep
  violations : List String
  expiresAtEpochSeconds : Option Nat
  deriving DecidableEq

structure AccessPackageEvaluation where
  requestId : String
  subject : String
  accessPackageId : String
  status : AccessRequestStatus
  approvalSteps : List ApprovalStep
  violations : List String
  expiresAtEpochSeconds : Option Nat
  entitlements : List AccessRequestEvaluation
  deriving DecidableEq

inductive AccessApprovalDecision where
  | approved
  | rejected
  deriving DecidableEq

structure AccessApprovalRecord where
  id : String
  requestId : String
  approver : String
  decision : AccessApprovalDecision
  approvedAtEpochSeconds : Nat
  expiresAtEpochSeconds : Option Nat
  reason : Option String
  deriving DecidableEq

structure ApprovalValidation where
  valid : Bool
  missingApprovers : List String
  rejectedApprovers : List String
  violations : List String
  deriving DecidableEq

structure TimeBoundAccessGrant where
  id : String
  requestId : String
  subject : String
  entitlement : String
  grantedAtEpochSeconds : Nat
  expiresAtEpochSeconds : Option Nat
  approvals : List String
  deriving DecidableEq

def approvalStepsFor (entitlement : Entitlement) (violations : List String) : List ApprovalStep :=
  (if .medium ≤ entitlement.riskLevel then
      [{ approver := entitlement.owner, reason := "owner_approval_required" }]
    else []) ++
  if .high ≤ entitlement.riskLevel ∨ violations ≠ [] then
    [{ approver := "security-admin", reason := "security_approval_required" }]
  else []

/-- The conflicts with held entitlements: those the entitlement lists, and those that
list it. -/
def sodViolations (entitlement : Entitlement) (entitlementId : String)
    (currentEntitlements : List String) (catalog : List Entitlement) : List String :=
  let declared := entitlement.conflictingEntitlements.filter fun conflict =>
    conflict != entitlementId && currentEntitlements.contains conflict
  let reverse := catalog.filter fun held =>
    held.id != entitlement.id && currentEntitlements.contains held.id &&
      held.conflictingEntitlements.contains entitlementId &&
      !entitlement.conflictingEntitlements.contains held.id
  (declared.map fun conflict => "sod_conflict:" ++ conflict) ++
    reverse.map fun held => "sod_conflict:" ++ held.id

/-- With the violation of asking for more than the maximum. -/
def effectiveDuration (requested max : Option Nat) : Option Nat × List String :=
  match requested, max with
  | some requested, some max =>
    if requested > max then (some max, ["duration_exceeds_entitlement_max"])
    else (some requested, [])
  | some requested, none => (some requested, [])
  | none, max => (max, [])

def checkedAdd (a b : Nat) : Option Nat := if a + b < 2 ^ 64 then some (a + b) else none

/-- And whether it is past the range of the clock. -/
def expiryAfter (now : Nat) : Option Nat → Option Nat × Bool
  | some duration =>
    match checkedAdd now duration with
    | some expiresAt => (some expiresAt, false)
    | none => (none, true)
  | none => (none, false)

def evaluateAccessRequest (requestId : String) (now : Nat) (subject entitlementId : String)
    (currentEntitlements : List String) (requestedDurationSeconds : Option Nat)
    (catalog : List Entitlement) : AccessRequestEvaluation :=
  match catalog.find? fun item => item.id == entitlementId with
  | none =>
    { requestId := requestId, subject := subject, entitlement := entitlementId,
      status := .rejected, approvalSteps := [], violations := ["unknown_entitlement"],
      expiresAtEpochSeconds := none }
  | some entitlement =>
    let conflicts := sodViolations entitlement entitlementId currentEntitlements catalog
    let duration := effectiveDuration requestedDurationSeconds entitlement.maxDurationSeconds
    let expiry := expiryAfter now duration.1
    let violations := conflicts ++ duration.2 ++
      if expiry.2 then ["duration_overflow"] else []
    let approvalSteps := approvalStepsFor entitlement violations
    let status :=
      if expiry.2 ∨ violations ≠ [] ∧ .high ≤ entitlement.riskLevel then .rejected
      else if approvalSteps = [] then .autoApproved
      else .approvalRequired
    { requestId := requestId, subject := subject, entitlement := entitlementId,
      status := status, approvalSteps := approvalSteps, violations := violations,
      expiresAtEpochSeconds := expiry.1 }

def earlier : Option Nat → Option Nat → Option Nat
  | some current, some candidate => some (min current candidate)
  | none, some candidate => some candidate
  | current, none => current

def combineStatus : AccessRequestStatus → AccessRequestStatus → AccessRequestStatus
  | _, .rejected => .rejected
  | .autoApproved, .approvalRequired => .approvalRequired
  | current, _ => current

def mergeSteps : List ApprovalStep → List String → List ApprovalStep →
    List ApprovalStep × List String
  | steps, seen, [] => (steps, seen)
  | steps, seen, step :: rest =>
    let key := step.approver ++ ":" ++ step.reason
    if seen.contains key then mergeSteps steps seen rest
    else mergeSteps (steps ++ [step]) (key :: seen) rest

/-- With the keys of the steps seen. -/
def addMember (acc : AccessPackageEvaluation × List String)
    (evaluation : AccessRequestEvaluation) : AccessPackageEvaluation × List String :=
  let merged := mergeSteps acc.1.approvalSteps acc.2 evaluation.approvalSteps
  ({ acc.1 with
      status := combineStatus acc.1.status evaluation.status
      approvalSteps := merged.1
      violations := acc.1.violations ++
        evaluation.violations.map fun v => evaluation.entitlement ++ ":" ++ v
      expiresAtEpochSeconds :=
        earlier acc.1.expiresAtEpochSeconds evaluation.expiresAtEpochSeconds },
    merged.2)

def buildAccessPackageEvaluation (requestId subject accessPackageId : String)
    (entitlements : List AccessRequestEvaluation) : AccessPackageEvaluation :=
  (entitlements.foldl addMember
    ({ requestId := requestId, subject := subject, accessPackageId := accessPackageId,
       status := .autoApproved, approvalSteps := [], violations := [],
       expiresAtEpochSeconds := none, entitlements := entitlements }, [])).1

def sortDedup (texts : List String) : List String :=
  (texts.insertionSort fun a b => a ≤ b).destutter (· ≠ ·)

structure ApprovalScan where
  violations : List String
  /-- The keys of the map from approvers to their approvals. -/
  approvedBy : List String
  rejectedApprovers : List String

variable (evaluation : AccessRequestEvaluation)

def scanApproval (now : Nat) (scan : ApprovalScan) (approval : AccessApprovalRecord) :
    ApprovalScan :=
  let blank := if (trim approval.id).isEmpty then ["approval_id_empty"] else []
  if approval.requestId != evaluation.requestId then
    { scan with
      violations := scan.violations ++ blank ++ ["approval_request_mismatch:" ++ approval.id] }
  else
    let self :=
      if approval.approver == evaluation.subject then ["self_approval:" ++ approval.approver]
      else []
    let future :=
      if approval.approvedAtEpochSeconds > now then ["approval_in_future:" ++ approval.id]
      else []
    let expired :=
      if approval.expiresAtEpochSeconds.any fun expiresAt => expiresAt ≤ now then
        ["approval_expired:" ++ approval.id]
      else []
    let violations := scan.violations ++ blank ++ self ++ future ++ expired
    match approval.decision with
    | .approved =>
      { scan with violations := violations, approvedBy := approval.approver :: scan.approvedBy }
    | .rejected =>
      { scan with
        violations := violations
        rejectedApprovers := scan.rejectedApprovers ++ [approval.approver] }

def validateAccessRequestApprovals (approvals : List AccessApprovalRecord) (now : Nat) :
    ApprovalValidation :=
  let rejected := if evaluation.status = .rejected then ["request_rejected"] else []
  let expired :=
    if evaluation.expiresAtEpochSeconds.any fun expiresAt => expiresAt ≤ now then
      ["request_expired"]
    else []
  let scan := approvals.foldl (scanApproval evaluation now)
    { violations := rejected ++ expired, approvedBy := [], rejectedApprovers := [] }
  let missing := (evaluation.approvalSteps.map fun step => step.approver).filter fun approver =>
    !scan.approvedBy.contains approver
  let missingApprovers := sortDedup missing
  let rejectedApprovers := sortDedup scan.rejectedApprovers
  let violations := sortDedup scan.violations
  { valid := violations.isEmpty && missingApprovers.isEmpty && rejectedApprovers.isEmpty
    missingApprovers := missingApprovers
    rejectedApprovers := rejectedApprovers
    violations := violations }

def issueTimeBoundAccessGrant (id : String) (evaluation : AccessRequestEvaluation)
    (approvals : List AccessApprovalRecord) (now : Nat) :
    Except ApprovalValidation TimeBoundAccessGrant :=
  let validation := validateAccessRequestApprovals evaluation approvals now
  if !validation.valid then throw validation
  else
    return {
      id := id
      requestId := evaluation.requestId
      subject := evaluation.subject
      entitlement := evaluation.entitlement
      grantedAtEpochSeconds := now
      expiresAtEpochSeconds := evaluation.expiresAtEpochSeconds
      approvals := (approvals.filter fun a => a.requestId == evaluation.requestId).map
        fun a => a.id }

/-- The `n`-th with the `n`-th identifier from `ulid`. -/
def issuePackageMemberGrants (evaluation : AccessRequestEvaluation)
    (approvals : List AccessApprovalRecord) (now : Nat) :
    (Nat → String) → List String → QidResult (List TimeBoundAccessGrant)
  | _, [] => return []
  | ulid, memberId :: rest =>
    match issueTimeBoundAccessGrant (ulid 0) { evaluation with entitlement := memberId }
        approvals now with
    | .error _ =>
      throw (.internal ("package member " ++ memberId ++
        " failed grant validation after package approval"))
    | .ok grant => do
      let grants ← issuePackageMemberGrants evaluation approvals now (fun n => ulid (n + 1)) rest
      return grant :: grants

def riskLevelFromStr (value : String) : EntitlementRiskLevel :=
  if value = "medium" then .medium
  else if value = "high" then .high
  else if value = "critical" then .critical
  else .low

def entitlementFromRecord (record : IgaEntitlementRecord) : Entitlement :=
  { id := record.id
    displayName := record.displayName
    owner := record.owner
    riskLevel := riskLevelFromStr record.riskLevel
    conflictingEntitlements := record.conflictingEntitlements
    maxDurationSeconds := record.maxDurationSeconds }

def activeCatalog (stored : List IgaEntitlementRecord) : List Entitlement :=
  (stored.filter fun e => e.active).map entitlementFromRecord

def accessRequestStatusAsStr : AccessRequestStatus → String
  | .autoApproved => "auto_approved"
  | .approvalRequired => "approval_required"
  | .rejected => "rejected"

def approvalDecisionAsStr : AccessApprovalDecision → String
  | .approved => "approved"
  | .rejected => "rejected"

def encodeApprovalSteps (steps : List ApprovalStep) : Value :=
  .array (steps.map fun step =>
    .object [("approver", .string step.approver), ("reason", .string step.reason)])

/-- An approval step is read from an object, whose other fields are ignored, or from
the array of its two fields. -/
def decodeApprovalStep : Value → Option ApprovalStep
  | .object fields => do
    let approver ← (fields.lookup "approver").bind decodeString
    let reason ← (fields.lookup "reason").bind decodeString
    return { approver := approver, reason := reason }
  | .array [approver, reason] => do
    return { approver := ← decodeString approver, reason := ← decodeString reason }
  | _ => none

def decodeApprovalSteps : Value → Option (List ApprovalStep)
  | .array items => items.mapM decodeApprovalStep
  | _ => none

end Qid.Iga
