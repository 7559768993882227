/-
Records of identity governance.

A translation of `qid-core/src/models/iga.rs` for the records that access requests, approvals and
grants use. The repository calls `validate` before it stores a record.
-/
import Qid.Core.Json

namespace Qid.Iga

open Json

def requireJsonArray (name : String) (value : Value) : QidResult Unit :=
  match value with
  | .array _ => return ()
  | _ => throw (.badRequest (name ++ " must be an array"))

def requireEachNonEmpty (field : String) (values : List String) : QidResult Unit :=
  forM values (requireNonEmpty field)

def requireAfter (message : String) (time : Option Nat) (start : Nat) : QidResult Unit :=
  match time with
  | some t => if t ≤ start then throw (.badRequest message) else return ()
  | none => return ()

def requirePositive (message : String) (duration : Option Nat) : QidResult Unit :=
  if duration = some 0 then throw (.badRequest message) else return ()

structure IgaAccessRequestRecord where
  id : String
  tenantId : String
  subject : String
  entitlement : String
  reason : Option String
  status : String
  approvalStepsJson : Value
  violationsJson : Value
  packageEntitlementIdsJson : Value
  expiresAtEpochSeconds : Option Nat
  createdAtEpochSeconds : Nat

def IgaAccessRequestRecord.validate (r : IgaAccessRequestRecord) : QidResult Unit := do
  requireNonEmpty "IGA access request id" r.id
  requireNonEmpty "IGA access request tenant_id" r.tenantId
  requireNonEmpty "IGA access request subject" r.subject
  requireNonEmpty "IGA access request entitlement" r.entitlement
  requireNonEmpty "IGA access request status" r.status
  requireJsonArray "IGA access request approval_steps_json" r.approvalStepsJson
  requireJsonArray "IGA access request violations_json" r.violationsJson
  requireJsonArray "IGA access request package_entitlement_ids_json" r.packageEntitlementIdsJson
  if r.createdAtEpochSeconds = 0 then
    throw (.badRequest "IGA access request created_at_epoch_seconds must be set")
  requireAfter
    "IGA access request expires_at_epoch_seconds must be after created_at_epoch_seconds"
    r.expiresAtEpochSeconds r.createdAtEpochSeconds

/-- Tenant-scoped entitlement catalog entry. -/
structure IgaEntitlementRecord where
  id : String
  tenantId : String
  displayName : String
  owner : String
  riskLevel : String
  conflictingEntitlements : List String
  maxDurationSeconds : Option Nat
  active : Bool
  deriving DecidableEq

def IgaEntitlementRecord.validate (e : IgaEntitlementRecord) : QidResult Unit := do
  requireNonEmpty "IGA entitlement id" e.id
  requireNonEmpty "IGA entitlement tenant_id" e.tenantId
  requireNonEmpty "IGA entitlement display_name" e.displayName
  requireNonEmpty "IGA entitlement owner" e.owner
  if e.riskLevel ∉ ["low", "medium", "high", "critical"] then
    throw (.badRequest "IGA entitlement risk_level must be low, medium, high, or critical")
  forM e.conflictingEntitlements fun entitlement => do
    requireNonEmpty "IGA entitlement conflicting_entitlement" entitlement
    if entitlement = e.id then
      throw (.badRequest "IGA entitlement must not conflict with itself")
  requirePositive "IGA entitlement max_duration_seconds must be greater than zero"
    e.maxDurationSeconds

structure IgaAccessPackageRecord where
  id : String
  tenantId : String
  displayName : String
  owner : String
  entitlementIds : List String
  approvalPolicyJson : Value
  maxDurationSeconds : Option Nat
  active : Bool

def IgaAccessPackageRecord.validate (p : IgaAccessPackageRecord) : QidResult Unit := do
  requireNonEmpty "IGA access package id" p.id
  requireNonEmpty "IGA access package tenant_id" p.tenantId
  requireNonEmpty "IGA access package display_name" p.displayName
  requireNonEmpty "IGA access package owner" p.owner
  if p.entitlementIds.isEmpty then
    throw (.badRequest "IGA access package entitlement_ids must not be empty")
  requireEachNonEmpty "IGA access package entitlement_id" p.entitlementIds
  match p.approvalPolicyJson with
  | .object _ => pure ()
  | _ => throw (.badRequest "IGA access package approval_policy_json must be an object")
  requirePositive "IGA access package max_duration_seconds must be greater than zero"
    p.maxDurationSeconds

structure IgaApprovalRecord where
  id : String
  tenantId : String
  requestId : String
  approver : String
  decision : String
  approvedAtEpochSeconds : Nat
  expiresAtEpochSeconds : Option Nat
  reason : Option String
  deriving DecidableEq

def IgaApprovalRecord.validate (a : IgaApprovalRecord) : QidResult Unit := do
  requireNonEmpty "IGA approval id" a.id
  requireNonEmpty "IGA approval tenant_id" a.tenantId
  requireNonEmpty "IGA approval request_id" a.requestId
  requireNonEmpty "IGA approval approver" a.approver
  if a.decision ∉ ["approved", "rejected"] then
    throw (.badRequest "IGA approval decision must be approved or rejected")
  if a.approvedAtEpochSeconds = 0 then
    throw (.badRequest "IGA approval approved_at_epoch_seconds must be set")
  requireAfter "IGA approval expires_at_epoch_seconds must be after approved_at_epoch_seconds"
    a.expiresAtEpochSeconds a.approvedAtEpochSeconds

/-- Time-bound grant. -/
structure IgaAccessGrantRecord where
  id : String
  tenantId : String
  requestId : String
  subject : String
  entitlement : String
  grantedAtEpochSeconds : Nat
  expiresAtEpochSeconds : Option Nat
  approvalIds : List String
  revoked : Bool
  deriving DecidableEq

def IgaAccessGrantRecord.validate (g : IgaAccessGrantRecord) : QidResult Unit := do
  requireNonEmpty "IGA access grant id" g.id
  requireNonEmpty "IGA access grant tenant_id" g.tenantId
  requireNonEmpty "IGA access grant request_id" g.requestId
  requireNonEmpty "IGA access grant subject" g.subject
  requireNonEmpty "IGA access grant entitlement" g.entitlement
  if g.grantedAtEpochSeconds = 0 then
    throw (.badRequest "IGA access grant granted_at_epoch_seconds must be set")
  requireAfter "IGA access grant expires_at_epoch_seconds must be after granted_at_epoch_seconds"
    g.expiresAtEpochSeconds g.grantedAtEpochSeconds
  requireEachNonEmpty "IGA access grant approval_id" g.approvalIds

def encodeStrings (texts : List String) : Value := .array (texts.map .string)

def decodeString : Value → Option String
  | .string s => some s
  | _ => none

def decodeStrings : Value → Option (List String)
  | .array items => items.mapM decodeString
  | _ => none

@[simp] theorem decodeStrings_encodeStrings (texts : List String) :
    decodeStrings (encodeStrings texts) = some texts := by
  show (texts.map Value.string).mapM decodeString = some texts
  induction texts with
  | nil => rfl
  | cons t texts ih =>
    rw [List.map_cons, List.mapM_cons, ih]
    rfl

end Qid.Iga
