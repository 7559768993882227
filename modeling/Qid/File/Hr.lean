/-
Ordered imports from a personnel system.

A translation of `qid-storage/src/hr.rs` and `file/hr.rs`. A batch carries a receipt with a sequence
number and a digest, and changes with the copy of the user each expects to find. The commit checks
them again under both locks, writes a candidate store and publishes it when the write succeeds. When
the sync of the directory fails after that, the caller is told that the outcome is uncertain.
-/
import Qid.File.Store

namespace Qid.File

open Lib Storage Scim

structure HrBatchResult where
  summary : HrSummary
  sequence : Nat
  replayed : Bool
  deriving DecidableEq

structure HrUserChange where
  expected : Option ScimUser
  user : ScimUser

structure HrBatch where
  realmId : String
  providerId : String
  receipt : HrReceipt
  /-- `none` is a rejected preflight: it may replay a receipt, never advance it. -/
  changes : Option (List HrUserChange)

def hrConflict : QidError :=
  .conflict ("HR sequence or target conflict; use the next contiguous sequence, " ++
    "or retry the latest identical body")

def validSequence (sequence : Nat) : Bool := sequence ≠ 0 && fitsI64 sequence

/-- Check the order of a receipt: a replay answers with what is stored. -/
def hrOrder (current : Option HrReceipt) (incoming : HrReceipt) :
    QidResult (Option HrBatchResult) :=
  if !validSequence incoming.sequence then .error hrConflict
  else
    match current with
    | some current =>
      if !validSequence current.sequence then
        .error (.internal "invalid persisted HR receipt sequence")
      else if current.sequence = incoming.sequence ∧ current.digest = incoming.digest then
        .ok (some { summary := current.summary, sequence := current.sequence, replayed := true })
      else if current.sequence + 1 ≠ incoming.sequence then .error hrConflict
      else .ok none
    | none => if incoming.sequence ≠ 1 then .error hrConflict else .ok none

def sameJson (a b : ScimUser) : Bool :=
  a.id == b.id && a.realmId == b.realmId && a.externalId == b.externalId &&
    a.userName == b.userName && a.nameJson == b.nameJson && a.emailsJson == b.emailsJson &&
    a.enterpriseJson == b.enterpriseJson && a.directoryProviderId == b.directoryProviderId &&
    a.deprovisionedAt == b.deprovisionedAt && a.active == b.active

variable (batch : HrBatch) (users : List ScimUser)

def hrTargets (externalId : Option String) : List ScimUser :=
  users.filter fun u => u.realmId == batch.realmId && u.externalId == externalId

/-- The external ids, the ids, and who has each name. -/
structure HrSeen where
  externalIds : List (Option String)
  ids : List String
  names : HashMap String

def HrSeen.add (seen : HrSeen) (user : ScimUser) : HrSeen :=
  { externalIds := user.externalId :: seen.externalIds
    ids := user.id :: seen.ids
    names := seen.names.insert user.userName user.id }

/-- One user as it was, with the id and the owner of the new one, or no user and no use of the new
id. -/
def hrTargetMatches (change : HrUserChange) : Bool :=
  let targets := hrTargets batch users change.user.externalId
  match change.expected with
  | none => targets.isEmpty && !users.any fun u => u.id == change.user.id
  | some expected =>
    match targets with
    | [target] =>
      sameJson target expected && expected.id == change.user.id &&
        expected.directoryProviderId == change.user.directoryProviderId
    | _ => false

def validateHrChange (seen : HrSeen) (change : HrUserChange) : QidResult HrSeen :=
  let user := change.user
  if user.realmId ≠ batch.realmId ∨ user.externalId ∈ seen.externalIds ∨ user.id ∈ seen.ids then
    .error hrConflict
  else if !hrTargetMatches batch users change ∨
      (seen.names.lookup user.userName).any (· ≠ user.id) then
    .error hrConflict
  else .ok (seen.add user)

def hrNames : HashMap String :=
  (users.filter fun u => u.realmId == batch.realmId).foldl
    (fun names u => names.insert u.userName u.id) ∅

def validateHrChanges : QidResult (List HrUserChange) :=
  match batch.changes with
  | none => .error hrConflict
  | some changes => do
    let _ ← changes.foldlM (validateHrChange batch users)
      { externalIds := [], ids := [], names := hrNames batch users }
    return changes

def hrWritten : Persist → QidResult Unit
  | .unserializable _ => .error (.internal "HR store serialization failed")
  | persist => persist.result

def syncHrDirectory (synced : Bool) : QidResult Unit :=
  if synced then .ok ()
  else .error (.internal "HR durability outcome uncertain; retry identical sequence and body")

namespace Store

def hrReceipt (s : Store) (realm provider : String) : Option HrReceipt :=
  (s.hrReceipts.lookup realm).bind fun receipts => receipts.lookup provider

def applyHr (s : Store) (batch : HrBatch) (changes : List HrUserChange) : Store :=
  { s with
    scimUsers := changes.foldl (fun users change => users.put change.user) s.scimUsers
    hrReceipts := s.hrReceipts.insert batch.realmId
      (((s.hrReceipts.lookup batch.realmId).getD ∅).insert batch.providerId batch.receipt) }

end Store

/-- `commit_hr_inner`. The second store is the new one, if one was written and published. -/
def commitHrInner (persist : Persist) (synced : Bool) (s : Store) (batch : HrBatch) :
    QidResult HrBatchResult × Option Store :=
  match hrOrder (s.hrReceipt batch.realmId batch.providerId) batch.receipt with
  | .error e => (.error e, none)
  | .ok (some result) => ((syncHrDirectory synced).map fun _ => result, none)
  | .ok none =>
    match validateHrChanges batch s.scimUsers.values with
    | .error e => (.error e, none)
    | .ok changes =>
      match hrWritten persist with
      | .error e => (.error e, none)
      | .ok () =>
        ((syncHrDirectory synced).map fun _ =>
            { summary := batch.receipt.summary, sequence := batch.receipt.sequence
              replayed := false },
          some (s.applyHr batch changes))

def applyHrBatch (persist : Persist) (synced : Bool) (s : Store) (batch : HrBatch) :
    QidResult HrBatchResult × Store :=
  let r := commitHrInner persist synced s batch
  (r.1, r.2.getD s)

end Qid.File
