/-
Reconciliation of an LDAP snapshot.

A translation of `sync_ldap_entries` and the functions it calls (`qid-directory/src/lib.rs`), over
the file repository. The first write that fails ends the sync. Each user is written at most once, so
how the saves end is a function of the user, and the id of a new user a function of its entry.
-/
import Qid.Core.Fields
import Qid.File.Directory
import Qid.Lib.Batch

namespace Qid.Directory

open Lib Storage Scim File Json

structure LdapDirectoryEntry where
  dn : String
  uid : String
  mail : Option String
  displayName : Option String
  department : Option String
  managerDn : Option String
  enabled : Bool
  deriving DecidableEq

structure LdapSyncOptions where
  deactivateMissing : Bool
  syncedAt : Nat
  deriving DecidableEq

structure LdapSyncResult where
  createdUserIds : List String := []
  updatedUserIds : List String := []
  unchangedUserIds : List String := []
  deactivatedUserIds : List String := []
  breakGlassSkippedUserIds : List String := []
  deriving DecidableEq

def ldapSourceSchema : String := "urn:qid:directory:ldap"

def lifecycleSchema : String := "urn:qid:directory:lifecycle"

inductive EmploymentState where
  | active
  | inactive
  | leavePending
  deriving DecidableEq

def EmploymentState.toValue : EmploymentState → Value
  | .active => .string "active"
  | .inactive => .string "inactive"
  | .leavePending => .string "leave_pending"

def setEmploymentStateValue (state : EmploymentState) (enterprise : Fields) : Fields :=
  Fields.insert "employment_state" state.toValue enterprise

variable (entry : LdapDirectoryEntry)

def ldapName : Value :=
  match entry.displayName with
  | some displayName => .object [("formatted", .string displayName)]
  | none => .object []

def ldapEmails : Value :=
  match entry.mail with
  | some mail => .array [.object [("primary", .bool true), ("value", .string mail)]]
  | none => .array []

def ldapEmployment : EmploymentState := if entry.enabled then .active else .inactive

def ldapManager : Option Value := entry.managerDn.map fun dn => .object [("externalId", .string dn)]

variable (user : ScimUser)

def markLdapSource (entry : LdapDirectoryEntry) (syncedAt : Nat) : ScimUser :=
  let enterprise := user.enterpriseJson.fieldsOrDefault
  let enterprise := Fields.insert "source" (.string ldapSourceSchema) enterprise
  let enterprise := Fields.insert "ldap_dn" (.string entry.dn) enterprise
  let enterprise := Fields.insert "ldap_synced_at" (.u64 syncedAt) enterprise
  let enterprise := Fields.assign "department" (entry.department.map .string) enterprise
  let enterprise := Fields.assign "manager" (ldapManager entry) enterprise
  { user with
      enterpriseJson := .object (setEmploymentStateValue (ldapEmployment entry) enterprise) }

def projectDeprovisioned (deprovisionedAt : Nat) : ScimUser :=
  let enterprise := user.enterpriseJson.fieldsOrDefault
  let enterprise := Fields.insert "lifecycle_source" (.string lifecycleSchema) enterprise
  let enterprise := Fields.insert "deprovisioned_at" (.u64 deprovisionedAt) enterprise
  { user with enterpriseJson := .object (setEmploymentStateValue .inactive enterprise) }

/-- The time is overwritten. -/
def markDeprovisioned (deprovisionedAt : Nat) : ScimUser :=
  projectDeprovisioned { user with deprovisionedAt := some deprovisionedAt } deprovisionedAt

def ensureDeprovisioned (syncedAt : Nat) : ScimUser :=
  let trusted := user.deprovisionedAt.getD syncedAt
  projectDeprovisioned { user with deprovisionedAt := some trusted } trusted

def clearDeprovisioned : ScimUser :=
  { user with
    deprovisionedAt := none
    enterpriseJson :=
      match user.enterpriseJson with
      | .object fields => .object (Fields.remove "deprovisioned_at" fields)
      | _ => .object [] }

def isBreakGlassUser : Bool :=
  ((user.enterpriseJson.get "break_glass").bind Value.asBool).getD false

def applyLdapEntry (providerId : String) (entry : LdapDirectoryEntry) (syncedAt : Nat) : ScimUser :=
  let user :=
    { user with
      directoryProviderId := some providerId
      externalId := some entry.dn
      userName := entry.uid
      active := entry.enabled
      nameJson := ldapName entry
      emailsJson := ldapEmails entry }
  let user := markLdapSource user entry syncedAt
  if entry.enabled then clearDeprovisioned user else ensureDeprovisioned user syncedAt

def scimUserFromLdapEntry (id realmId providerId : String) (entry : LdapDirectoryEntry)
    (syncedAt : Nat) : ScimUser :=
  applyLdapEntry
    { id := id
      realmId := realmId
      externalId := some entry.dn
      userName := entry.uid
      nameJson := .object []
      emailsJson := .array []
      enterpriseJson := .object []
      directoryProviderId := some providerId
      deprovisionedAt := none
      active := entry.enabled }
    providerId entry syncedAt

def scimUserSemanticEq (left right : ScimUser) : Bool :=
  left.externalId == right.externalId && left.userName == right.userName &&
    left.nameJson == right.nameJson && left.emailsJson == right.emailsJson &&
    left.enterpriseJson == right.enterpriseJson &&
    left.directoryProviderId == right.directoryProviderId &&
    left.deprovisionedAt == right.deprovisionedAt && left.active == right.active

def isBlank (text : String) : Bool := (trim text).isEmpty

def validateLdapEntry : QidResult Unit :=
  if isBlank entry.dn then .error (.badRequest "LDAP dn is required")
  else if isBlank entry.uid then .error (.badRequest ("LDAP uid is required for " ++ entry.dn))
  else .ok ()

def checkLdapEntry (seenDns : List String) (entry : LdapDirectoryEntry) :
    QidResult (List String) := do
  validateLdapEntry entry
  if entry.dn ∈ seenDns then .error (.badRequest ("duplicate LDAP dn " ++ entry.dn))
  else return entry.dn :: seenDns

/-- Check the ownership of a user that has an owner, and remember it. -/
def preflightUser (seenKeys : List (String × String)) (user : ScimUser) :
    QidResult (List (String × String)) :=
  let owner := user.directoryProviderId.getD ""
  if isBlank owner then
    .error (.conflict ("LDAP user " ++ user.id ++
      " has blank provider ownership; explicit migration is required"))
  else
    match user.externalId with
    | none =>
      .error (.conflict ("LDAP user " ++ user.id ++ " owned by '" ++ owner ++
        "' is missing raw-DN external_id"))
    | some dn =>
      if isBlank dn then
        .error (.conflict ("LDAP user " ++ user.id ++ " owned by '" ++ owner ++
          "' has blank raw-DN external_id"))
      else if (owner, dn) ∈ seenKeys then
        .error (.conflict ("duplicate LDAP ownership for provider '" ++ owner ++ "' dn " ++ dn))
      else .ok ((owner, dn) :: seenKeys)

variable (existing : List ScimUser)

def preflightDirectoryOwnership : QidResult Unit := do
  let _ ← (existing.filter (·.directoryProviderId.isSome)).foldlM preflightUser []
  return ()

def unownedDns : List String :=
  (existing.filter (·.directoryProviderId.isNone)).filterMap (·.externalId)

def checkUnowned (entry : LdapDirectoryEntry) : QidResult Unit :=
  ensure (entry.dn ∉ unownedDns existing)
    (.conflict ("LDAP dn " ++ entry.dn ++
      " collides with an unowned user; explicit migration is required"))

def checkLdapSnapshot (s : Store) (realmId providerId : String)
    (entries : List LdapDirectoryEntry) : QidResult (List ScimUser) := do
  ensure (isBlank providerId = false) (.badRequest "LDAP provider_id is required")
  let _ ← entries.foldlM checkLdapEntry []
  let existing := listScimUsers s realmId
  preflightDirectoryOwnership existing
  forM entries (checkUnowned existing)
  return existing

def ownedByDn (providerId : String) : HashMap ScimUser :=
  ((existing.filter fun user => user.directoryProviderId == some providerId).filterMap
    fun user => user.externalId.map fun dn => (dn, user)).foldl
      (fun owned p => owned.insert p.1 p.2) ∅

def intoValues (owned : HashMap ScimUser) : List ScimUser :=
  (owned.pairs.insertionSort fun a b => a.1 ≤ b.1).map Prod.snd

/-- `owned` are the owned users that the sync has not met yet. -/
structure LdapProgress where
  store : Store
  owned : HashMap ScimUser
  result : LdapSyncResult

variable (persist : ScimUser → Persist) (freshId : LdapDirectoryEntry → String)
  (realmId providerId : String)

def syncLdapEntry (syncedAt : Nat) (p : LdapProgress) (entry : LdapDirectoryEntry) :
    QidResult Unit × LdapProgress :=
  let owned := p.owned.erase entry.dn
  match p.owned.lookup entry.dn with
  | some before =>
    let user := applyLdapEntry before providerId entry syncedAt
    if scimUserSemanticEq before user then
      let ids := p.result.unchangedUserIds ++ [user.id]
      (.ok (), { p with owned := owned, result := { p.result with unchangedUserIds := ids } })
    else
      let r := updateScimUser (persist user) p.store user
      let ids := p.result.updatedUserIds ++ [user.id]
      (r.1, { store := r.2, owned := owned, result := { p.result with updatedUserIds := ids } })
  | none =>
    let user := scimUserFromLdapEntry (freshId entry) realmId providerId entry syncedAt
    let r := createScimUser (persist user) p.store user
    let ids := p.result.createdUserIds ++ [user.id]
    (r.1, { store := r.2, owned := owned, result := { p.result with createdUserIds := ids } })

def deactivateMissingUser (syncedAt : Nat) (p : LdapProgress) (user : ScimUser) :
    QidResult Unit × LdapProgress :=
  if !user.active then (.ok (), p)
  else if isBreakGlassUser user then
    let ids := p.result.breakGlassSkippedUserIds ++ [user.id]
    (.ok (), { p with result := { p.result with breakGlassSkippedUserIds := ids } })
  else
    let user := markDeprovisioned { user with active := false } syncedAt
    let r := updateScimUser (persist user) p.store user
    let ids := p.result.deactivatedUserIds ++ [user.id]
    (r.1, { p with store := r.2, result := { p.result with deactivatedUserIds := ids } })

def deactivateMissing (options : LdapSyncOptions) (p : LdapProgress) :
    QidResult LdapSyncResult × Store :=
  if options.deactivateMissing then
    let ended := forEach (deactivateMissingUser persist options.syncedAt) p (intoValues p.owned)
    (ended.1.map fun _ => ended.2.result, ended.2.store)
  else (.ok p.result, p.store)

def syncLdapEntries (s : Store) (entries : List LdapDirectoryEntry) (options : LdapSyncOptions) :
    QidResult LdapSyncResult × Store :=
  match checkLdapSnapshot s realmId providerId entries with
  | .error e => (.error e, s)
  | .ok existing =>
    let start := { store := s, owned := ownedByDn existing providerId, result := {} }
    let synced := forEach (syncLdapEntry persist freshId realmId providerId options.syncedAt)
      start entries
    match synced.1 with
    | .error e => (.error e, synced.2.store)
    | .ok () => deactivateMissing persist options synced.2

end Qid.Directory
