/-
Deleting a user or a realm.

A translation of `Store::remove_auth_state` (`file/user.rs`), `Store::remove_realm` and the calls
that use them (`file/realm.rs`, `file/user.rs`), with the creation of a continuation
(`file/oidc_continuation.rs`). Realm calls publish a candidate store only when its write succeeds;
`delete_user` changes the store and then saves it. In interval mode a save does not fail.
-/
import Qid.File.Store

namespace Qid.File

open Lib Storage

namespace Store

variable (s : Store) (users : List String) (realm : Option String)

def removedSessions : List String :=
  (s.sessions.values.filter fun session =>
    session.userId ∈ users || realm == some session.realmId).map (·.id)

def removedFamilies : List String :=
  (s.tokenFamilies.values.filter fun family =>
    family.userId ∈ users || realm == some family.realmId ||
      family.sessionId.any (· ∈ s.removedSessions users realm)).map (·.id)

/-- Ownership links are followed before their parents are removed. -/
def removeAuthState : Store :=
  let inRealm (owner : String) : Bool := realm == some owner
  let owned (record : RealmUserRecord) : Bool := record.userId ∈ users || inRealm record.realmId
  let sessions := s.removedSessions users realm
  let families := s.removedFamilies users realm
  let authenticators := KeyMap.filter
    (fun _ row => !(row.authenticator.userId ∈ users) && !inRealm row.authenticator.realmId)
    s.push.authenticators
  let logins := KeyMap.filter (fun _ c => !(c.userId ∈ users) && !inRealm c.realmId) s.push.logins
  { s with
    push :=
      { authenticators := authenticators
        logins := logins
        loginIssuedAt := s.push.loginIssuedAt.retain fun id => id ∈ logins
        registrationIssuedAt := s.push.registrationIssuedAt.retain fun id => id ∈ authenticators }
    authorizationCodes := s.authorizationCodes.retain fun code =>
      !(code.userId ∈ users) && !inRealm code.realmId && !code.sessionId.any (· ∈ sessions)
    accessTokens := s.accessTokens.retain fun token =>
      !(token.userId ∈ users) && !inRealm token.realmId && !token.familyId.any (· ∈ families)
    tokenFamilies := s.tokenFamilies.retain fun family => !(family.id ∈ families)
    sessions := s.sessions.retain fun session => !(session.id ∈ sessions)
    webauthnCredentials := s.webauthnCredentials.retain fun row => !(row.userId ∈ users)
    totpCredentials := s.totpCredentials.retain fun cred => !(cred.userId ∈ users)
    devices := s.devices.retain fun device => !owned device
    deviceAuthorizationGrants := s.deviceAuthorizationGrants.retain fun grant =>
      !grant.userId.any (· ∈ users) && !inRealm grant.realmId
    backchannelAuthenticationGrants := s.backchannelAuthenticationGrants.retain fun grant =>
      !grant.userId.any (· ∈ users) && !inRealm grant.realmId
    users := s.users.retain fun user => !(user.id ∈ users)
    credentialsPassword := s.credentialsPassword.retain fun cred => !(cred.userId ∈ users)
    ciamProfiles := s.ciamProfiles.retain fun profile => !owned profile
    ciamConsentGrants := s.ciamConsentGrants.retain fun grant => !owned grant
    ciamVerificationChallenges := s.ciamVerificationChallenges.retain fun c => !owned c
    ciamIdentityLinks := s.ciamIdentityLinks.retain fun link => !owned link
    passwordResetTokens := s.passwordResetTokens.retain fun token => !owned token }

def usersOf (realm : String) : List String :=
  (s.users.values.filter fun user => user.realmId == realm).map (·.id)

def removeRealm (realm : String) : Store :=
  let elsewhere (record : RealmRecord) : Bool := record.realmId != realm
  -- Replay keys use realm plus separator, not bare prefix.
  let replayPrefix := String.ofList (realm.toList ++ [unitSeparator])
  let s := s.removeAuthState (s.usersOf realm) (some realm)
  { s with
    clients := s.clients.retain fun client => client.realmId != realm
    serviceAccounts := s.serviceAccounts.retain elsewhere
    policyBundles := s.policyBundles.retain elsewhere
    vcCredentialStatuses := s.vcCredentialStatuses.retain elsewhere
    parRequests := s.parRequests.retain elsewhere
    hrReceipts := s.hrReceipts.erase realm
    scimUsers := s.scimUsers.retain fun user => user.realmId != realm
    scimGroups := s.scimGroups.retain fun group => group.realmId != realm
    scimDevices := s.scimDevices.retain elsewhere
    scimEventSubscriptions := s.scimEventSubscriptions.retain elsewhere
    fedcmIdentities := s.fedcmIdentities.retain elsewhere
    workloadIdentities := s.workloadIdentities.retain elsewhere
    workloadCertificates := s.workloadCertificates.retain elsewhere
    customDomains := s.customDomains.retain elsewhere
    ciamBrands := s.ciamBrands.retain elsewhere
    appCatalogEntries := s.appCatalogEntries.retain elsewhere
    ssfStreams := s.ssfStreams.retain elsewhere
    ssfSetReplay := s.ssfSetReplay.retain fun row => !startsWith replayPrefix row.key
    realmIssuers := s.realmIssuers.erase realm
    realmTenants := s.realmTenants.erase realm }

end Store

variable (persist : Persist) (s : Store)

def createRealm (tenant realmId issuer : String) : QidResult Unit × Store :=
  if realmId ∈ s.realmIssuers || realmId ∈ s.realmTenants || issuer ∈ s.realmIssuers.values then
    (.error (.conflict "realm ID or issuer already exists"), s)
  else
    let candidate := s.removeRealm realmId
    match persist.result with
    | .error e => (.error e, s)
    | .ok () =>
      (.ok (),
        { candidate with
          realmIssuers := candidate.realmIssuers.insert realmId issuer
          realmTenants := candidate.realmTenants.insert realmId tenant })

def deleteRealm (id expectedTenant : String) : QidResult Unit × Store :=
  if s.realmTenants.lookup id ≠ some expectedTenant then (.ok (), s)
  else
    match persist.result with
    | .error e => (.error e, s)
    | .ok () => (.ok (), s.removeRealm id)

def deleteUser (id : String) (realm : Option String) : QidResult Unit × Store :=
  if realm.any fun realm => (s.users.find id).all fun u => u.realmId != realm then
    (.error (.notFound ("user " ++ id)), s)
  else (persist.result, s.removeAuthState [id] none)

def invalidContinuation : QidError := .badRequest "invalid OIDC authorization continuation"

def continuationIdentifier (text : String) : Bool :=
  !text.isEmpty && text.utf8ByteSize ≤ 256 &&
    !text.toList.any fun c => isControl c || isWhitespace c

def oidcContinuationContextMaxBytes : Nat := 64 * 1024

def OidcAuthorizationContinuation.validate (c : OidcAuthorizationContinuation) : QidResult Unit :=
  if !([c.id, c.realmId, c.userId, c.clientId].all continuationIdentifier) ||
      c.createdAt ≥ c.expiresAt || !fitsI64 c.expiresAt ||
      c.contextLength > oidcContinuationContextMaxBytes then
    .error invalidContinuation
  else
    match c.context with
    | some (.object (_ :: _)) => .ok ()
    | _ => .error invalidContinuation

def continuationWritten : Persist → QidResult Unit
  | .unserializable _ => .error (.internal "OIDC continuation serialization failed")
  | persist => persist.result

def createOidcContinuation (record : OidcAuthorizationContinuation) (now : Nat) :
    QidResult Unit × Store :=
  match record.validate with
  | .error e => (.error e, s)
  | .ok () =>
    if record.createdAt ≠ now then (.error invalidContinuation, s)
    else if (s.oidcContinuations.find record.id).isSome then
      (.error (.conflict "OIDC continuation ID already exists"), s)
    else
      match continuationWritten persist with
      | .error e => (.error e, s)
      | .ok () =>
        (.ok (),
          { s with
            oidcContinuations := s.oidcContinuations.put { record := record, consumed := false } })

def recordSsfSetJti (row : SsfSetReplay) (now : Nat) : QidResult Bool × Store :=
  let live := s.ssfSetReplay.retain fun r => r.expiresAt > now
  if (live.find row.key).isSome then (.ok false, { s with ssfSetReplay := live })
  else
    (persist.result.map fun _ => true,
      { s with
        ssfSetReplay := live.put { row with expiresAt := min row.expiresAt (2 ^ 63 - 1) } })

end Qid.File
