/-
The store of the file repository.

`qid-storage/src/file/mod.rs` keeps all live records in one `Store`, a map for each kind of record.
Of a record that only its ownership is read of, the key and the owners are kept. Collections that no
realm and no user owns (administrators, tenants, governance, relationships, audit) are left out.
-/
import Qid.Lib.Identity
import Qid.Push.Store
import Qid.Scim.Record
import Qid.Session.Store

namespace Qid.File

open Lib Models Storage Scim

structure RealmRecord where
  id : String
  realmId : String
  deriving DecidableEq

structure RealmUserRecord where
  id : String
  realmId : String
  userId : String
  deriving DecidableEq

structure WebAuthnCredentials where
  userId : String
  credentials : List String
  deriving DecidableEq

structure BackchannelAuthenticationGrant where
  authReqIdHash : String
  realmId : String
  userId : Option String
  deriving DecidableEq

/-- `context` is what the JSON text of its context reads as. -/
structure OidcAuthorizationContinuation where
  id : String
  realmId : String
  userId : String
  clientId : String
  context : Option Json.Value
  contextLength : Nat
  browserBindingSha256 : String
  createdAt : Nat
  expiresAt : Nat

structure StoredContinuation where
  record : OidcAuthorizationContinuation
  consumed : Bool

structure SsfSetReplay where
  realmId : String
  issuer : String
  streamId : String
  jti : String
  expiresAt : Nat
  deriving DecidableEq

/-- U+001F. -/
def unitSeparator : Char := '\x1f'

def ssfSetReplayKey (realmId issuer streamId jti : String) : String :=
  String.ofList (realmId.toList ++ unitSeparator :: issuer.toList ++
    unitSeparator :: streamId.toList ++ unitSeparator :: jti.toList)

def SsfSetReplay.key (r : SsfSetReplay) : String :=
  ssfSetReplayKey r.realmId r.issuer r.streamId r.jti

structure HrSummary where
  created : Nat
  updated : Nat
  deprovisioned : Nat
  deriving DecidableEq

structure HrReceipt where
  sequence : Nat
  digest : String
  summary : HrSummary
  deriving DecidableEq

structure Store where
  oidcContinuations : Table StoredContinuation (·.record.id) := .empty
  push : Push.PushStore := .empty
  realmIssuers : HashMap String := ∅
  realmTenants : HashMap String := ∅
  users : Table Models.User (·.id) := .empty
  credentialsPassword : Table Session.PasswordCredential (·.userId) := .empty
  clients : Table Client (·.id) := .empty
  sessions : Table Session.LoginSession (·.id) := .empty
  authorizationCodes : Table OAuth.AuthorizationCode (·.codeHash) := .empty
  tokenFamilies : Table OAuth.TokenFamily (·.id) := .empty
  accessTokens : Table OAuth.AccessToken (·.jti) := .empty
  webauthnCredentials : Table WebAuthnCredentials (·.userId) := .empty
  serviceAccounts : Table RealmRecord (·.id) := .empty
  policyBundles : Table RealmRecord (·.id) := .empty
  totpCredentials : Table Session.TotpCredential (·.id) := .empty
  vcCredentialStatuses : Table RealmRecord (·.id) := .empty
  devices : Table RealmUserRecord (·.id) := .empty
  parRequests : Table RealmRecord (·.id) := .empty
  deviceAuthorizationGrants : Table OAuth.DeviceAuthorizationGrant (·.deviceCodeHash) := .empty
  backchannelAuthenticationGrants : Table BackchannelAuthenticationGrant (·.authReqIdHash) := .empty
  scimUsers : Table ScimUser (·.id) := .empty
  hrReceipts : HashMap (HashMap HrReceipt) := ∅
  scimGroups : Table ScimGroup (·.id) := .empty
  scimDevices : Table RealmRecord (·.id) := .empty
  scimEventSubscriptions : Table RealmRecord (·.id) := .empty
  fedcmIdentities : Table RealmRecord (·.id) := .empty
  ciamConsentGrants : Table RealmUserRecord (·.id) := .empty
  ciamVerificationChallenges : Table RealmUserRecord (·.id) := .empty
  ciamIdentityLinks : Table RealmUserRecord (·.id) := .empty
  passwordResetTokens : Table RealmUserRecord (·.id) := .empty
  ciamProfiles : Table RealmUserRecord (·.id) := .empty
  workloadIdentities : Table RealmRecord (·.id) := .empty
  workloadCertificates : Table RealmRecord (·.id) := .empty
  customDomains : Table RealmRecord (·.id) := .empty
  ciamBrands : Table RealmRecord (·.id) := .empty
  appCatalogEntries : Table RealmRecord (·.id) := .empty
  ssfStreams : Table RealmRecord (·.id) := .empty
  ssfSetReplay : Table SsfSetReplay SsfSetReplay.key := .empty

end Qid.File
