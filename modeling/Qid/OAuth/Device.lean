/-
The device flow.

A translation of `approve_device_authorization` and `device_code_grant` of
`qid-oauth/src/endpoints/device_flow.rs`.
-/
import Qid.OAuth.Target

namespace Qid.OAuth

open Lib Lib.Handler Models Dpop

/-- `now` is when the session is checked. -/
structure ApproveRun where
  userCode : String
  /-- The `Cookie` header. -/
  cookie : Option String
  now : Nat
  approvedAt : Nat
  deriving DecidableEq

def splitOnce (c : Char) (s : String) : Option (String × String) :=
  match s.toList.span (· != c) with
  | (key, _ :: value) => some (String.ofList key, String.ofList value)
  | (_, []) => none

def extractCookie (header : Option String) (name : String) : Option String :=
  header.bind fun cookies =>
    (cookies.toList.splitOn ';').findSome? fun pair =>
      (splitOnce '=' (trim (String.ofList pair))).bind fun (key, value) =>
        if trim key = name then some (trim value) else none

section

variable (st : SharedState) (q : ApproveRun) (grant : DeviceAuthorizationGrant)

def approvalSessionId : QidResult String := do
  let realm ← okOr (st.realm grant.realmId) (.config ("realm " ++ grant.realmId ++ " not found"))
  okOr (extractCookie q.cookie realm.cookieName)
    (.unauthorized "authentication required: missing session cookie")

def checkApprovalSession (found : Option Session) : QidResult Session := do
  let session ← okOr found (.unauthorized "invalid or expired session")
  ensure (session.isActive q.now = true) (.unauthorized "session is no longer active")
  return session

def checkApprover (found : Option Models.User) : QidResult Unit := do
  let user ← okOr found (.notFound "user")
  ensure (user.realmId = grant.realmId) (.unauthorized
    "approval subject does not belong to the same realm as the device authorization grant")

def approveDeviceAuthorization : Grant Unit := do
  let found ← getDeviceAuthorizationGrantByUserCode q.userCode
  let grant ← check (okOr found (.notFound "device authorization grant"))
  let sessionId ← check (approvalSessionId st q grant)
  let found ← getSession sessionId
  let session ← check (checkApprovalSession q found)
  let found ← getUserById session.userId
  check (checkApprover grant found)
  approveDeviceAuthorizationGrant q.userCode session.userId q.approvedAt

def Call.ofApproval : Call → Bool
  | .getDeviceAuthorizationGrantByUserCode _ | .getSession _ | .getUserById _
  | .approveDeviceAuthorizationGrant _ _ _ => true
  | _ => false

theorem makes_approveDeviceAuthorization :
    Program.Makes (fun c => c.ofApproval = true) (approveDeviceAuthorization st q) := by
  refine makes_call_bind rfl fun found => ?_
  repeat refine makes_check_bind fun _ => ?_
  refine makes_call_bind rfl fun found => ?_
  refine makes_check_bind fun session => ?_
  refine makes_call_bind rfl fun found => ?_
  refine makes_check_bind fun _ => ?_
  exact ⟨rfl, fun _ => trivial⟩

end

structure DeviceRun where
  deviceCode : Option String
  clientId : Option String
  target : TargetRequest
  cnf : Option Json.Value
  run : Run

def maxPollIntervalSeconds : Nat := 60

variable (st : SharedState) (q : DeviceRun) (grant : DeviceAuthorizationGrant)

def polledEarly (now : Nat) : Bool :=
  grant.lastPollAt.any fun last => now < saturatingAdd last grant.pollIntervalSeconds

def nextPollInterval (now : Nat) : Nat :=
  if polledEarly grant now then
    min (saturatingAdd grant.pollIntervalSeconds 5) maxPollIntervalSeconds
  else grant.pollIntervalSeconds

variable (deviceCodeHash : String)

def enforceDevicePollInterval (grant : DeviceAuthorizationGrant) (now : Nat) : Grant Unit := do
  recordDeviceAuthorizationPoll deviceCodeHash now (nextPollInterval grant now)
  check (ensure (polledEarly grant now = false) (.unauthorized "slow_down"))

def checkDeviceGrant (found : Option DeviceAuthorizationGrant) :
    QidResult DeviceAuthorizationGrant := do
  let grant ← okOr found (.unauthorized "invalid device_code")
  ensure (q.run.now < grant.expiresAt) (.unauthorized "expired_token")
  ensure (grant.consumed = false) (.unauthorized "invalid device_code")
  ensure (q.clientId = some grant.clientId) (.unauthorized "client_id does not match device_code")
  return grant

def approvedUser (grant : DeviceAuthorizationGrant) : Grant String :=
  match grant.userId with
  | some userId => pure userId
  | none => do
    enforceDevicePollInterval deviceCodeHash grant q.run.now
    check (.error (.unauthorized "authorization_pending"))

/-- The issuer and the scopes of the tokens, after the checks that follow the lookup of the user. -/
def checkDeviceTarget (user : Models.User) : QidResult (String × List String) := do
  ensure (user.realmId = grant.realmId)
    (.unauthorized "user realm does not match device authorization grant realm")
  let realm ← st.requireRealm grant.realmId
  ensure ((st.realmConfig grant.realmId).any fun r => r.deviceAuthorizationEnabled)
    (.badRequest "device authorization is disabled")
  let realmConfig ← okOr (st.realmConfig grant.realmId)
    (.config ("realm " ++ grant.realmId ++ " not found for OAuth client"))
  let scopes ← validateGrantTarget realmConfig q.target grant.clientId grant.resource
    grant.audience grant.scopes q.cnf
  return (realm.issuer, scopes)

def deviceClaims : TokenIssueClaims :=
  { audience := some grant.audience
    resource := some grant.resource
    cnf := q.cnf
    authTime := some q.run.now }

def issueForDevice (grant : DeviceAuthorizationGrant) (user : Models.User) :
    Grant TokenResponse := do
  let (issuer, scopes) ← check (checkDeviceTarget st q grant user)
  consumeDeviceAuthorizationGrant deviceCodeHash
  let pair ← issueTokenPair st q.run user grant.clientId grant.realmId scopes
    (deviceClaims q grant) issuer
  return { accessToken := pair.accessToken
           tokenType := accessTokenTypeForCnf q.cnf
           expiresIn := pair.expiresIn
           refreshToken := some pair.refreshToken
           idToken := none
           scope := some (" ".intercalate scopes)
           issuedTokenType := none }

def deviceCodeGrant : Grant TokenResponse := do
  let deviceCode ← check (okOr q.deviceCode (.badRequest "device_code required"))
  let deviceCodeHash := st.sha256Base64url deviceCode
  let found ← getDeviceAuthorizationGrant deviceCodeHash
  let grant ← check (checkDeviceGrant q found)
  let userId ← approvedUser q deviceCodeHash grant
  let found ← getUserById userId
  let user ← check (okOr found (.notFound "user"))
  issueForDevice st q deviceCodeHash grant user

def Call.ofDeviceGrant : Call → Bool
  | .getDeviceAuthorizationGrant _ | .recordDeviceAuthorizationPoll _ _ _
  | .consumeDeviceAuthorizationGrant _ => true
  | c => c.issues

theorem Call.ofDeviceGrant_of_issues {c : Call} (h : c.issues = true) : c.ofDeviceGrant = true := by
  cases c with
  | getDeviceAuthorizationGrant
  | recordDeviceAuthorizationPoll | consumeDeviceAuthorizationGrant deviceCodeHash => rfl
  | _ => exact h

theorem makes_approvedUser (grant : DeviceAuthorizationGrant) :
    Program.Makes (fun c => c.ofDeviceGrant = true) (approvedUser q deviceCodeHash grant) := by
  rw [approvedUser]
  cases grant.userId with
  | some => exact trivial
  | none =>
    refine makes_bind ?_ fun _ => trivial
    exact makes_call_bind rfl fun _ => trivial

theorem makes_issueForDevice (grant : DeviceAuthorizationGrant) (user : Models.User) :
    Program.Makes (fun c => c.ofDeviceGrant = true)
      (issueForDevice st q deviceCodeHash grant user) := by
  refine makes_check_bind fun target => ?_
  refine makes_call_bind rfl fun _ => ?_
  exact makes_bind (makes_issueTokenPair.mono fun _ => Call.ofDeviceGrant_of_issues)
    fun pair => trivial

theorem makes_deviceCodeGrant :
    Program.Makes (fun c => c.ofDeviceGrant = true) (deviceCodeGrant st q) := by
  refine makes_check_bind fun deviceCode => ?_
  refine makes_call_bind rfl fun found => ?_
  refine makes_check_bind fun grant => ?_
  refine makes_bind (makes_approvedUser q _ grant) fun userId => ?_
  refine makes_call_bind rfl fun found => ?_
  exact makes_check_bind fun user => makes_issueForDevice st q _ grant user

end Qid.OAuth
