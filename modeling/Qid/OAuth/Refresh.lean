/-
Redeeming a refresh token.

A translation of `refresh_token_grant` of `qid-oauth/src/endpoints/token_grant.rs`. The grant
decides from a copy of the family, and then rotates the refresh token with a compare-and-swap. A
token that is not the current one is taken for stolen, and the family is revoked.
-/
import Qid.OAuth.Issue

namespace Qid.OAuth

open Lib Lib.Handler Models Dpop

structure RefreshRun where
  refreshToken : Option String
  scope : Option String
  /-- The authenticated client. -/
  client : Client
  cnf : Option Json.Value
  run : Run

structure Presented where
  jti : String
  familyId : String
  deriving DecidableEq

def strField (key : String) (value : Option Json.Value) : Option String :=
  (value.bind fun v => v.get key).bind fun v => v.asStr

section

variable (st : SharedState) (q : RefreshRun)

def presentedToken : QidResult Presented := do
  let token ← okOr q.refreshToken (.badRequest "refresh_token required")
  let claims ← (st.signer.decodeSignatureOnly q.run.decodedAt token).mapError fun e =>
    .crypto ("failed to decode refresh token: " ++ e)
  let aud ← okOr (claims.aud.bind Audience.primary)
    (.unauthorized "refresh token missing aud claim")
  ensure (aud = q.client.clientId)
    (.unauthorized "refresh token was not issued to authenticated client")
  let jti ← okOr claims.jti (.crypto "refresh token missing jti")
  let familyId ← okOr ((claims.extra.lookup "family_id").bind fun v => v.asStr)
    (.badRequest "refresh token missing family_id")
  return { jti := jti, familyId := familyId }

variable (family : TokenFamily)

/-- A family without one has the deadline that its first rotation stores. -/
def refreshDeadline : Nat :=
  family.refreshExpiresAt.getD
    (saturatingAdd family.issuedAt (st.tokenTtl family.realmId).refreshTokenTtlSeconds)

def TokenFamily.OwnedBy (client : Client) : Prop :=
  family.clientId = client.clientId ∧ family.realmId = client.realmId

instance (family : TokenFamily) (client : Client) : Decidable (family.OwnedBy client) :=
  inferInstanceAs (Decidable (_ ∧ _))

def checkFamily (found : Option TokenFamily) : QidResult TokenFamily := do
  let family ← okOr found (.unauthorized "invalid refresh token")
  ensure (family.OwnedBy q.client)
    (.unauthorized "refresh token was not issued to authenticated client")
  ensure (family.revoked = false) (.unauthorized "refresh token family revoked")
  ensure (q.run.now < refreshDeadline st family) (.unauthorized "refresh token family expired")
  return family

def sessionLive (session : Option Session) : Bool :=
  session.any fun s => s.realmId == family.realmId && s.isActive q.run.now

def checkSession : Grant Unit :=
  match family.sessionId with
  | none => pure ()
  | some id => do
    let session ← getSession id
    check (ensure (sessionLive q family session = true)
      (.unauthorized "refresh token family session ended"))

def refreshScopes : QidResult (List String) := do
  ensure (family.scopes ≠ []) (.unauthorized "refresh token scope is not established")
  match q.scope with
  | none => return family.scopes
  | some requested =>
    let narrowed := splitWhitespace requested
    forM narrowed fun scope =>
      ensure (scope ∈ family.scopes)
        (.badRequest ("requested scope " ++ scope ++ " exceeds granted scope"))
    return narrowed

/-- A family bound to a certificate is redeemed with that certificate. -/
def checkMtlsBinding : QidResult Unit :=
  let matching := (strField "x5t#S256" q.cnf).any fun x5t =>
    (strField "x5t#S256" family.senderConstraint).any fun orig => x5t == orig
  ensure ((family.senderConstraint.bind fun v => v.get "x5t#S256").isSome → matching = true)
    (.unauthorized "mTLS certificate binding required for refresh token")

/-- A public client redeems a family bound to a key with that key. -/
def checkDpopBinding : Grant Unit :=
  match strField "jkt" family.senderConstraint with
  | none => pure ()
  | some expected => do
    let found ← getClientByClientId family.realmId family.clientId
    let client ← check (okOr found (.unauthorized "unknown client"))
    let presented := (strField "jkt" q.cnf).getD ""
    check (ensure
      (client.clientType = .isPublic → presented ≠ "" ∧ expected = presented)
      (.unauthorized "DPoP binding required for refresh token"))

end

def revokeReusedFamily {α : Type} (family : TokenFamily) : Grant α := do
  let _ ← revokeTokenFamily family.id family.realmId
  check (.error (.unauthorized "invalid refresh token"))

variable (st : SharedState) (q : RefreshRun)

def rotationOf (p : Presented) (family : TokenFamily) : Token.Rotation :=
  { id := family.id
    realmId := q.client.realmId
    expectedRefreshHash := st.sha256Base64url p.jti
    refreshHash := st.sha256Base64url q.run.refreshJti
    refreshExpiresAt := refreshDeadline st family }

def rotateRefreshToken (p : Presented) (family : TokenFamily) : Grant Unit := do
  let result ← updateTokenFamilyRefreshHash (rotationOf st q p family)
  match result with
  | .ok () => pure ()
  | .error (.notFound _) => check (.error (.unauthorized "invalid refresh token"))
  | .error (.conflict _) => revokeReusedFamily family
  | .error e => check (.error e)

variable (family : TokenFamily)

def refreshCnf : Option Json.Value := q.cnf.or family.senderConstraint

def familyAudience : List String :=
  if family.audience.isEmpty then [family.clientId] else family.audience

def refreshedAccessToken (scopes : List String) : AccessToken :=
  { jti := q.run.accessJti
    familyId := some family.id
    userId := family.userId
    clientId := family.clientId
    realmId := family.realmId
    scopes := scopes
    audience := familyAudience family
    resource := family.resource
    authorizationDetails := family.authorizationDetails
    cnf := refreshCnf q family
    authTime := family.authTime
    acr := family.acr
    amr := family.amr
    nonce := none
    senderConstraint := refreshCnf q family
    tokenFormat := (st.tokenTtl family.realmId).accessTokenFormat
    expiresAt := min (saturatingAdd q.run.now (st.tokenTtl family.realmId).accessTokenTtlSeconds)
      (refreshDeadline st family)
    revoked := false
    issuedAt := q.run.now }

def refreshedClaims : TokenIssueClaims :=
  { audience := some (familyAudience family)
    resource := some family.resource
    authorizationDetails := family.authorizationDetails
    cnf := refreshCnf q family
    authTime := family.authTime
    acr := family.acr
    amr := some family.amr
    accessExpiresAt := some (refreshDeadline st family) }

def refreshResponse (issuer : String) (user : Models.User) (scopes : List String) :
    QidResult TokenResponse := do
  let access ← formatAccessToken st q.run.accessSignedAt issuer q.run.accessJti user
    family.clientId family.realmId scopes (refreshedClaims st q family)
  let refresh ← signRefreshToken st q.run.refreshSignedAt issuer q.run.refreshJti user
    family.clientId family.realmId (some family.id) (refreshDeadline st family)
  return { accessToken := access
           tokenType := accessTokenTypeForCnf (refreshCnf q family)
           expiresIn := min (refreshDeadline st family - q.run.now)
             (st.tokenTtl family.realmId).accessTokenTtlSeconds
           refreshToken := some refresh
           idToken := none
           scope := some (" ".intercalate scopes)
           issuedTokenType := none }

def redeemRefreshToken (p : Presented) (family : TokenFamily) : Grant TokenResponse := do
  let found ← getUserById family.userId
  let user ← check (okOr found (.notFound "user"))
  check (ensure (user.realmId = family.realmId) (.unauthorized "refresh token user realm mismatch"))
  let realm ← check (st.requireRealm family.realmId)
  let scopes ← check (refreshScopes q family)
  check (checkMtlsBinding q family)
  checkDpopBinding q family
  rotateRefreshToken st q p family
  createAccessToken (refreshedAccessToken st q family scopes)
  check (refreshResponse st q family realm.issuer user scopes)

def refreshTokenGrant : Grant TokenResponse := do
  let p ← check (presentedToken st q)
  let found ← getTokenFamily p.familyId
  let family ← check (checkFamily st q found)
  checkSession q family
  if family.currentRefreshHash ≠ st.sha256Base64url p.jti then revokeReusedFamily family
  else redeemRefreshToken st q p family

def Call.ofRefreshGrant : Call → Bool
  | .getTokenFamily _ | .getSession _ | .getUserById _ | .getClientByClientId _ _
  | .updateTokenFamilyRefreshHash _ | .revokeTokenFamily _ _ | .createAccessToken _ => true
  | _ => false

theorem makes_revokeReusedFamily {α : Type} (family : TokenFamily) :
    Program.Makes (fun c => c.ofRefreshGrant = true) (revokeReusedFamily family : Grant α) := by
  exact makes_call_bind rfl fun _ => trivial

theorem makes_checkSession :
    Program.Makes (fun c => c.ofRefreshGrant = true) (checkSession q family) := by
  rw [checkSession]
  cases family.sessionId with
  | none => exact trivial
  | some => exact makes_call_bind rfl fun _ => trivial

theorem makes_checkDpopBinding :
    Program.Makes (fun c => c.ofRefreshGrant = true) (checkDpopBinding q family) := by
  rw [checkDpopBinding]
  cases strField "jkt" family.senderConstraint with
  | none => exact trivial
  | some =>
    refine makes_call_bind rfl fun found => ?_
    exact makes_check_bind fun client => trivial

theorem makes_rotateRefreshToken (p : Presented) (family : TokenFamily) :
    Program.Makes (fun c => c.ofRefreshGrant = true) (rotateRefreshToken st q p family) := by
  refine makes_call_bind rfl fun result => ?_
  cases result with
  | ok => exact trivial
  | error e =>
    cases e with
    | conflict => exact makes_revokeReusedFamily family
    | _ => exact trivial

theorem makes_redeemRefreshToken (p : Presented) (family : TokenFamily) :
    Program.Makes (fun c => c.ofRefreshGrant = true) (redeemRefreshToken st q p family) := by
  refine makes_call_bind rfl fun found => ?_
  repeat refine makes_check_bind fun _ => ?_
  refine makes_bind (makes_checkDpopBinding q family) fun _ => ?_
  refine makes_bind (makes_rotateRefreshToken st q p family) fun _ => ?_
  exact makes_call_bind rfl fun _ => trivial

theorem makes_refreshTokenGrant :
    Program.Makes (fun c => c.ofRefreshGrant = true) (refreshTokenGrant st q) := by
  refine makes_check_bind fun p => ?_
  refine makes_call_bind rfl fun found => ?_
  refine makes_check_bind fun family => ?_
  refine makes_bind (makes_checkSession q family) fun _ => ?_
  split
  · exact makes_revokeReusedFamily family
  · exact makes_redeemRefreshToken st q p family

end Qid.OAuth
