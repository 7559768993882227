/-
Exchanging an authorization code.

A translation of `authorization_code_grant` of `qid-oauth/src/endpoints/token_grant.rs` and of
`verify_code_verifier` of `qid-core/src/pkce.rs`.
-/
import Qid.OAuth.Target

namespace Qid.OAuth

open Lib Lib.Handler Models

structure CodeRun where
  code : Option String
  redirectUri : Option String
  codeVerifier : Option String
  client : Client
  cnf : Option Json.Value
  run : Run

section

variable (st : SharedState)

/-- Only `S256` is accepted. -/
def verifyCodeVerifier (codeChallenge codeChallengeMethod : Option String) (verifier : String) :
    Bool :=
  match codeChallenge with
  | none => true
  | some challenge =>
    codeChallengeMethod.getD "plain" == "S256" && st.sha256Base64url verifier == challenge

variable (q : CodeRun)

def presentedCode : QidResult (String × String) := do
  let code ← okOr q.code (.badRequest "code required")
  let redirectUri ← okOr q.redirectUri (.badRequest "redirect_uri required")
  return (code, redirectUri)

def checkAuthorizationCode (redirectUri : String) (found : Option AuthorizationCode) :
    QidResult AuthorizationCode := do
  let code ← okOr found (.unauthorized "invalid code")
  ensure (code.used = false ∧ q.run.now < code.expiresAt ∧ code.redirectUri = redirectUri ∧
      code.clientId = q.client.clientId ∧ code.realmId = q.client.realmId)
    (.unauthorized "invalid code")
  ensure (verifyCodeVerifier st code.codeChallenge code.codeChallengeMethod
      (q.codeVerifier.getD "") = true)
    (.unauthorized "invalid code_verifier")
  return code

def codeClaims (code : String) (authCode : AuthorizationCode) (audiences : List String) :
    TokenIssueClaims :=
  { audience := some audiences
    resource := some authCode.resource
    authorizationDetails := authCode.authorizationDetails
    cnf := q.cnf
    authTime := authCode.authTime
    acr := authCode.acr
    amr := some authCode.amr
    nonce := authCode.nonce
    authorizationCode := some code
    sessionId := authCode.sessionId }

def codeIdClaims (code : String) (authCode : AuthorizationCode) (accessToken : String) :
    TokenIssueClaims :=
  { resource := some authCode.resource
    authorizationDetails := authCode.authorizationDetails
    cnf := q.cnf
    authTime := authCode.authTime
    acr := authCode.acr
    amr := some authCode.amr
    nonce := authCode.nonce
    authorizationCode := some code
    accessToken := some accessToken }

def sectorIdentifierForClient (client : Client) : String :=
  ((client.sectorIdentifierUri.bind st.urlHost).or (client.redirectUris.head?.bind st.urlHost)).getD
    client.clientId

def pairwiseSub (user : Models.User) (issuer : String) : Option String :=
  if q.client.subjectType = some "pairwise" then
    some (st.computePairwiseSub user.id (sectorIdentifierForClient st q.client) issuer)
  else none

end

variable (st : SharedState) (q : CodeRun)

def issueForCode (code : String) (authCode : AuthorizationCode) : Grant TokenResponse := do
  let found ← getUserById authCode.userId
  let user ← check (okOr found (.notFound "user"))
  check (ensure (user.realmId = authCode.realmId)
    (.unauthorized "authorization code user realm mismatch"))
  let realm ← check (okOr (st.realmConfig authCode.realmId)
    (.notFound ("realm " ++ authCode.realmId)))
  let audiences ← check (resolveTokenAudience realm [] authCode.resource authCode.scopes q.cnf)
  let pair ← issueTokenPair st q.run user authCode.clientId authCode.realmId authCode.scopes
    (codeClaims q code authCode audiences) realm.issuer
  let idToken ← check (issueIdToken st q.run.idSignedAt q.run.idJti realm.issuer user
    authCode.clientId authCode.realmId authCode.scopes
    (codeIdClaims q code authCode pair.accessToken) (pairwiseSub st q user realm.issuer))
  return { accessToken := pair.accessToken
           tokenType := accessTokenTypeForCnf q.cnf
           expiresIn := pair.expiresIn
           refreshToken := some pair.refreshToken
           idToken := some idToken
           scope := some (" ".intercalate authCode.scopes)
           issuedTokenType := none }

def authorizationCodeGrant : Grant TokenResponse := do
  let (code, redirectUri) ← check (presentedCode q)
  let found ← getAuthorizationCode (st.sha256Base64url code)
  let authCode ← check (checkAuthorizationCode st q redirectUri found)
  markAuthorizationCodeUsed authCode
  issueForCode st q code authCode

def Call.ofCodeGrant : Call → Bool
  | .getAuthorizationCode _ | .markAuthorizationCodeUsed _ => true
  | c => c.issues

theorem Call.ofCodeGrant_of_issues {c : Call} (h : c.issues = true) : c.ofCodeGrant = true := by
  cases c with
  | getAuthorizationCode codeHash | markAuthorizationCodeUsed code => rfl
  | _ => exact h

theorem makes_issueForCode (code : String) (authCode : AuthorizationCode) :
    Program.Makes (fun c => c.issues = true) (issueForCode st q code authCode) := by
  refine makes_call_bind rfl fun found => ?_
  repeat refine makes_check_bind fun _ => ?_
  refine makes_bind makes_issueTokenPair fun pair => ?_
  exact makes_check_bind fun idToken => trivial

theorem makes_authorizationCodeGrant :
    Program.Makes (fun c => c.ofCodeGrant = true) (authorizationCodeGrant st q) := by
  refine makes_check_bind fun presented => ?_
  refine makes_call_bind rfl fun found => ?_
  refine makes_check_bind fun authCode => ?_
  refine makes_call_bind rfl fun _ => ?_
  exact (makes_issueForCode st q _ authCode).mono fun _ => Call.ofCodeGrant_of_issues

end Qid.OAuth
