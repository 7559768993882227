/-
Issuing tokens.

A translation of `qid-oauth/src/endpoints/token_issue.rs`. The signer, SHA-256 and URL parsing are
fields of `SharedState`. The clock stays far below `2 ^ 64`, so the sums with it that the source
does not saturate are exact.
-/
import Qid.Dpop.State
import Qid.OAuth.Store

namespace Qid.OAuth

open Lib Models Dpop

structure TokenTtlConfig where
  accessTokenTtlSeconds : Nat
  refreshTokenTtlSeconds : Nat
  idTokenTtlSeconds : Nat
  accessTokenFormat : TokenFormat
  deriving DecidableEq

def TokenTtlConfig.default : TokenTtlConfig :=
  { accessTokenTtlSeconds := 3600
    refreshTokenTtlSeconds := 86400
    idTokenTtlSeconds := 3600
    accessTokenFormat := .jwt }

structure RuntimeRealm where
  id : String
  issuer : String
  tokenTtl : TokenTtlConfig
  /-- `browser_session.cookie_name`. -/
  cookieName : String
  deriving DecidableEq

structure OAuthResourceServerConfig where
  audience : String
  resources : List String
  scopes : List String
  requireSenderConstraint : Bool
  highRisk : Bool
  deriving DecidableEq

structure RealmConfig where
  id : String
  issuer : String
  resourceServers : List OAuthResourceServerConfig
  deviceAuthorizationEnabled : Bool
  deriving DecidableEq

inductive Audience where
  | single (value : String)
  | multiple (values : List String)
  deriving DecidableEq

namespace Audience

def fromValues : List String → Option Audience
  | [] => none
  | [value] => some (.single value)
  | values => some (.multiple values)

def primary : Audience → Option String
  | single value => some value
  | multiple values => values.head?

end Audience

structure JwtClaims where
  iss : Option String
  sub : Option String
  aud : Option Audience
  exp : Option Nat
  nbf : Option Nat
  iat : Option Nat
  jti : Option String
  extra : HashMap Json.Value

/-- `decodeSignatureOnly` refuses a token that has expired at the time it is given. -/
structure Signer where
  sign : JwtClaims → Except String String
  signWithTyp : JwtClaims → String → Except String String
  decodeSignatureOnly : Nat → String → Except String JwtClaims

structure SharedState where
  /-- The realms of `plan`. -/
  plan : List RuntimeRealm
  /-- The realms of `config`. -/
  config : List RealmConfig
  signer : Signer
  sha256Base64url : String → String
  leftMost128HashBase64url : String → String
  computePairwiseSub : String → String → String → String
  /-- The host of a text that is a URL. -/
  urlHost : String → Option String

namespace SharedState

variable (st : SharedState)

def realm (id : String) : Option RuntimeRealm := st.plan.find? fun r => r.id = id

def requireRealm (id : String) : QidResult RuntimeRealm :=
  okOr (st.realm id) (.notFound ("realm " ++ id))

def realmConfig (id : String) : Option RealmConfig := st.config.find? fun r => r.id = id

def tokenTtl (realmId : String) : TokenTtlConfig :=
  ((st.realm realmId).map fun r => r.tokenTtl).getD TokenTtlConfig.default

end SharedState

structure Run where
  /-- When the signature of a presented token is checked. -/
  decodedAt : Nat
  now : Nat
  /-- The reading of `issue_token_pair`. -/
  issuedAt : Nat
  accessSignedAt : Nat
  refreshSignedAt : Nat
  idSignedAt : Nat
  accessUlid : String
  refreshUlid : String
  familyUlid : String
  idUlid : String
  deriving DecidableEq

def generateJti (ulid : String) : String := "oat_" ++ ulid

variable (run : Run)

def Run.accessJti : String := generateJti run.accessUlid
def Run.refreshJti : String := generateJti run.refreshUlid
def Run.familyId : String := generateJti run.familyUlid
def Run.idJti : String := generateJti run.idUlid

structure TokenIssueClaims where
  audience : Option (List String) := none
  resource : Option (List String) := none
  authorizationDetails : Option Json.Value := none
  cnf : Option Json.Value := none
  authTime : Option Nat := none
  acr : Option String := none
  amr : Option (List String) := none
  nonce : Option String := none
  act : Option Json.Value := none
  authorizationCode : Option String := none
  accessToken : Option String := none
  /-- An upper bound for the expiry of the access token. -/
  accessExpiresAt : Option Nat := none
  sessionId : Option String := none

def nonEmpty (value : Option (List String)) : Option (List String) :=
  value.filter fun v => !v.isEmpty

namespace TokenIssueClaims

variable (claims : TokenIssueClaims)

def tokenAudience (clientId : String) : List String := (nonEmpty claims.audience).getD [clientId]
def tokenResource : List String := (nonEmpty claims.resource).getD []
def tokenAmr : List String := (nonEmpty claims.amr).getD []

end TokenIssueClaims

def accessTokenTypeForCnf (cnf : Option Json.Value) : String :=
  if (cnf.bind fun value => value.get "jkt").isSome then "DPoP" else "Bearer"

def insertSome {α : Type} (key : String) (value : Option α) (encode : α → Json.Value)
    (extra : HashMap Json.Value) : HashMap Json.Value :=
  match value with
  | some v => extra.insert key (encode v)
  | none => extra

def jsonStrings (values : List String) : Json.Value := .array (values.map .string)

def jsonU64 (n : Nat) : Json.Value := .number (.posInt (UInt64.ofNat n))

def accessTokenExtra (clientId : String) (scopes : List String) (claims : TokenIssueClaims) :
    HashMap Json.Value :=
  let extra : HashMap Json.Value := ∅
  let extra := extra.insert "scope" (.string (" ".intercalate scopes))
  let extra := extra.insert "client_id" (.string clientId)
  let extra := extra.insert "token_type" (.string (accessTokenTypeForCnf claims.cnf))
  let extra := insertSome "authorization_details" claims.authorizationDetails id extra
  let extra := insertSome "resource" (nonEmpty claims.resource) jsonStrings extra
  let extra := insertSome "auth_time" claims.authTime jsonU64 extra
  let extra := insertSome "acr" claims.acr .string extra
  let extra := insertSome "amr" (nonEmpty claims.amr) jsonStrings extra
  let extra := insertSome "nonce" claims.nonce .string extra
  let extra := insertSome "cnf" claims.cnf id extra
  insertSome "act" claims.act id extra

variable (st : SharedState) (now : Nat) (issuer jti : String) (user : Models.User)
  (clientId realmId : String) (scopes : List String) (claims : TokenIssueClaims)

def accessTokenClaims : JwtClaims :=
  { iss := some issuer
    sub := some user.id
    aud := Audience.fromValues (claims.tokenAudience clientId)
    exp := some (min (saturatingAdd now (st.tokenTtl realmId).accessTokenTtlSeconds)
      (claims.accessExpiresAt.getD u64Max))
    nbf := some now
    iat := some now
    jti := some jti
    extra := accessTokenExtra clientId scopes claims }

/-- `what` is in the text of a failure. -/
def signed (what : String) (result : Except String String) : QidResult String :=
  result.mapError fun e => .crypto ("failed to sign " ++ what ++ ": " ++ e)

theorem signed_eq_ok {what token : String} {result : Except String String}
    (h : signed what result = .ok token) : result = .ok token := by
  cases result with
  | error => cases h
  | ok =>
    cases h
    rfl

def signAccessToken : QidResult String :=
  signed "access token" (st.signer.signWithTyp
    (accessTokenClaims st now issuer jti user clientId realmId scopes claims) "at+jwt")

def encodeOpaqueAccessToken (jti : String) : String := "oat_" ++ jti

def formatAccessToken : QidResult String :=
  match (st.tokenTtl realmId).accessTokenFormat with
  | .jwt => signAccessToken st now issuer jti user clientId realmId scopes claims
  | .isOpaque => .ok (encodeOpaqueAccessToken jti)

def refreshTokenClaims (familyId : Option String) (refreshExpiresAt : Nat) : JwtClaims :=
  { iss := some issuer
    sub := some user.id
    aud := some (.single clientId)
    exp := some (min (saturatingAdd now (st.tokenTtl realmId).refreshTokenTtlSeconds)
      refreshExpiresAt)
    nbf := some now
    iat := some now
    jti := some jti
    extra := insertSome "family_id" familyId .string ∅ }

def signRefreshToken (familyId : Option String) (refreshExpiresAt : Nat) : QidResult String :=
  signed "refresh token" (st.signer.sign
    (refreshTokenClaims st now issuer jti user clientId realmId familyId refreshExpiresAt))

def issueIdToken (idJti issuer : String) (user : Models.User) (clientId realmId : String)
    (scopes : List String) (claims : TokenIssueClaims) (subOverride : Option String) :
    QidResult String :=
  let extra : HashMap Json.Value := ∅
  let extra := insertSome "email" (user.email.filter fun _ => scopes.contains "email") .string extra
  let extra := insertSome "nonce" claims.nonce .string extra
  let extra := insertSome "auth_time" claims.authTime jsonU64 extra
  let extra := insertSome "acr" claims.acr .string extra
  let extra := insertSome "amr" (nonEmpty claims.amr) jsonStrings extra
  let extra := insertSome "at_hash" (claims.accessToken.map st.leftMost128HashBase64url) .string
    extra
  let extra := insertSome "c_hash" (claims.authorizationCode.map st.leftMost128HashBase64url)
    .string extra
  signed "id token" (st.signer.sign
    { iss := some issuer
      sub := some (subOverride.getD user.id)
      aud := some (.single clientId)
      exp := some (now + (st.tokenTtl realmId).idTokenTtlSeconds)
      nbf := some now
      iat := some now
      jti := some idJti
      extra := extra })

structure TokenPair where
  accessToken : String
  refreshToken : String
  accessJti : String
  refreshJti : String
  expiresIn : Nat
  deriving DecidableEq

structure TokenResponse where
  accessToken : String
  tokenType : String
  expiresIn : Nat
  refreshToken : Option String
  idToken : Option String
  scope : Option String
  issuedTokenType : Option String
  deriving DecidableEq

variable (run : Run) (user : Models.User) (clientId realmId : String) (scopes : List String)
  (claims : TokenIssueClaims)

def newRefreshExpiresAt : Nat :=
  saturatingAdd run.issuedAt (st.tokenTtl realmId).refreshTokenTtlSeconds

def newAccessExpiresAt : Nat :=
  min (saturatingAdd run.issuedAt (st.tokenTtl realmId).accessTokenTtlSeconds)
    (newRefreshExpiresAt st run realmId)

def newTokenFamily : TokenFamily :=
  { id := run.familyId
    userId := user.id
    clientId := clientId
    realmId := realmId
    currentRefreshHash := st.sha256Base64url run.refreshJti
    scopes := scopes
    authTime := claims.authTime
    acr := claims.acr
    amr := claims.tokenAmr
    audience := claims.tokenAudience clientId
    resource := claims.tokenResource
    authorizationDetails := claims.authorizationDetails
    senderConstraint := claims.cnf
    issuedAt := run.issuedAt
    refreshExpiresAt := some (newRefreshExpiresAt st run realmId)
    sessionId := claims.sessionId
    revoked := false }

def newAccessToken : AccessToken :=
  { jti := run.accessJti
    familyId := some run.familyId
    userId := user.id
    clientId := clientId
    realmId := realmId
    scopes := scopes
    audience := claims.tokenAudience clientId
    resource := claims.tokenResource
    authorizationDetails := claims.authorizationDetails
    cnf := claims.cnf
    authTime := claims.authTime
    acr := claims.acr
    amr := claims.tokenAmr
    nonce := claims.nonce
    senderConstraint := claims.cnf
    tokenFormat := (st.tokenTtl realmId).accessTokenFormat
    expiresAt := newAccessExpiresAt st run realmId
    revoked := false
    issuedAt := run.issuedAt }

def issueTokenPair (issuer : String) : Grant TokenPair := do
  createTokenFamily (newTokenFamily st run user clientId realmId scopes claims)
  createAccessToken (newAccessToken st run user clientId realmId scopes claims)
  let access ← Handler.check (formatAccessToken st run.accessSignedAt issuer run.accessJti user
    clientId realmId scopes
    { claims with accessExpiresAt := some (newRefreshExpiresAt st run realmId) })
  let refresh ← Handler.check (signRefreshToken st run.refreshSignedAt issuer run.refreshJti user
    clientId realmId (some run.familyId) (newRefreshExpiresAt st run realmId))
  return { accessToken := access
           refreshToken := refresh
           accessJti := run.accessJti
           refreshJti := run.refreshJti
           expiresIn := newAccessExpiresAt st run realmId - run.issuedAt }

/-- The calls that a grant makes once its code is used up. -/
def Call.issues : Call → Bool
  | .getUserById _ | .createTokenFamily _ | .createAccessToken _ => true
  | _ => false

variable {st run user clientId realmId scopes claims} {issuer : String}

theorem makes_issueTokenPair :
    Program.Makes (fun c => c.issues = true)
      (issueTokenPair st run user clientId realmId scopes claims issuer) := by
  refine Handler.makes_call_bind rfl fun _ => ?_
  refine Handler.makes_call_bind rfl fun _ => ?_
  refine Handler.makes_check_bind fun access => ?_
  exact Handler.makes_check_bind fun refresh => trivial

theorem leads_issueTokenPair {S : Type} {P : Protocol S Call Call.Answer} {s : S}
    {Q : S → QidResult TokenPair → Prop}
    (hfamily : P.calls s (.createTokenFamily (newTokenFamily st run user clientId realmId scopes
      claims)))
    (htoken : P.calls s (.createAccessToken (newAccessToken st run user clientId realmId scopes
      claims))) (hnext : ∀ c a, P.next s c a = s) (herror : ∀ e, Q s (.error e))
    (hok : ∀ pair, formatAccessToken st run.accessSignedAt issuer run.accessJti user clientId
      realmId scopes { claims with accessExpiresAt := some (newRefreshExpiresAt st run realmId) } =
        .ok pair.accessToken → Q s (.ok pair)) :
    P.Leads Q s (issueTokenPair st run user clientId realmId scopes claims issuer) := by
  rw [issueTokenPair, Protocol.leads_bind]
  refine ⟨hfamily, fun r => ?_⟩
  rw [hnext]
  cases r with
  | error e => exact herror e
  | ok _ =>
    show P.Leads Q s _
    refine ⟨htoken, fun r => ?_⟩
    rw [hnext]
    cases r with
    | error e => exact herror e
    | ok _ =>
      refine Protocol.leads_check_bind (fun e _ => herror e) fun access haccess => ?_
      refine Protocol.leads_check_bind (fun e _ => herror e) fun refresh _ => ?_
      exact hok _ haccess

end Qid.OAuth
