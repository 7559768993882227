/-
TOTP codes.

A translation of `totp_verify` and `totp_authenticate` of `qid-session/src/totp_api.rs`, with
`verify_totp_at_with_step` of `qid-mfa/src/lib.rs`. The code of a time step, an HMAC in
`qid-crypto/src/totp.rs`, is a field of `SharedState`, and so is whether a header value is well
formed.
-/
import Qid.OAuth.Device
import Qid.Session.Password

namespace Qid.Session

open Lib Lib.Handler Storage

structure BrowserSessionConfig where
  cookieName : String
  sameSite : String
  idleTimeoutMinutes : Nat
  absoluteTimeoutHours : Nat
  deriving DecidableEq

structure RuntimeRealm where
  id : String
  /-- `mfa.totp.enabled`. -/
  totpEnabled : Bool
  browserSession : BrowserSessionConfig
  deriving DecidableEq

structure SharedState where
  plan : List RuntimeRealm
  /-- The authenticator of a realm. -/
  authenticator : String → Authenticator
  /-- For a secret, a number of digits and a time step. -/
  generateCode : String → Nat → Nat → QidResult String
  /-- `HeaderValue::from_str`. -/
  headerValue : String → Except String String

def SharedState.requireRealm (st : SharedState) (id : String) : QidResult RuntimeRealm :=
  okOr (st.plan.find? fun r => r.id = id) (.notFound ("realm " ++ id))

section

variable (st : SharedState) (cred : TotpCredential) (code : String)

def matchingStep : List Nat → QidResult (Option Nat)
  | [] => .ok none
  | ts :: rest =>
    let step := ts / cred.period
    if cred.lastUsedStep.any (step ≤ ·) then matchingStep rest
    else do
      let expected ← st.generateCode cred.secret cred.digits step
      if code = expected then return some step
      else matchingStep rest

/-- A period of zero makes the source panic, which ends the run. -/
def verifyTotpAtWithStep (timestamp : Nat) : QidResult (Option Nat) :=
  if cred.enabled = false ∨ cred.algorithm ≠ "SHA1" then .ok none
  else if cred.period = 0 then .error (.internal "attempt to divide by zero")
  else
    matchingStep st cred code
      [timestamp, timestamp - cred.period, Dpop.saturatingAdd timestamp cred.period]

end

def getUserById (id : String) : Login (Option Models.User) :=
  Program.call (.getUserById id) Program.ret

def getTotpCredential (userId : String) : Login (Option TotpCredential) :=
  Program.call (.getTotpCredential userId) Program.ret

variable (cred : TotpCredential)

def storeTotpCredential : Login Unit := Program.call (.storeTotpCredential cred) Program.ret

def consumeTotpStep (step : Nat) : Login Bool :=
  Program.call (.consumeTotpStep cred step) Program.ret

/-- An error of the lookup is not told apart. -/
def getSession (id : String) : Login (Option LoginSession) :=
  Program.call (.getSession id) fun found => Program.ret (.ok found.toOption.join)

def createSession (session : LoginSession) : Login Unit :=
  Program.call (.createSession session) Program.ret

/-- As a value: its caller ignores it. -/
def revokeSession (id : String) (realm : Option String) : Login (QidResult Bool) :=
  Program.call (.revokeSession id realm) fun result => Program.ret (.ok result)

structure SessionManager where
  idleTimeoutSeconds : Nat
  absoluteTimeoutSeconds : Nat

namespace SessionManager

def fromBrowserSessionConfig (config : BrowserSessionConfig) : SessionManager :=
  { idleTimeoutSeconds := config.idleTimeoutMinutes * 60
    absoluteTimeoutSeconds := config.absoluteTimeoutHours * 60 * 60 }

/-- The identifier is drawn at random. -/
def create (manager : SessionManager) (realm userId acr : String) (amr : List String)
    (id : String) (now : Nat) : Login LoginSession := do
  let session : LoginSession :=
    { id := id, realmId := realm, userId := userId
      idleExpiresAt := now + manager.idleTimeoutSeconds
      absoluteExpiresAt := now + manager.absoluteTimeoutSeconds
      revoked := false, authTime := now, acr := some acr, amr := amr, createdAt := now }
  createSession session
  return session

def createWithRegeneration (manager : SessionManager) (realm userId acr : String)
    (amr : List String) (oldSessionId : Option String) (id : String) (now : Nat) :
    Login LoginSession :=
  match oldSessionId with
  | some oldId => do
    let _ ← revokeSession oldId (some realm)
    manager.create realm userId acr amr id now
  | none => manager.create realm userId acr amr id now

end SessionManager

section

variable (st : SharedState)

def loadBrowserSession (realm : String) (cookie : Option String) (now : Nat) :
    Login (RuntimeRealm × LoginSession) := do
  let realmConfig ← check (st.requireRealm realm)
  let sessionId ← check (okOr
    (OAuth.extractCookie cookie realmConfig.browserSession.cookieName)
    (.unauthorized "missing session cookie"))
  let found ← getSession sessionId
  let session ← check (okOr (found.filter fun s => s.isActive now)
    (.unauthorized "invalid or expired session"))
  check (ensure (session.realmId = realm)
    (.unauthorized "session realm does not match request realm"))
  return (realmConfig, session)

def setSessionCookie (config : BrowserSessionConfig) (sessionId errorContext : String) :
    QidResult String :=
  match st.headerValue (config.cookieName ++ "=" ++ sessionId ++
    "; HttpOnly; Secure; Path=/; SameSite=" ++ config.sameSite) with
  | .ok value => .ok value
  | .error error => .error (.internal (errorContext ++ ": " ++ error))

end

structure TotpVerifyRun where
  realm : String
  /-- The `Cookie` header. -/
  cookie : Option String
  code : String
  /-- What `limiter.admit` answers. -/
  admitted : Bool
  /-- When the session is looked up. -/
  loadedAt : Nat
  now : Nat
  deriving DecidableEq

structure TotpAuthenticateRun where
  realm : String
  cookie : Option String
  userId : String
  code : String
  admitted : Bool
  now : Nat
  /-- When the session is created, and its identifier. -/
  createdAt : Nat
  sessionId : String
  deriving DecidableEq

structure TotpAuthenticateResponse where
  sessionId : String
  userId : String
  email : Option String
  /-- The `Set-Cookie` header. -/
  setCookie : String
  deriving DecidableEq

variable (st : SharedState) {A : Call → Prop}

def totpUnavailable (realmConfig : RuntimeRealm) : QidResult Unit :=
  ensure (realmConfig.totpEnabled = true) (.unauthorized "TOTP is not enabled for this realm")

def admitTotp (admitted : Bool) : QidResult Unit :=
  ensure (admitted = true) (.tooManyRequests "too many TOTP attempts, please wait and try again")

def validStep (cred : TotpCredential) (code : String) (now : Nat) : QidResult Nat := do
  let found ← verifyTotpAtWithStep st cred code now
  okOr found (.badRequest "invalid or already-used TOTP code")

def claimStep (step : Nat) : Login Unit := do
  let won ← consumeTotpStep cred step
  check (ensure (won = true) (.badRequest "invalid or already-used TOTP code"))

def totpVerify (q : TotpVerifyRun) : Login String := do
  let (realmConfig, session) ← loadBrowserSession st q.realm q.cookie q.loadedAt
  check (totpUnavailable realmConfig)
  let found ← getTotpCredential session.userId
  let cred ← check (okOr found (.notFound ("totp credential for user " ++ session.userId)))
  check (admitTotp q.admitted)
  -- the copy is enabled for the check; the stored credential is not, before the proof
  let step ← check (validStep st { cred with enabled := true } q.code q.now)
  claimStep cred step
  storeTotpCredential { cred with enabled := true, lastUsedStep := some step }
  return "verified"

def totpAuthenticate (q : TotpAuthenticateRun) : Login TotpAuthenticateResponse := do
  let realmConfig ← check (st.requireRealm q.realm)
  check (totpUnavailable realmConfig)
  let found ← getUserById q.userId
  let user ← check (okOr found (.notFound ("user " ++ q.userId)))
  check (ensure (user.realmId = q.realm)
    (.unauthorized "TOTP user does not belong to request realm"))
  let found ← getTotpCredential user.id
  let cred ← check (okOr found (.notFound ("totp credential for user " ++ user.id)))
  check (ensure (cred.enabled = true) (.badRequest "TOTP not enabled for this user"))
  check (admitTotp q.admitted)
  let step ← check (validStep st cred q.code q.now)
  claimStep cred step
  let manager := SessionManager.fromBrowserSessionConfig realmConfig.browserSession
  let session ← manager.createWithRegeneration q.realm user.id "urn:qid:acr:totp" ["totp"]
    (OAuth.extractCookie q.cookie realmConfig.browserSession.cookieName) q.sessionId q.createdAt
  let setCookie ← check (setSessionCookie st realmConfig.browserSession session.id
    "failed to build TOTP session cookie header")
  return { sessionId := session.id, userId := user.id, email := user.email
           setCookie := setCookie }

/-! ## Calls of the TOTP endpoints

They leave the users and the passwords alone. -/

theorem makes_loadBrowserSession (realm : String) (cookie : Option String) (now : Nat) :
    Program.Makes (fun c => c.ofLogin = false) (loadBrowserSession st realm cookie now) := by
  repeat refine makes_check_bind fun _ => ?_
  refine makes_call_bind rfl fun found => ?_
  refine makes_check_bind fun session => ?_
  exact makes_check_bind fun _ => trivial

theorem makes_totpVerify (q : TotpVerifyRun) :
    Program.Makes (fun c => c.ofLogin = false) (totpVerify st q) := by
  refine makes_bind (makes_loadBrowserSession st _ _ _) fun found => ?_
  refine makes_check_bind fun _ => ?_
  refine makes_call_bind rfl fun found => ?_
  repeat refine makes_check_bind fun _ => ?_
  refine makes_bind (makes_call_bind rfl fun _ => trivial) fun _ => ?_
  exact makes_call_bind rfl fun _ => trivial

theorem makes_totpAuthenticate
    (hA : ∀ c : Call, c.ofLogin = false → (∀ cred, c ≠ .storeTotpCredential cred) → A c)
    (q : TotpAuthenticateRun) : Program.Makes A (totpAuthenticate st q) := by
  repeat refine makes_check_bind fun _ => ?_
  refine makes_call_bind (hA _ rfl nofun) fun found => ?_
  repeat refine makes_check_bind fun _ => ?_
  refine makes_call_bind (hA _ rfl nofun) fun found => ?_
  repeat refine makes_check_bind fun _ => ?_
  refine makes_bind ?_ fun _ => ?_
  · exact makes_call_bind (hA _ rfl nofun) fun _ => trivial
  refine makes_bind ?_ fun session => makes_check_bind fun setCookie => trivial
  unfold SessionManager.createWithRegeneration
  split
  · refine makes_call_bind (hA _ rfl nofun) fun _ => ?_
    exact makes_call_bind (hA _ rfl nofun) fun _ => trivial
  · exact makes_call_bind (hA _ rfl nofun) fun _ => trivial

end Qid.Session
