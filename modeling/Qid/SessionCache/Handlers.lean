/-
The handlers that honour, refresh and end browser sessions.

A translation of the session branch of `do_issue_assertion` (`qid-proxy/src/assertion.rs`), of `sso`
and the loop of `slo` (`qid-saml/src/routes.rs`), of `session_refresh` and `session_revoke`
(`qid-session/src/api/session.rs`) and of `create_with_regeneration` (`qid-session/src/browser.rs`),
from where the session is first looked up. Other tables are answered by the environment.
-/
import Qid.Lib.Jobs
import Qid.SessionCache.Store

namespace Qid.SessionCache

open Lib Storage
open Models (Session)

structure BrowserSessionConfig where
  idleTimeoutMinutes : Nat
  absoluteTimeoutHours : Nat
  deriving DecidableEq

inductive Answer where
  | failed (e : QidError)
  | absent
  | present
  deriving DecidableEq

/-- The time, how a read and a save end, and the identifier that is drawn if a session is created.
-/
structure Env where
  clock : Nat
  answer : Answer
  persist : Persist
  newId : String
  deriving DecidableEq

def Env.seconds (env : Env) : Nat := env.clock / Dpop.nanosPerSecond

def Env.getSession (env : Env) (s : Store) (id : String) : QidResult (Option Session) :=
  match env.answer with
  | .failed e => .error e
  | _ => .ok (s.getSession id)

inductive AssertionRead where
  | user
  | groups
  | tenant
  | grants
  | devices
  | jti
  deriving DecidableEq

/-- `edge` is the outcome of the checks on the named edge, which are made when the user is known. -/
def AssertionRead.next (edge : QidResult Unit) :
    AssertionRead → Answer → QidResult (Option AssertionRead)
  | .user, .failed e => .error e
  | .user, .absent => .error (.notFound "user")
  | .user, .present => edge.map fun _ => some .groups
  | .groups, .failed e => .error e
  | .groups, _ => .ok (some .tenant)
  | .tenant, .failed e => .error e
  | .tenant, .absent => .ok (some .devices)
  | .tenant, .present => .ok (some .grants)
  | .grants, .failed e => .error e
  | .grants, _ => .ok (some .devices)
  | .devices, _ => .ok (some .jti)
  | .jti, .failed _ => .error (.internal "assertion jti collision")
  | .jti, _ => .ok none

inductive IssuePhase where
  | start
  | sharedGet (now : Nat)
  | getSession (now : Nat)
  | sharedSet (session : Session) (now ttlSeconds : Nat)
  | localPut (session : Session) (now ttlSeconds : Nat)
  | reading (session : Session) (now : Nat) (read : AssertionRead)
  | issued (now : Nat)
  | refused (e : QidError)
  deriving DecidableEq

def invalidSession : QidError := .unauthorized "invalid session"

def validateAssertionSession (session : Session) (realmId : String) (now : Nat) : QidResult Unit :=
  if session.realmId ≠ realmId then .error (.unauthorized "session realm mismatch")
  else if session.revoked then .error (.unauthorized "session revoked")
  else if session.idleExpiresAt ≤ now ∨ session.absoluteExpiresAt ≤ now then
    .error (.unauthorized "session expired")
  else .ok ()

variable (realm : String) (session : Session)

def IssuePhase.withSession (now : Nat) : IssuePhase :=
  match validateAssertionSession session realm now with
  | .ok _ => .reading session now .user
  | .error e => .refused e

def IssuePhase.withCached (cached : Session) (now : Nat) : IssuePhase :=
  match decodeCachedSession cached now with
  | some session => .withSession realm session now
  | none => .refused invalidSession

/-- Active sessions are cached first. -/
def IssuePhase.withStored (now : Nat) : IssuePhase :=
  match sessionCachePut session now with
  | some ttlSeconds => .sharedSet session now ttlSeconds
  | none => .withSession realm session now

def IssuePhase.advance (realm id : String) (edge : QidResult Unit) (env : Env) (s : Store) :
    IssuePhase → Option (IssuePhase × Store)
  | .start =>
    match s.localGet env.clock id with
    | (some cached, s') => some (.withCached realm cached env.seconds, s')
    | (none, s') => some (.sharedGet env.seconds, s')
  | .sharedGet now =>
    match s.sharedGet env.clock id with
    | (some cached, s') => some (.withCached realm cached now, s')
    | (none, s') => some (.getSession now, s')
  | .getSession now =>
    match env.getSession s id with
    | .error e => some (.refused e, s)
    | .ok none => some (.refused invalidSession, s)
    | .ok (some session) => some (.withStored realm session now, s)
  | .sharedSet session now ttlSeconds =>
    some (.localPut session now ttlSeconds, s.sharedSet env.clock id session ttlSeconds)
  | .localPut session now ttlSeconds =>
    some (.withSession realm session now, s.localPut env.clock id session ttlSeconds)
  | .reading session now read =>
    match read.next edge env.answer with
    | .error e => some (.refused e, s)
    | .ok (some read') => some (.reading session now read', s)
    | .ok none => some (.issued now, s)
  | .issued _ | .refused _ => none

inductive SsoPhase where
  | start
  | user (session : Session) (now : Nat)
  | signedOn (now : Nat)
  | refused (error : String)
  deriving DecidableEq

def isActiveSessionForRealm (realm : String) (now : Nat) : Bool :=
  session.realmId == realm && !session.revoked && session.idleExpiresAt ≥ now &&
    session.absoluteExpiresAt ≥ now

/-- `response` is the outcome of building the response, which reads the request and the
configuration. -/
def SsoPhase.advance (realm id : String) (response : Except String Unit) (env : Env) (s : Store) :
    SsoPhase → Option (SsoPhase × Store)
  | .start =>
    match env.getSession s id with
    | .error _ => some (.refused "saml_session_lookup_failed", s)
    | .ok none => some (.refused "saml_authentication_required", s)
    | .ok (some session) =>
      if isActiveSessionForRealm session realm env.seconds then
        some (.user session env.seconds, s)
      else some (.refused "saml_authentication_required", s)
  | .user _ now =>
    match env.answer, response with
    | .failed _, _ => some (.refused "saml_user_lookup_failed", s)
    | .absent, _ => some (.refused "saml_authentication_required", s)
    | .present, .error e => some (.refused e, s)
    | .present, .ok _ => some (.signedOn now, s)
  | .signedOn _ | .refused _ => none

/-- The session of the cookie is active and of the realm. -/
def loadBrowserSession (env : Env) (s : Store) (realm id : String) : QidResult Unit :=
  match env.getSession s id with
  | .ok (some session) =>
    if session.isActive env.seconds = false then
      .error (.unauthorized "invalid or expired session")
    else if session.realmId ≠ realm then
      .error (.unauthorized "session realm does not match request realm")
    else .ok ()
  | _ => .error (.unauthorized "invalid or expired session")

/-- The status `UNAUTHORIZED` has no error of its own. -/
inductive ChangePhase where
  | start
  | write
  | sharedDelete
  | localDelete
  | done
  | unauthorized
  | refused (e : QidError)
  deriving DecidableEq

def ChangePhase.written : QidResult Bool → ChangePhase
  | .ok true => .sharedDelete
  | .ok false => .unauthorized
  | .error e => .refused e

def ChangePhase.advance (realm id : String) (write : Store → QidResult Bool × Store) (env : Env)
    (s : Store) : ChangePhase → Option (ChangePhase × Store)
  | .start =>
    match loadBrowserSession env s realm id with
    | .ok _ => some (.write, s)
    | .error e => some (.refused e, s)
  | .write => some (.written (write s).1, (write s).2)
  | .sharedDelete => some (.localDelete, s.sharedDelete id)
  | .localDelete => some (.done, s.localDelete id)
  | .done | .unauthorized | .refused _ => none

variable (config : BrowserSessionConfig)

def newIdle (env : Env) : Nat := env.seconds + config.idleTimeoutMinutes * 60

inductive LogoutPhase where
  | lookup (indexes revoked : List String)
  | revoke (index : String) (indexes revoked : List String)
  | done (revoked : List String)
  | refused (error : String)
  deriving DecidableEq

def LogoutPhase.advance (env : Env) (s : Store) : LogoutPhase → Option (LogoutPhase × Store)
  | .lookup [] revoked => some (.done revoked, s)
  | .lookup (index :: indexes) revoked =>
    match env.getSession s index with
    | .error _ => some (.refused "saml_logout_lookup_failed", s)
    | .ok none => some (.lookup indexes revoked, s)
    | .ok (some session) =>
      if session.realmId = realm then some (.revoke index indexes revoked, s)
      else some (.lookup indexes revoked, s)
  | .revoke index indexes revoked =>
    match s.revokeSession env.persist index realm with
    | (.error _, s') => some (.refused "saml_logout_failed", s')
    | (.ok _, s') => some (.lookup indexes (revoked ++ [index]), s')
  | .done _ | .refused _ => none

/-- `ended` tells whether the old session was revoked. The handler does not look at it. -/
inductive LoginPhase where
  | start
  | create (ended : Bool)
  | created (ended : Bool) (session : Session)
  | refused (ended : Bool) (e : QidError)
  deriving DecidableEq

def newSession (realm user : String) (env : Env) : Session where
  id := env.newId
  realmId := realm
  userId := user
  idleExpiresAt := env.seconds + config.idleTimeoutMinutes * 60
  absoluteExpiresAt := env.seconds + config.absoluteTimeoutHours * 60 * 60
  revoked := false

def isOkTrue : QidResult Bool → Bool
  | .ok answer => answer
  | .error _ => false

def LoginPhase.advance (realm user : String) (old : Option String) (env : Env) (s : Store) :
    LoginPhase → Option (LoginPhase × Store)
  | .start =>
    match old with
    | none => some (.create false, s)
    | some id =>
      some (.create (isOkTrue (s.revokeSession env.persist id realm).1),
        (s.revokeSession env.persist id realm).2)
  | .create ended =>
    match s.createSession env.persist (newSession config realm user env) with
    | (.ok _, s') => some (.created ended (newSession config realm user env), s')
    | (.error e, s') => some (.refused ended e, s')
  | .created _ _ | .refused _ _ => none

inductive Request where
  | issueAssertion (realm id : String) (edge : QidResult Unit)
  | sso (realm id : String) (response : Except String Unit)
  | sessionRefresh (realm id : String)
  | sessionRevoke (realm id : String)
  | slo (realm : String) (indexes : List String)
  | login (realm user : String) (old : Option String)

inductive Job where
  | issueAssertion (realm id : String) (edge : QidResult Unit) (phase : IssuePhase)
  | sso (realm id : String) (response : Except String Unit) (phase : SsoPhase)
  | sessionRefresh (realm id : String) (phase : ChangePhase)
  | sessionRevoke (realm id : String) (phase : ChangePhase)
  | slo (realm : String) (phase : LogoutPhase)
  | login (realm user : String) (old : Option String) (phase : LoginPhase)

def Request.start : Request → Job
  | .issueAssertion realm id edge => .issueAssertion realm id edge .start
  | .sso realm id response => .sso realm id response .start
  | .sessionRefresh realm id => .sessionRefresh realm id .start
  | .sessionRevoke realm id => .sessionRevoke realm id .start
  | .slo realm indexes => .slo realm (.lookup indexes [])
  | .login realm user old => .login realm user old .start

abbrev Realms : Type := String → BrowserSessionConfig

def Job.advance (realms : Realms) (env : Env) (s : Store) : Job → Option (Job × Store)
  | .issueAssertion realm id edge phase =>
    (phase.advance realm id edge env s).map fun next =>
      (.issueAssertion realm id edge next.1, next.2)
  | .sso realm id response phase =>
    (phase.advance realm id response env s).map fun next => (.sso realm id response next.1, next.2)
  | .sessionRefresh realm id phase =>
    (phase.advance realm id (fun s =>
        s.updateSessionIdleExpiry env.persist id (newIdle (realms realm) env) realm) env s).map
      fun next => (.sessionRefresh realm id next.1, next.2)
  | .sessionRevoke realm id phase =>
    (phase.advance realm id (fun s => s.revokeSession env.persist id realm) env s).map
      fun next => (.sessionRevoke realm id next.1, next.2)
  | .slo realm phase => (phase.advance realm env s).map fun next => (.slo realm next.1, next.2)
  | .login realm user old phase =>
    (phase.advance (realms realm) realm user old env s).map fun next =>
      (.login realm user old next.1, next.2)

abbrev System : Type := Jobs.System Store Job

abbrev Act : Type := Jobs.Act Request Env

def step (realms : Realms) : System → Act → Option Job × System :=
  Jobs.step Request.start (Job.advance realms)

end Qid.SessionCache
