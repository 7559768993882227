/-
Broker logins.

A translation of `load_broker_links` and `exec_broker_login_plan` of
`qid-federation/src/routes/mod.rs`, with `plan_inbound_login` in between. A login has one phase for
each repository call. The environment answers `append_audit_event`, which no login reads, and draws
the identifiers.
-/
import Qid.Federation.Broker
import Qid.Federation.Links
import Qid.Lib.Jobs

namespace Qid.Federation

open Lib Json Storage

structure BrokerLogin where
  realm : String
  providers : List InboundIdentityProvider
  provider : InboundIdentityProvider
  configured : provider ∈ providers
  request : HomeRealmDiscoveryRequest
  claims : ExternalIdentityClaims

/-- What a step meets: the time, how a lookup, an audit event and a save end, and the identifiers
that are drawn. -/
structure Env where
  now : Nat
  lookupError : Option QidError
  audit : QidResult Unit
  persist : Persist
  userUlid : String
  linkUlid : String

namespace BrokerLogin

variable (login : BrokerLogin)

def key : ExternalKey where
  realmId := login.realm
  provider := login.provider.id
  subject := login.claims.subject

/-- A lookup that fails is taken for one that finds nothing. -/
def loadBrokerLinks (env : Env) (s : Store) : List BrokerAccountLink :=
  match env.lookupError, s.getCiamIdentityLinkByExternalSubject login.key with
  | none, .ok (some link) => [{
      providerId := link.provider
      externalSubject := login.claims.subject
      localSubject := link.userId }]
  | _, _ => []

def plan (env : Env) (s : Store) : QidResult BrokerLoginPlan :=
  planInboundLogin login.providers login.request login.claims (login.loadBrokerLinks env s)

def newUser (plan : BrokerLoginPlan) (ulid : String) : Models.User where
  id := "usr_" ++ ulid
  realmId := login.realm
  email := (plan.normalizedClaims.lookup "email").bind Value.asStr
  emailVerified := false
  displayName := (plan.normalizedClaims.lookup "display_name").bind Value.asStr
  failedLoginAttempts := 0
  lockedUntil := none
  org := none

def newLink (userId : String) (now : Nat) (ulid : String) : CiamIdentityLink where
  id := "cil_" ++ ulid
  realmId := login.realm
  userId := userId
  provider := login.provider.id
  externalSubject := login.claims.subject
  externalEmail := (login.claims.claims.lookup "email").bind Value.asStr
  profileJson := .object login.claims.claims
  linkedAtEpochSeconds := now
  verified := true

end BrokerLogin

inductive LoginPhase where
  | lookup
  | createUser (plan : BrokerLoginPlan) (now : Nat) (user : Models.User)
  | auditCreated (plan : BrokerLoginPlan) (now : Nat) (userId : String)
  | auditLinked (plan : BrokerLoginPlan) (now : Nat) (userId : String)
  | storeLink (plan : BrokerLoginPlan) (now : Nat) (link : CiamIdentityLink)
  | auditStored (plan : BrokerLoginPlan) (now : Nat) (userId : String)
  | done (userId : String)
  | refused (e : QidError)

def unverifiedEmail (plan : BrokerLoginPlan) : Bool :=
  (plan.normalizedClaims.lookup "email").isSome &&
    !((plan.normalizedClaims.lookup "email_verified").bind Value.asBool).getD false

variable (login : BrokerLogin)

/-- `exec_broker_login_plan` up to its first call. -/
def LoginPhase.ofPlan (plan : BrokerLoginPlan) (now : Nat) (ulid : String) : LoginPhase :=
  if plan.createSubject && plan.route.jitProvisioning && unverifiedEmail plan then
    .refused (.badRequest "JIT provisioning requires email_verified to be true")
  else
    match plan.linkedSubject with
    | some linked => .auditLinked plan now linked
    | none =>
      if plan.createSubject then
        if plan.route.accountLinking && plan.route.jitProvisioning then
          .createUser plan now (login.newUser plan ulid)
        else
          .refused (.badRequest "JIT provisioning is disabled and no account link exists")
      else .refused (.badRequest "login plan did not resolve to a local subject")

def LoginPhase.andThen (result : QidResult Unit) (next : LoginPhase) : LoginPhase :=
  match result with
  | .ok _ => next
  | .error e => .refused e

def LoginPhase.advance (env : Env) (s : Store) : LoginPhase → Option (LoginPhase × Store)
  | .lookup =>
    match login.plan env s with
    | .ok plan => some (.ofPlan login plan env.now env.userUlid, s)
    | .error e => some (.refused e, s)
  | .createUser plan now user =>
    some (.andThen (s.createUser env.persist user).1 (.auditCreated plan now user.id),
      (s.createUser env.persist user).2)
  | .auditCreated plan now userId | .auditLinked plan now userId =>
    some (.andThen env.audit (.storeLink plan now (login.newLink userId now env.linkUlid)), s)
  | .storeLink plan now link =>
    some (.andThen (s.storeCiamIdentityLink env.persist link).1
        (.auditStored plan now link.userId),
      (s.storeCiamIdentityLink env.persist link).2)
  | .auditStored _ _ userId => some (.andThen env.audit (.done userId), s)
  | .done _ | .refused _ => none

structure Job where
  login : BrokerLogin
  phase : LoginPhase

def Job.advance (env : Env) (s : Store) (job : Job) : Option (Job × Store) :=
  (job.phase.advance job.login env s).map fun next => ({ job with phase := next.1 }, next.2)

def BrokerLogin.start : Job where
  login := login
  phase := .lookup

def loginSteps : Nat := 5

def BrokerLogin.run (env : Env) (s : Store) : LoginPhase × Store :=
  Jobs.complete (LoginPhase.advance login) env loginSteps s .lookup

variable {providers : List InboundIdentityProvider} {request : HomeRealmDiscoveryRequest}
  {external : ExternalIdentityClaims} {links : List BrokerAccountLink} {plan : BrokerLoginPlan}

structure Planned (providers : List InboundIdentityProvider) (request : HomeRealmDiscoveryRequest)
    (external : ExternalIdentityClaims) (links : List BrokerAccountLink)
    (provider : InboundIdentityProvider) (plan : BrokerLoginPlan) : Prop where
  routed : routeInboundProvider providers request = .ok plan.route
  found : providers.find? (fun p => p.id == plan.route.providerId) = some provider
  issuer : provider.issuer = external.issuer
  normalized : normalizeEnterpriseClaims provider external = .ok plan.normalizedClaims
  linked : plan.linkedSubject = linkedSubject provider external links
  creates : plan.createSubject = plan.linkedSubject.isNone
  jit : plan.linkedSubject.isSome = true ∨ provider.jitProvisioning = true
  linking : plan.linkedSubject.isNone = true ∨ provider.accountLinking = true

theorem planInboundLogin_eq_ok :
    planInboundLogin providers request external links = .ok plan ↔
      ∃ provider, Planned providers request external links provider plan := by
  simp only [planInboundLogin, bind_eq_ok, ensure_eq_ok, okOr_eq_ok, pure_eq_ok]
  constructor
  · rintro ⟨route, hroute, provider, hfound, -, hissuer, claims, hclaims, -, hjit, -, hlinking, rfl⟩
    exact ⟨provider, hroute, hfound, hissuer, hclaims, rfl, rfl, hjit, hlinking⟩
  · rintro ⟨provider, h⟩
    refine ⟨plan.route, h.routed, provider, h.found, (), h.issuer, plan.normalizedClaims,
      h.normalized, (), ?_, (), ?_, ?_⟩
    · rw [← h.linked]
      exact h.jit
    · rw [← h.linked]
      exact h.linking
    · rw [← h.linked, ← h.creates]

end Qid.Federation
