/-
Decisions of the proxy.

A translation of `load_policy_engine`, `do_check` and `do_authzen_evaluate` of
`qid-proxy/src/pep_decision.rs`, of the cache key of `pep_decision/decision.rs`, of the decision
cache and the policy revision of `qid-core/src/state.rs`, and of the policy bundles of the file
repository. When the local map of the cache grows too large, entries leave it in the order the hash
map visits them, which is an input here.
-/
import Qid.Dpop.State
import Qid.File.Directory
import Qid.Proxy.Obligations
import Qid.Rebac.Scope

namespace Qid.Proxy

open Lib Json Policy Storage

/-- The hash of its source and its version are not read by a decision. -/
structure StoredBundle where
  id : String
  realmId : String
  name : String
  compiledJson : Value
  active : Bool

abbrev PolicyBundles : Type := Table StoredBundle (·.id)

structure PepDecisionAuditInfo where
  severity : String
  policyId : String
  policyTags : List String
  riskScore : Option UInt64

structure PepDecisionResponse where
  schemaId : String
  decision : String
  decisionId : String
  policyId : String
  policyRevision : String
  ttlMs : Nat
  cacheable : Bool
  decisionScope : String
  obligations : List Obligation
  audit : PepDecisionAuditInfo

structure AuthZenEvaluationResponse where
  decision : Bool
  decisionId : String
  policyId : String
  reason : String
  matchedRules : List String
  policyTags : List String
  obligations : List Obligation

/-- The part of `SharedState` that decisions read and write. -/
structure State where
  policyBundles : PolicyBundles
  policyBundleCache : Option (String × Value)
  decisionCache : ExpiringMap PepDecisionResponse
  sharedCache : ExpiringMap PepDecisionResponse

/-- The source writes it as a JSON object with these fields. -/
structure KeyMaterial where
  policyRevision : String
  proxyName : String
  action : Option String
  host : Option String
  method : Option String
  path : Option String
  sni : Option String
  dstPort : Option UInt16
  destinationCategory : Option String
  destinationReputation : Option String
  destinationApplication : Option String
  user : Option String
  groups : List String
  deviceId : Option String
  posture : List String
  authStrength : Option String
  deriving DecidableEq

variable (req : PepDecisionRequest)

def keyMaterial (policyRevision : String) : KeyMaterial where
  policyRevision := policyRevision
  proxyName := req.proxy.proxyName
  action := req.proxy.action
  host := req.request.bind RequestInfo.host
  method := req.request.bind RequestInfo.method
  path := req.request.bind RequestInfo.path
  sni := req.request.bind RequestInfo.sni
  dstPort := req.request.bind RequestInfo.dstPort
  destinationCategory := req.destination.bind DestinationInfo.category
  destinationReputation := req.destination.bind DestinationInfo.reputation
  destinationApplication := req.destination.bind DestinationInfo.application
  user := req.identity.bind IdentityInfo.user
  groups := (req.identity.map IdentityInfo.groups).getD []
  deviceId := req.identity.bind IdentityInfo.deviceId
  posture := (req.identity.map IdentityInfo.posture).getD []
  authStrength := req.identity.bind IdentityInfo.authStrength

/-- With the two third-party functions: how a compiled bundle is read from JSON, and the SHA-256
digest of the JSON text of a key. -/
structure Deployment where
  config : QidConfig
  tuples : List Rebac.RelationshipTuple
  decode : Value → Except String PolicyBundle
  digest : KeyMaterial → String

def policyBundleIdentity : File.InsertIdentity StoredBundle where
  record := "policy bundle"
  identityName := "policy bundle"
  identity b := some (b.realmId, b.name)

def createPolicyBundle (persist : Persist) (bundles : PolicyBundles) (bundle : StoredBundle) :
    QidResult Unit × PolicyBundles :=
  match File.insertNew policyBundleIdentity bundles bundle with
  | .error e => (.error e, bundles)
  | .ok bundles => (persist.result, bundles)

def deletePolicyBundle (persist : Persist) (bundles : PolicyBundles) (id : String) :
    QidResult Unit × PolicyBundles :=
  (persist.result, bundles.erase id)

def getActivePolicyBundle (bundles : PolicyBundles) (realmId : String) : Option StoredBundle :=
  bundles.values.find? fun b => b.realmId == realmId && b.active

variable (config : QidConfig) (realmId : String)

def findRealm : Option RealmConfig := config.realms.find? fun realm => realm.id == realmId

def fallbackBundleForRealm : QidResult PolicyBundle :=
  let name := ((findRealm config realmId).map RealmConfig.defaultDecision).getD "deny"
  match Decision.parse name with
  | none =>
    .error (.config ("realm " ++ realmId ++ " has invalid policy default_decision: " ++ name))
  | some decision => .ok { version := "1", rules := [], defaultDecision := decision }

def rebacScopeForRealm : String :=
  ((findRealm config realmId).bind RealmConfig.tenantId).getD realmId

/-- The walk always answers, so the default is not met. -/
def tenantScopedRebacEvaluator (tuples : List Rebac.RelationshipTuple) (tenantId : String) :
    RebacEvaluator :=
  fun ns objectId relation subjectNamespace subjectId =>
    (Rebac.TenantScopedRebacEvaluator.check tenantId tuples ns objectId relation subjectNamespace
      subjectId).getD (.ok false)

section

variable (D : Deployment)

def engineFor (realmId : String) (bundle : PolicyBundle) (bundleId : String) : NativePolicyEngine :=
  (({} : NativePolicyEngine).withRebacEvaluator
    (tenantScopedRebacEvaluator D.tuples (rebacScopeForRealm D.config realmId))).load bundle
      bundleId

def slotName (realmId name : String) : String := realmId ++ ":" ++ name

/-- The bundle in the slot, if it is one of the realm and can be read. -/
def slotBundle (slot : Option (String × Value)) (realmId : String) :
    Option (PolicyBundle × String) :=
  match slot with
  | none => none
  | some (name, compiledJson) =>
    if startsWith (realmId ++ ":") name then
      match D.decode compiledJson with
      | .ok bundle => some (bundle, name)
      | .error _ => none
    else none

def readBundle (compiledJson : Value) : QidResult PolicyBundle :=
  match D.decode compiledJson with
  | .error e => .error (.config ("invalid policy bundle: " ++ e))
  | .ok bundle => .ok bundle

def loadPolicyEngine (s : State) (realmId : String) : QidResult NativePolicyEngine × State :=
  match slotBundle D s.policyBundleCache realmId with
  | some (bundle, name) => (.ok (engineFor D realmId bundle name), s)
  | none =>
    match getActivePolicyBundle s.policyBundles realmId with
    | some stored =>
      match readBundle D stored.compiledJson with
      | .error e => (.error e, s)
      | .ok bundle =>
        (.ok (engineFor D realmId bundle stored.name),
          { s with
            policyBundleCache := some (slotName realmId stored.name, stored.compiledJson) })
    | none =>
      match fallbackBundleForRealm D.config realmId with
      | .error e => (.error e, s)
      | .ok bundle => (.ok (engineFor D realmId bundle "default"), s)

end

def State.policyRevision (s : State) : String := (s.policyBundleCache.map Prod.fst).getD ""

variable (D : Deployment)

def pepDecisionCacheKey (req : PepDecisionRequest) (policyRevision : String) : QidResult String :=
  if (trim policyRevision).isEmpty then
    .error (.badRequest "policy revision must not be empty")
  else .ok (D.digest (keyMaterial req policyRevision))

/-- If there is a revision. -/
def cacheKeyDigest (s : State) (req : PepDecisionRequest) : Option String :=
  if s.policyRevision.isEmpty then none
  else resultOk (pepDecisionCacheKey D req s.policyRevision)

def maxDecisionCacheEntries : Nat := 100000

def sharedDecisionKey (digest : String) : String := "pep:decision" ++ ":" ++ digest

/-- Drop the entries above the limit, in the order in which the map visits its keys. -/
def evictDecisions (visited : List String) (cache : ExpiringMap PepDecisionResponse) :
    ExpiringMap PepDecisionResponse :=
  if cache.entries.length > maxDecisionCacheEntries then
    let excess := visited.take (cache.entries.length - maxDecisionCacheEntries)
    HashMap.retain (fun key => !excess.contains key) cache
  else cache

def decisionCacheGet (s : State) (now : Nat) (digest : String) : Option PepDecisionResponse :=
  (s.decisionCache.get now digest).or (s.sharedCache.get now (sharedDecisionKey digest))

def decisionCachePut (s : State) (now : Nat) (visited : List String) (digest : String)
    (response : PepDecisionResponse) (ttlSeconds : Nat) : State :=
  let ttl := ttlSeconds * Dpop.nanosPerSecond
  { s with
    sharedCache := s.sharedCache.set now (sharedDecisionKey digest) response ttl
    decisionCache := evictDecisions visited (s.decisionCache.set now digest response ttl) }

def pepDecisionCacheConfig (realmId registration : String) : PepDecisionCacheConfig :=
  (((findRealm config realmId).bind fun realm =>
      realm.served.find? fun adapter => adapter.name == registration).map
    PepRegistrationConfig.cache).getD {}

/-- The score of the request, or else the one of the advisory. -/
def effectiveRiskScore : UInt64 :=
  req.riskScore.getD (UInt64.ofNat (pepDecisionRiskAdvisory req).score)

def policyContext : PolicyContext where
  subjectId := req.identity.bind IdentityInfo.user
  groups := (req.identity.map IdentityInfo.groups).getD []
  roles := (req.identity.map IdentityInfo.roles).getD []
  entitlements := (req.identity.map IdentityInfo.entitlements).getD []
  deviceId := req.identity.bind IdentityInfo.deviceId
  posture := (req.identity.map IdentityInfo.posture).getD []
  acr := req.identity.bind IdentityInfo.authStrength
  riskScore := some (effectiveRiskScore req)
  resourceHost := req.request.bind RequestInfo.host
  resourceAction := req.proxy.action
  pepRegistration := some req.proxy.proxyName

def respond (realmId policyRevision : String) (req : PepDecisionRequest)
    (engine : NativePolicyEngine) : QidResult PepDecisionResponse := do
  let risk := pepDecisionRiskAdvisory req
  let details := engine.decision (policyContext req)
  let cacheBypass := (details.pep.cacheBypass.or risk.cacheBypass).getD false
  let cacheConfig := pepDecisionCacheConfig D.config realmId req.proxy.proxyName
  let ttlMs := cacheConfig.ttlMs details.decision.cacheClass
  let obligations ← pepDecisionObligations details risk details.policyId req.adapterCapabilities
  return {
    schemaId := "urn:qid:schema:pep-decision-response:v1"
    decision := pepDecisionWireDecision details.decision
    decisionId := details.policyId
    policyId := details.policyId
    policyRevision := policyRevision
    ttlMs := ttlMs
    cacheable := decide (0 < ttlMs) && !cacheBypass
    decisionScope := "request"
    obligations := obligations
    audit := {
      severity := auditSeverity details.decision
      policyId := details.policyId
      policyTags := mergePolicyTags details.policyTags risk.policyTags
      riskScore := some (effectiveRiskScore req) } }

variable (D : Deployment)

def requestRealmId (req : PepDecisionRequest) : String :=
  req.adapterRealmId.getD ((D.config.realms.head?.map RealmConfig.id).getD "")

def evaluate (s : State) (req : PepDecisionRequest) : QidResult PepDecisionResponse × State :=
  let realmId := requestRealmId D req
  let loaded := loadPolicyEngine D s realmId
  match loaded.1 with
  | .error e => (.error e, loaded.2)
  | .ok engine => (respond D realmId loaded.2.policyRevision req engine, loaded.2)

/-- Keep a response that may be cached, for at least a second. -/
def storeDecision (digest : Option String) (result : QidResult PepDecisionResponse) (now : Nat)
    (visited : List String) (s : State) : State :=
  match digest, result with
  | some digest, .ok response =>
    if response.cacheable then
      decisionCachePut s now visited digest response (max ((response.ttlMs + 999) / 1000) 1)
    else s
  | _, _ => s

structure Answer where
  cached : Bool
  result : QidResult PepDecisionResponse

def doCheck (s : State) (now : Nat) (visited : List String) (req : PepDecisionRequest) :
    Answer × State :=
  let digest := cacheKeyDigest D s req
  match digest.bind (decisionCacheGet s now) with
  | some response => ({ cached := true, result := .ok response }, s)
  | none =>
    let evaluated := evaluate D s req
    ({ cached := false, result := evaluated.1 },
      storeDecision digest evaluated.1 now visited evaluated.2)

def authzenReason : Decision → String
  | .allow => "allow"
  | .deny => "deny"
  | .stepUp => "challenge"
  | .consentRequired => "consent_required"
  | .localResponse => "local_response"
  | .approvalRequired => "approval_required"
  | .quarantine => "quarantine"
  | .auditOnly => "audit_only"
  | .conditional => "conditional"

def authzenRespond (capabilities : List String) (req : AuthZenEvaluationRequest)
    (engine : NativePolicyEngine) : QidResult AuthZenEvaluationResponse := do
  let ctx ← authzenPolicyContext req
  let details := engine.decision ctx
  let obligations ← authzenObligations details capabilities
  return {
    decision := details.decision == .allow || details.decision == .auditOnly
    decisionId := details.policyId
    policyId := details.policyId
    reason := authzenReason details.decision
    matchedRules := details.matchedRules
    policyTags := details.policyTags
    obligations := obligations }

def doAuthzenEvaluate (s : State) (auth : AdapterAuthentication D.config)
    (req : AuthZenEvaluationRequest) : QidResult AuthZenEvaluationResponse × State :=
  let loaded := loadPolicyEngine D s auth.realmId
  match loaded.1 with
  | .error e => (.error e, loaded.2)
  | .ok engine => (authzenRespond auth.capabilities req engine, loaded.2)

end Qid.Proxy
