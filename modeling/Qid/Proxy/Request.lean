/-
Requests for a decision.

A translation of the request records of `qid-proxy/src/pep_decision.rs`, and of the risk advisory
and the AuthZEN context of `pep_decision/decision.rs`. A set of capabilities is a list of which only
membership is read. The request id, the trace parent, the context, the extensions and the tenant
only reach the log and are left out.
-/
import Qid.Lib.Checked
import Qid.Policy.Engine
import Qid.Risk.Evaluate
import Qid.Core.Fields

namespace Qid.Proxy

open Lib Json Policy Risk

structure PepDecisionCacheConfig where
  positiveTtlSeconds : Nat := 30
  negativeTtlSeconds : Nat := 5
  deriving DecidableEq

def u64Max : Nat := 2 ^ 64 - 1

/-- With `saturating_mul`. -/
def PepDecisionCacheConfig.ttlMs (config : PepDecisionCacheConfig) : DecisionCacheClass → Nat
  | .positive => min (config.positiveTtlSeconds * 1000) u64Max
  | .negative => min (config.negativeTtlSeconds * 1000) u64Max

structure PepRegistrationConfig where
  name : String
  capabilities : List String := []
  cache : PepDecisionCacheConfig := {}
  deriving DecidableEq

structure RealmConfig where
  id : String
  tenantId : Option String := none
  pepRegistrationsEnabled : Bool := false
  registrations : List PepRegistrationConfig := []
  defaultDecision : String := "deny"
  deriving DecidableEq

def RealmConfig.served (realm : RealmConfig) : List PepRegistrationConfig :=
  if realm.pepRegistrationsEnabled then realm.registrations else []

def isUrlSafe (c : Char) : Bool := c.isAlphanum || c == '.' || c == '_' || c == '~' || c == '-'

/-- The realms of a configuration that `validate` has accepted. -/
structure QidConfig where
  realms : List RealmConfig
  isUrlSafeRealmId : ∀ realm ∈ realms, realm.id.toList.all isUrlSafe = true

/-- `trim`, `to_ascii_lowercase`, and the empty texts left out. -/
def normalizeCapabilities (capabilities : List String) : List String :=
  (capabilities.map fun capability => toAsciiLowercase (trim capability)).filter
    fun capability => !capability.isEmpty

/-- What authentication establishes: a registration that a configured realm serves. -/
structure AdapterAuthentication (config : QidConfig) where
  realm : RealmConfig
  adapter : PepRegistrationConfig
  configured : realm ∈ config.realms
  served : adapter ∈ realm.served

namespace AdapterAuthentication

variable {config : QidConfig} (auth : AdapterAuthentication config)

def capabilities : List String := normalizeCapabilities auth.adapter.capabilities

def realmId : String := auth.realm.id

end AdapterAuthentication

structure DecisionPrincipal where
  id : Option String := none
  groups : List String := []
  roles : List String := []
  entitlements : List String := []
  deviceId : Option String := none
  posture : List String := []
  assuranceLevel : Option String := none

structure DecisionResource where
  id : Option String := none
  host : Option String := none
  path : Option String := none
  port : Option UInt16 := none
  sni : Option String := none

structure DecisionOperation where
  name : String
  method : Option String := none

structure DecisionRisk where
  score : Option UInt64 := none
  destinationCategory : Option String := none
  destinationReputation : Option String := none
  destinationApplication : Option String := none

structure WirePepDecisionRequest where
  schemaId : Option String := none
  principal : Option DecisionPrincipal := none
  resource : DecisionResource := {}
  operation : DecisionOperation
  registration : String
  risk : Option DecisionRisk := none

structure ProxyInfo where
  proxyName : String
  action : Option String

structure RequestInfo where
  dstPort : Option UInt16
  host : Option String
  sni : Option String
  method : Option String
  path : Option String

structure IdentityInfo where
  user : Option String
  groups : List String
  roles : List String
  entitlements : List String
  deviceId : Option String
  posture : List String
  authStrength : Option String

structure DestinationInfo where
  category : Option String
  reputation : Option String
  application : Option String

structure PepDecisionRequest where
  proxy : ProxyInfo
  request : Option RequestInfo
  identity : Option IdentityInfo
  destination : Option DestinationInfo
  riskScore : Option UInt64
  adapterCapabilities : List String
  adapterRealmId : Option String

def pepDecisionRequestSchemaId : String := "urn:qid:schema:pep-decision-request:v1"

def destinationInfo (risk : DecisionRisk) : Option DestinationInfo :=
  if risk.destinationCategory.isSome || risk.destinationReputation.isSome ||
      risk.destinationApplication.isSome then
    some {
      category := risk.destinationCategory
      reputation := risk.destinationReputation
      application := risk.destinationApplication }
  else none

/-- `TryFrom<WirePepDecisionRequest>`. -/
def PepDecisionRequest.tryFrom (value : WirePepDecisionRequest) :
    Except String PepDecisionRequest := do
  let schemaId := value.schemaId.getD pepDecisionRequestSchemaId
  ensure (schemaId = pepDecisionRequestSchemaId)
    ("unsupported PEP decision request schema_id: " ++ schemaId)
  let registration := trim value.registration
  ensure (registration ≠ "") "pep.registration must not be empty"
  let operationName := trim value.operation.name
  ensure (operationName ≠ "") "operation.name must not be empty"
  let principal := value.principal.getD {}
  return {
    proxy := { proxyName := registration, action := some (toAsciiLowercase operationName) }
    request := some {
      dstPort := value.resource.port
      host := value.resource.host.or value.resource.id
      sni := value.resource.sni
      method := value.operation.method
      path := value.resource.path }
    identity := some {
      user := principal.id
      groups := principal.groups
      roles := principal.roles
      entitlements := principal.entitlements
      deviceId := principal.deviceId
      posture := principal.posture
      authStrength := principal.assuranceLevel }
    destination := value.risk.bind destinationInfo
    riskScore := (value.risk.bind DecisionRisk.score).map fun score => min score 100
    adapterCapabilities := []
    adapterRealmId := none }

def PepDecisionRequest.authenticated {config : QidConfig} (req : PepDecisionRequest)
    (auth : AdapterAuthentication config) : PepDecisionRequest :=
  { req with adapterCapabilities := auth.capabilities, adapterRealmId := some auth.realmId }

/-- `str::replace` of one character. -/
def normalizeSignal (value : String) : String :=
  String.ofList ((toAsciiLowercase (trim value)).toList.map fun c => if c = '_' then '-' else c)

def destinationReputationFromSignal (value : String) : Option DestinationReputation :=
  match normalizeSignal value with
  | "known-good" => some .knownGood
  | "unknown" => some .unknown
  | "suspicious" => some .suspicious
  | "malicious" => some .malicious
  | _ => none

def isCompromisedSignal (item : String) : Bool :=
  item == "compromised" || item == "rooted" || item == "jailbroken"

def isManagedSignal (item : String) : Bool := item == "trusted" || item == "managed"

def deviceTrustFromIdentity : Option IdentityInfo → DeviceTrustState
  | none => .unknown
  | some identity =>
    let posture := identity.posture.map normalizeSignal
    if posture.any isCompromisedSignal then .compromised
    else if identity.deviceId.isSome && posture.any isManagedSignal then .managed
    else if identity.deviceId.isSome then .registered
    else .unknown

def devicePostureSignalFromIdentity (identity : IdentityInfo) : DevicePostureSignal :=
  let posture := identity.posture.map normalizeSignal
  { managed := posture.any isManagedSignal
    encrypted := !posture.any (· == "unencrypted")
    edr := !posture.any fun item => item == "no-edr" || item == "edr-missing"
    osOutdated := posture.any (· == "outdated-os")
    jailbreakOrRoot := posture.any isCompromisedSignal }

def reputationTags (reputation : String) : List String :=
  match normalizeSignal reputation with
  | "unknown" => ["risk:unknown-destination"]
  | "suspicious" => ["risk:suspicious-destination"]
  | "malicious" => ["risk:malicious-destination"]
  | "known-good" => []
  | other => ["risk:destination-reputation:" ++ other]

def categoryTags (category : String) : List String :=
  let normalized := normalizeSignal category
  if isPrivacyCategory normalized then ["risk:sensitive-category:" ++ normalized]
  else if isMaliciousCategory normalized then ["risk:malicious-category:" ++ normalized]
  else if isUnknownCategory normalized then ["risk:unknown-category:" ++ normalized]
  else []

def destinationRiskTags : Option DestinationInfo → List String
  | none => []
  | some destination =>
    destination.reputation.elim [] reputationTags ++
      destination.category.elim [] categoryTags ++
      destination.application.elim [] fun application =>
        ["risk:application:" ++ normalizeSignal application]

structure PepDecisionRiskAdvisory where
  score : Nat
  forceInspect : Option Bool
  forceTunnel : Option Bool
  rateLimitProfile : Option String
  cacheBypass : Option Bool
  policyTags : List String
  deriving DecidableEq

def riskInput (req : PepDecisionRequest) : RiskInput :=
  let reputation := (req.destination.bind DestinationInfo.reputation).bind
    destinationReputationFromSignal
  let authStrength := req.identity.bind IdentityInfo.authStrength
  { subject := req.identity.bind IdentityInfo.user
    destinationReputation := reputation.getD .knownGood
    phishingResistantMfaSatisfied := authStrength == some "phr"
    deviceTrust := deviceTrustFromIdentity req.identity
    pep := some {
      edgeName := some req.proxy.proxyName
      host := req.request.bind RequestInfo.host
      sni := req.request.bind RequestInfo.sni
      method := req.request.bind RequestInfo.method
      path := req.request.bind RequestInfo.path
      destinationCategory := req.destination.bind DestinationInfo.category
      destinationReputation := reputation
      application := req.destination.bind DestinationInfo.application }
    devicePosture := req.identity.map devicePostureSignalFromIdentity
    token := some { acr := authStrength, amr := authStrength.toList } }

def pepDecisionRiskAdvisory (req : PepDecisionRequest) : PepDecisionRiskAdvisory :=
  let evaluation := evaluateRisk (riskInput req)
  let t : Tally := { score := evaluation.score, labels := evaluation.labels.map ("risk:" ++ ·) }
  let t := t.addIf req.identity.isNone 25 "risk:anonymous"
  let t := t.addIf (req.identity.any fun identity => identity.deviceId.isNone) 10
    "risk:missing-device"
  let t := t.addIf (req.identity.any fun identity => identity.authStrength != some "phr") 10
    "risk:non-phishing-resistant-auth"
  let held := evaluation.outcome == .deny || evaluation.outcome == .quarantine
  { score := min t.score 100
    forceInspect :=
      if evaluation.pepForceInspect || held then some true
      else if evaluation.pepForceTunnel then some false
      else none
    forceTunnel := if evaluation.pepForceTunnel then some true else none
    rateLimitProfile := evaluation.rateLimitProfile
    cacheBypass := if held || evaluation.outcome == .forceInspect then some true else none
    policyTags := dedupe (t.labels ++ destinationRiskTags req.destination) }

def mergePolicyTags (policyTags riskTags : List String) : List String :=
  dedupe (policyTags ++ riskTags)

structure AuthZenEntity where
  id : Option String := none
  properties : Fields := []

structure AuthZenEvaluationRequest where
  subject : AuthZenEntity
  actionName : String
  resource : AuthZenEntity
  context : Fields := []

def stringProperty (properties : Fields) (name : String) : Option String :=
  (properties.lookup name).bind Value.asStr

def stringArrayProperty (properties : Fields) (name : String) : List String :=
  match properties.lookup name with
  | some (.array values) => values.filterMap Value.asStr
  | _ => []

def authzenPolicyContext (req : AuthZenEvaluationRequest) : QidResult PolicyContext := do
  ensure ((trim req.actionName).isEmpty = false)
    (.badRequest "AuthZEN action.name must not be empty")
  let subject := req.subject.properties
  return {
    subjectId := (req.subject.id.or (stringProperty subject "sub")).or
      (stringProperty subject "user")
    groups := stringArrayProperty subject "groups"
    roles := stringArrayProperty subject "roles"
    entitlements := stringArrayProperty subject "entitlements"
    deviceId := (stringProperty subject "device_id").or (stringProperty req.context "device_id")
    posture := stringArrayProperty subject "posture" ++ stringArrayProperty req.context "posture"
    acr := (stringProperty subject "acr").or
      (((req.context.lookup "auth").bind (Value.get "acr")).bind Value.asStr)
    authAgeSeconds := (req.context.lookup "auth_age_seconds").bind Value.asU64
    riskScore := ((req.context.lookup "risk_score").bind Value.asU64).or
      (((req.context.lookup "risk").bind (Value.get "score")).bind Value.asU64)
    resourceHost := ((stringProperty req.resource.properties "host").or
      (stringProperty req.resource.properties "hostname")).or req.resource.id
    resourceAction := some req.actionName }

end Qid.Proxy
