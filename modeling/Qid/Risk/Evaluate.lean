/-
Adaptive risk scoring.

A translation of `evaluate_risk` of `qid-risk/src/lib.rs`, in the order of the source. A score stays
far below `2 ^ 64` before it is cut to 100, so it is a natural number. Coordinates are floats, as in
the source.
-/
import Qid.Core.Basic

namespace Qid.Risk

inductive RiskOutcome where
  | allow
  | stepUp
  | deny
  | quarantine
  | forceInspect
  | forceTunnel
  | rateLimit
  | auditHigh
  deriving DecidableEq

inductive DeviceTrustState where
  | managed
  | registered
  | unknown
  | unmanaged
  | compromised
  deriving DecidableEq

inductive DestinationReputation where
  | knownGood
  | unknown
  | suspicious
  | malicious
  deriving DecidableEq

structure GeoPoint where
  latitude : Float
  longitude : Float

structure LoginSignal where
  epochSeconds : Nat
  location : Option GeoPoint := none

structure PepSignal where
  edgeName : Option String := none
  route : Option String := none
  host : Option String := none
  sni : Option String := none
  method : Option String := none
  path : Option String := none
  destinationCategory : Option String := none
  destinationReputation : Option DestinationReputation := none
  application : Option String := none

structure DevicePostureSignal where
  managed : Bool
  encrypted : Bool
  edr : Bool
  osOutdated : Bool
  jailbreakOrRoot : Bool

structure TenantPolicySignal where
  currentCountry : Option String
  allowedCountries : List String
  networkAllowed : Option Bool
  workingHoursAllowed : Option Bool

structure TokenSignal where
  senderConstrained : Bool := false
  tokenAgeSeconds : Option Nat := none
  authTimeAgeSeconds : Option Nat := none
  acr : Option String := none
  amr : List String := []

structure RiskInput where
  realmId : Option String := none
  subject : Option String := none
  previousLogin : Option LoginSignal := none
  currentLogin : Option LoginSignal := none
  deviceTrust : DeviceTrustState := .unknown
  highRiskAsn : Bool := false
  anonymousNetwork : Bool := false
  destinationReputation : DestinationReputation := .unknown
  phishingResistantMfaSatisfied : Bool := false
  stepUpSucceeded : Bool := false
  newDevice : Bool := false
  impossibleTravel : Bool := false
  unmanagedDevice : Bool := false
  maliciousDestination : Bool := false
  pep : Option PepSignal := none
  devicePosture : Option DevicePostureSignal := none
  tenantPolicy : Option TenantPolicySignal := none
  token : Option TokenSignal := none

structure RiskEvaluation where
  score : Nat
  labels : List String
  outcome : RiskOutcome
  requiredAcr : Option String
  requiredAmr : List String
  pepForceInspect : Bool
  pepForceTunnel : Bool
  rateLimitProfile : Option String
  auditLevel : Option String
  deriving DecidableEq

def toRadians (degrees : Float) : Float := degrees * (3.14159265358979323846264338327950288 / 180.0)

def haversineKm (a b : GeoPoint) : Float :=
  let deltaLat := toRadians (b.latitude - a.latitude)
  let deltaLon := toRadians (b.longitude - a.longitude)
  let sinLat := (deltaLat / 2.0).sin
  let sinLon := (deltaLon / 2.0).sin
  let h := sinLat * sinLat +
    (toRadians a.latitude).cos * (toRadians b.latitude).cos * (sinLon * sinLon)
  2.0 * 6371.0 * h.sqrt.asin

def detectsImpossibleTravel (input : RiskInput) : Bool :=
  match input.previousLogin, input.currentLogin with
  | some previous, some current =>
    match previous.location, current.location with
    | some previousLocation, some currentLocation =>
      if current.epochSeconds ≤ previous.epochSeconds then false
      else
        let elapsedHours := (current.epochSeconds - previous.epochSeconds).toFloat / 3600.0
        if elapsedHours ≤ 0.0 then false
        else decide (haversineKm previousLocation currentLocation / elapsedHours > 900.0)
    | _, _ => false
  | _, _ => false

structure Tally where
  score : Nat
  labels : List String

namespace Tally

variable (t : Tally)

def add (points : Nat) (label : String) : Tally :=
  { score := t.score + points, labels := t.labels ++ [label] }

/-- With a label. -/
def sub (points : Nat) (label : String) : Tally :=
  { score := t.score - points, labels := t.labels ++ [label] }

def addIf (c : Bool) (points : Nat) (label : String) : Tally := if c then t.add points label else t

def label (text : String) : Tally := t.add 0 text

def labelSome (head : String) (text : Option String) : Tally :=
  text.elim t fun text => t.label (head ++ text)

end Tally

variable (t : Tally)

def deviceTrustTally : DeviceTrustState → Tally
  | .managed => t.label "managed-device"
  | .registered => t.add 5 "registered-device"
  | .unknown => t.add 15 "unknown-device"
  | .unmanaged => t.add 25 "unmanaged-device"
  | .compromised => t.add 90 "compromised-device"

def destinationTally : DestinationReputation → Tally
  | .knownGood => t.label "known-good-destination"
  | .unknown => t.add 10 "unknown-destination"
  | .suspicious => t.add 35 "suspicious-destination"
  | .malicious => t.add 80 "malicious-destination"

variable (category : String)

def isMaliciousCategory : Bool :=
  category == "malware" || category == "phishing" || category == "command-and-control"

def isPrivacyCategory : Bool :=
  category == "privacy" || category == "health" || category == "banking"

def isUnknownCategory : Bool := category == "newly-registered-domain" || category == "unknown"

def categoryTally : Tally :=
  let t := t.label ("pep-destination-category:" ++ category)
  if isMaliciousCategory category then t.add 90 "pep-malicious-category"
  else if isPrivacyCategory category then t.add 5 "pep-sensitive-category"
  else if isUnknownCategory category then t.add 20 "pep-unknown-category"
  else t

def pepDestinationTally : DestinationReputation → Tally
  | .knownGood => t
  | .unknown => t.add 10 "pep-unknown-destination"
  | .suspicious => t.add 35 "pep-suspicious-destination"
  | .malicious => t.add 80 "pep-malicious-destination"

variable (input : RiskInput)

def pepDestinationReputation : DestinationReputation :=
  (input.pep.bind PepSignal.destinationReputation).getD input.destinationReputation

def pepTally (reputation : DestinationReputation) (pep : PepSignal) : Tally :=
  let t := t.labelSome "pep-edge:" pep.edgeName
  let t := t.labelSome "pep-route:" pep.route
  let t := pep.destinationCategory.elim t (categoryTally t)
  pepDestinationTally t reputation

def postureTally (posture : DevicePostureSignal) : Tally :=
  let t := t.addIf posture.managed 0 "posture-managed"
  let t := t.addIf (!posture.encrypted) 15 "posture-unencrypted"
  let t := t.addIf (!posture.edr) 10 "posture-no-edr"
  let t := t.addIf posture.osOutdated 15 "posture-outdated-os"
  t.addIf posture.jailbreakOrRoot 90 "posture-jailbreak-or-root"

def tenantPolicyTally (policy : TenantPolicySignal) : Tally :=
  let country := policy.currentCountry.filter fun _ => !policy.allowedCountries.isEmpty
  let t := t.labelSome "country:" country
  let t := t.addIf (country.any fun c => !policy.allowedCountries.contains c) 40
    "country-not-allowed"
  let t := t.addIf (policy.networkAllowed == some false) 45 "network-not-allowed"
  t.addIf (policy.workingHoursAllowed == some false) 15 "outside-working-hours"

def tokenTally (token : TokenSignal) : Tally :=
  let t :=
    if token.senderConstrained then t.sub 10 "sender-constrained-token"
    else t.add 15 "bearer-token"
  let t := t.addIf (token.tokenAgeSeconds.any (3600 < ·)) 10 "old-token"
  let t := t.addIf (token.authTimeAgeSeconds.any (900 < ·)) 15 "stale-auth-time"
  if token.acr == some "phr" || token.amr.any (fun amr => amr == "webauthn" || amr == "hwk") then
    t.sub 10 "strong-token-auth"
  else t

def tally : Tally :=
  let t : Tally := { score := 10, labels := ["baseline"] }
  let t := t.addIf input.newDevice 20 "new-device"
  let t := t.addIf (input.impossibleTravel || detectsImpossibleTravel input) 40 "impossible-travel"
  let t := deviceTrustTally t input.deviceTrust
  let t := t.addIf input.unmanagedDevice 25 "unmanaged-device"
  let t := t.addIf input.highRiskAsn 25 "high-risk-asn"
  let t := t.addIf input.anonymousNetwork 30 "anonymous-network"
  let t := destinationTally t input.destinationReputation
  let t := input.pep.elim t (pepTally t (pepDestinationReputation input))
  let t := t.addIf input.maliciousDestination 80 "malicious-destination"
  let t := input.devicePosture.elim t (postureTally t)
  let t := input.tenantPolicy.elim t (tenantPolicyTally t)
  let t := input.token.elim t (tokenTally t)
  if input.phishingResistantMfaSatisfied then t.sub 20 "phishing-resistant-mfa"
  else if input.stepUpSucceeded then t.sub 10 "step-up-succeeded"
  else t

def outcome (score : Nat) : RiskOutcome :=
  let category := input.pep.bind PepSignal.destinationCategory
  let pepSuspicious := input.pep.any fun pep =>
    pep.destinationReputation == some .suspicious || pep.destinationCategory.any isUnknownCategory
  let denyRequired := decide (80 ≤ score) || input.deviceTrust == .compromised ||
    input.devicePosture.any DevicePostureSignal.jailbreakOrRoot
  let reputation := pepDestinationReputation input
  if denyRequired then .deny
  else if input.impossibleTravel && input.anonymousNetwork then .quarantine
  else if category.any isPrivacyCategory then .forceTunnel
  else if pepSuspicious then .forceInspect
  else if input.anonymousNetwork && (reputation == .unknown || reputation == .suspicious) then
    .rateLimit
  else if 50 ≤ score then .stepUp
  else if 45 ≤ score then .auditHigh
  else .allow

def dedupe (texts : List String) : List String :=
  texts.foldl (fun unique text => if unique.contains text then unique else unique ++ [text]) []

def evaluateRisk : RiskEvaluation :=
  let t := tally input
  let score := min t.score 100
  let outcome := outcome input score
  let stepUp := outcome == .stepUp || outcome == .quarantine
  { score := score
    labels := dedupe (if outcome = .deny then t.labels ++ ["admin-review-required"] else t.labels)
    outcome := outcome
    requiredAcr := if stepUp then some "phr" else none
    requiredAmr := if stepUp then ["webauthn"] else []
    pepForceInspect := outcome == .forceInspect
    pepForceTunnel := outcome == .forceTunnel
    rateLimitProfile := if outcome = .rateLimit then some "pep-standard" else none
    auditLevel := if outcome = .allow ∨ outcome = .stepUp then none else some "high" }

end Qid.Risk
