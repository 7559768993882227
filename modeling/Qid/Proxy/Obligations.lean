/-
Obligations of a decision.

A translation of `pep_decision_obligations` and `authzen_obligations` of
`qid-proxy/src/pep_decision.rs`, in the order of the source.
-/
import Qid.Proxy.Request

namespace Qid.Proxy

open Lib Json Policy

/-- An obligation, as both kinds of responses carry it. -/
structure Obligation where
  ns : String
  version : String
  name : String
  parameters : Value

def optionalText : Option String → Value
  | none => .null
  | some text => .string text

def optionalNumber : Option UInt64 → Value
  | none => .null
  | some n => .number (.posInt n)

def headersValue (headers : List (String × String)) : Value :=
  .object (headers.map fun h => (h.1, .string h.2))

def enabledValue (enabled : Bool) : Value := .object [("enabled", .bool enabled)]

def profileValue (profile : String) : Value := .object [("profile", .string profile)]

def upstreamValue (pep : PepPolicyActions) : Value :=
  .object [
    ("mirror_upstreams", .array (pep.mirrorUpstreams.map .string)),
    ("override_upstream", optionalText pep.overrideUpstream),
    ("timeout_override_ms", optionalNumber pep.timeoutOverrideMs)]

def PepPolicyActions.changesUpstream (pep : PepPolicyActions) : Bool :=
  pep.overrideUpstream.isSome || pep.timeoutOverrideMs.isSome || !pep.mirrorUpstreams.isEmpty

def requireCapabilityAny (refusal : String) (capabilities accepted : List String) :
    QidResult Unit :=
  ensure (accepted.any (fun capability => capabilities.contains capability) = true)
    (.unauthorized (refusal ++ " " ++ "|".intercalate accepted))

def onSome {α : Type} (effect : Option α) (f : α → QidResult (List Obligation)) :
    QidResult (List Obligation) :=
  match effect with
  | none => .ok []
  | some a => f a

/-- Obligations of rules keep their own namespace and name the capability they ask for. -/
def typedObligations (require : String → QidResult Unit) (obligations : List TypedObligation) :
    QidResult (List Obligation) :=
  obligations.mapM fun obligation => do
    match obligation.capability with
    | none => pure ()
    | some capability => require capability
    return {
      ns := obligation.ns
      version := obligation.version
      name := obligation.name
      parameters := obligation.payload }

def requirePepCapabilityAny : List String → List String → QidResult Unit :=
  requireCapabilityAny "PEP registration lacks required decision capability"

variable (capabilities : List String)

def requirePepCapability (capability : String) : QidResult Unit :=
  requirePepCapabilityAny capabilities [capability]

variable (name : String) (parameters : Value)

def qidDecisionObligation : Obligation where
  ns := "urn:qid:decision:obligation:pep"
  version := "1"
  name := name
  parameters := parameters

def pepDecisionWireDecision : Decision → String
  | .allow | .auditOnly => "allow"
  | .deny | .quarantine | .conditional => "deny"
  | .stepUp | .consentRequired => "challenge"
  | .localResponse | .approvalRequired => "local_response"

variable (decision : Decision)

/-- `pep_decision_policy_decision_label` has the texts of `as_str`. -/
def pepDecisionPolicyDecisionLabel : String := decision.asStr

def localResponseStatus : Decision → UInt64 × String
  | .deny => (403, "access_denied")
  | .stepUp => (302, "step_up_required")
  | .consentRequired => (302, "consent_required")
  | .localResponse => (403, "access_denied")
  | .approvalRequired => (403, "approval_required")
  | .quarantine => (403, "quarantine_required")
  | .conditional => (403, "conditional_decision_unenforceable")
  | .allow | .auditOnly => (200, "ok")

def qidLocalResponsePayload (decisionId : String) : Value :=
  .object [
    ("body", .object [
      ("decision_id", .string decisionId),
      ("error", .string (localResponseStatus decision).2)]),
    ("content_type", .string "application/json"),
    ("status", .number (.posInt (localResponseStatus decision).1))]

def auditSeverity : Decision → String
  | .allow | .auditOnly | .quarantine => "normal"
  | .stepUp | .consentRequired | .approvalRequired => "medium"
  | .deny | .localResponse | .conditional => "high"

/-- One obligation, if the adapter has the capability of its name. -/
def pepEffect : QidResult (List Obligation) := do
  requirePepCapability capabilities name
  return [qidDecisionObligation name parameters]

def pepDecisionEffect (decisionId : String) : QidResult (List Obligation) :=
  match decision with
  | .stepUp | .consentRequired =>
    pepEffect capabilities "challenge" (.object [
      ("decision_id", .string decisionId),
      ("reason", .string (pepDecisionPolicyDecisionLabel decision))])
  | .deny | .localResponse | .approvalRequired | .quarantine | .conditional =>
    pepEffect capabilities "local_response" (qidLocalResponsePayload decision decisionId)
  | .allow | .auditOnly => .ok []

def pepDecisionObligations (details : DecisionDetails) (risk : PepDecisionRiskAdvisory)
    (decisionId : String) (capabilities : List String) : QidResult (List Obligation) := do
  let typed ← typedObligations (requirePepCapability capabilities) details.obligations
  let decided ← pepDecisionEffect capabilities details.decision decisionId
  let headers ← onSome details.injectHeaders fun headers =>
    pepEffect capabilities "inject_headers" (.object [
      ("request_add", .object [("x-qid-decision-id", .array [.string decisionId])]),
      ("request_set", headersValue headers)])
  let rateLimit ← onSome (details.rateLimitProfile.or risk.rateLimitProfile) fun profile => do
    requirePepCapabilityAny capabilities ["rate_limit_profile", "rate_limit"]
    return [qidDecisionObligation "rate_limit_profile" (profileValue profile)]
  let upstream ←
    if PepPolicyActions.changesUpstream details.pep then
      pepEffect capabilities "override_upstream" (upstreamValue details.pep)
    else .ok []
  let inspect ← onSome (details.pep.forceInspect.or risk.forceInspect) fun enabled =>
    pepEffect capabilities "force_inspect" (enabledValue enabled)
  let tunnel ← onSome (details.pep.forceTunnel.or risk.forceTunnel) fun enabled =>
    pepEffect capabilities "force_tunnel" (enabledValue enabled)
  let bypass ← onSome (details.pep.cacheBypass.or risk.cacheBypass) fun enabled =>
    pepEffect capabilities "cache_bypass" (enabledValue enabled)
  return typed ++ decided ++ headers ++ rateLimit ++ upstream ++ inspect ++ tunnel ++ bypass

def requireAuthzenCapability (capability : String) : QidResult Unit :=
  requireCapabilityAny "AuthZEN adapter lacks required obligation capability" capabilities
    [capability]

def requireAuthzenCapabilityAny : List String → List String → QidResult Unit :=
  requireCapabilityAny "authenticated AuthZEN adapter does not advertise required capability"

def qidPepObligation : Obligation where
  ns := "urn:qid:authzen:extension:qid:pep"
  version := "1"
  name := name
  parameters := parameters

/-- One obligation, if the adapter has the capability of its name. -/
def authzenEffect : QidResult (List Obligation) := do
  requireAuthzenCapability capabilities name
  return [qidPepObligation name parameters]

/-- The text of a local response is the name of the variant in lower case. -/
def authzenDecisionEffect : Decision → QidResult (List Obligation)
  | .quarantine => authzenEffect capabilities "quarantine" (.object [])
  | .auditOnly => authzenEffect capabilities "audit" (.object [("mode", .string "audit_only")])
  | .stepUp => authzenEffect capabilities "challenge" (.object [("type", .string "step_up")])
  | .consentRequired =>
    authzenEffect capabilities "challenge" (.object [("type", .string "consent")])
  | .localResponse =>
    authzenEffect capabilities "local_response" (.object [("decision", .string "localresponse")])
  | .approvalRequired =>
    authzenEffect capabilities "local_response" (.object [("decision", .string "approvalrequired")])
  | .allow | .deny | .conditional => .ok []

def authzenObligations (details : DecisionDetails) (capabilities : List String) :
    QidResult (List Obligation) := do
  let typed ← typedObligations (requireAuthzenCapability capabilities) details.obligations
  let decided ← authzenDecisionEffect capabilities details.decision
  let headers ← onSome details.injectHeaders fun headers =>
    authzenEffect capabilities "inject_headers" (.object [("request_set", headersValue headers)])
  let rateLimit ← onSome details.rateLimitProfile fun profile => do
    requireAuthzenCapabilityAny capabilities ["rate_limit_profile", "rate_limit"]
    return [qidPepObligation "rate_limit_profile" (profileValue profile)]
  let upstream ←
    if PepPolicyActions.changesUpstream details.pep then
      authzenEffect capabilities "override_upstream" (upstreamValue details.pep)
    else .ok []
  let inspect ← onSome details.pep.forceInspect fun enabled =>
    authzenEffect capabilities "force_inspect" (enabledValue enabled)
  let tunnel ← onSome details.pep.forceTunnel fun enabled =>
    authzenEffect capabilities "force_tunnel" (enabledValue enabled)
  let bypass ← onSome details.pep.cacheBypass fun enabled =>
    authzenEffect capabilities "cache_bypass" (enabledValue enabled)
  let tags ←
    if details.policyTags.isEmpty then .ok []
    else authzenEffect capabilities "policy_tags" (.object [
      ("tags", .array (details.policyTags.map .string))])
  return typed ++ decided ++ headers ++ rateLimit ++ upstream ++ inspect ++ tunnel ++ bypass ++ tags

variable {capabilities capabilities' : List String}
  (h : ∀ capability, capability ∈ capabilities ↔ capability ∈ capabilities')
include h

theorem requireCapabilityAny_congr (refusal : String) (accepted : List String) :
    requireCapabilityAny refusal capabilities accepted =
      requireCapabilityAny refusal capabilities' accepted := by
  have hcontains : ∀ capability, capabilities.contains capability =
      capabilities'.contains capability := by
    intro capability
    rw [Bool.eq_iff_iff, List.contains_iff_mem, List.contains_iff_mem]
    exact h capability
  simp only [requireCapabilityAny, hcontains]

theorem requirePepCapability_congr :
    requirePepCapability capabilities = requirePepCapability capabilities' := by
  funext capability
  exact requireCapabilityAny_congr h _ _

theorem pepDecisionObligations_congr (details : DecisionDetails)
    (risk : PepDecisionRiskAdvisory) (decisionId : String) :
    pepDecisionObligations details risk decisionId capabilities =
      pepDecisionObligations details risk decisionId capabilities' := by
  have hany : ∀ accepted, requirePepCapabilityAny capabilities accepted =
      requirePepCapabilityAny capabilities' accepted := requireCapabilityAny_congr h _
  have heffect : pepEffect capabilities = pepEffect capabilities' := by
    funext name parameters
    rw [pepEffect, requirePepCapability_congr h, pepEffect]
  have hdecision : pepDecisionEffect capabilities = pepDecisionEffect capabilities' := by
    funext decision decisionId
    cases decision <;> simp only [pepDecisionEffect, heffect]
  simp only [pepDecisionObligations, requirePepCapability_congr h, hdecision, heffect, hany]

end Qid.Proxy
