/-
The identity broker.

A translation of the routing and planning of `qid-federation/src/broker.rs`. The profiles of named
providers and the checks of ID tokens are left out, and so are the fields only those read.
-/
import Qid.Core.Fields
import Qid.Lib.Checked
import Qid.Lib.HashMap

namespace Qid.Federation

open Lib Json

inductive InboundProviderKind where
  | oidc
  | saml
  | entraId
  | googleWorkspace
  | okta
  | ldapAdBind
  | social
  deriving DecidableEq

structure ClaimMapping where
  source : String
  target : String
  required : Bool := false
  deriving DecidableEq

structure InboundIdentityProvider where
  id : String
  kind : InboundProviderKind
  issuer : String
  enabled : Bool := false
  domains : List String := []
  socialProvider : Option String := none
  jitProvisioning : Bool := false
  accountLinking : Bool := false
  claimMappings : List ClaimMapping := []
  trustedAudiences : List String := []
  deriving DecidableEq

structure HomeRealmDiscoveryRequest where
  loginHint : Option String := none
  domain : Option String := none
  idpHint : Option String := none
  socialProvider : Option String := none
  deriving DecidableEq

/-- The claims are sorted by their names. -/
structure ExternalIdentityClaims where
  issuer : String
  subject : String
  claims : Fields

structure BrokerAccountLink where
  providerId : String
  externalSubject : String
  localSubject : String
  deriving DecidableEq

structure BrokerRouteDecision where
  providerId : String
  providerKind : InboundProviderKind
  reason : String
  jitProvisioning : Bool
  accountLinking : Bool
  deriving DecidableEq

structure BrokerLoginPlan where
  route : BrokerRouteDecision
  normalizedClaims : Fields
  linkedSubject : Option String
  createSubject : Bool

def brokerError (code message : String) : QidError := .badRequest (code ++ ": " ++ message)

def rsplitOnce (c : Char) (s : String) : Option (String × String) :=
  let after := (s.toList.reverse.takeWhile (· ≠ c)).reverse
  (s.toList.reverse.drop after.length).tail?.map fun before =>
    (String.ofList before.reverse, String.ofList after)

def normalizedDomain (value : String) : Option String :=
  let normalized := toAsciiLowercase (trimStartMatches "@" (trim value))
  if normalized.isEmpty ∨ '/' ∈ normalized.toList ∨ ':' ∈ normalized.toList ∨
      '.' ∉ normalized.toList then none
  else some normalized

def normalizedOptional (value : Option String) : Option String :=
  (value.map trim).filter fun value => !value.isEmpty

def domainMatches (candidate domain : String) : Bool :=
  (normalizedDomain candidate).any fun candidate => candidate == domain

def domainFromLoginHint (loginHint : String) : Option String :=
  (rsplitOnce '@' loginHint).bind fun parts => normalizedDomain parts.2

def InboundProviderKind.hasAudiences : InboundProviderKind → Bool
  | .oidc | .entraId | .googleWorkspace | .okta | .social => true
  | .saml | .ldapAdBind => false

def validateTrustedAudience (seen : List String) (audience : String) : QidResult (List String) := do
  ensure ((trim audience).isEmpty = false) (brokerError "invalid_trusted_audience"
    "Provider trusted_audiences must not contain empty entries")
  ensure (audience ∉ seen) (brokerError "duplicate_trusted_audience"
    "Provider trusted_audiences must not contain duplicates")
  return audience :: seen

variable (provider : InboundIdentityProvider)

/-- `owners` maps the domains of the enabled providers so far. -/
def validateDomain (owners : HashMap String) (domain : String) : QidResult (HashMap String) := do
  let normalized ← okOr (normalizedDomain domain)
    (brokerError "invalid_domain" "Provider domain is invalid")
  if provider.enabled then
    match owners.lookup normalized with
    | some existing =>
      throw (brokerError "duplicate_domain" ("Domain " ++ normalized ++
        " is configured for both " ++ existing ++ " and " ++ provider.id))
    | none => return owners.insert normalized provider.id
  else return owners

def validateProvider (seen : List String × HashMap String) (provider : InboundIdentityProvider) :
    QidResult (List String × HashMap String) := do
  ensure ((trim provider.id).isEmpty = false)
    (brokerError "invalid_provider" "Provider id must not be empty")
  ensure (provider.id ∉ seen.1) (brokerError "duplicate_provider" "Provider id must be unique")
  ensure (provider.enabled = false ∨ (trim provider.issuer).isEmpty = false)
    (brokerError "invalid_provider" "Enabled provider issuer must not be empty")
  ensure (provider.enabled = false ∨ provider.kind ≠ .social ∨ provider.socialProvider.isSome)
    (brokerError "invalid_social_provider" "Social provider routing requires social_provider")
  ensure (provider.trustedAudiences.isEmpty ∨ provider.kind.hasAudiences)
    (brokerError "unsupported_trusted_audiences"
      "Provider trusted_audiences is supported only for OIDC ID-token providers")
  let _ ← provider.trustedAudiences.foldlM validateTrustedAudience []
  let owners ← provider.domains.foldlM (validateDomain provider) seen.2
  return (provider.id :: seen.1, owners)

variable (providers : List InboundIdentityProvider)

def validateInboundProviders : QidResult Unit := do
  let _ ← providers.foldlM validateProvider ([], ∅)
  return ()

def routeDecision (reason : String) : BrokerRouteDecision where
  providerId := provider.id
  providerKind := provider.kind
  reason := reason
  jitProvisioning := provider.jitProvisioning
  accountLinking := provider.accountLinking

variable (request : HomeRealmDiscoveryRequest)

def requestDomain : Option String :=
  (request.domain.bind normalizedDomain).or (request.loginHint.bind domainFromLoginHint)

def routeByDomain (domain : String) : QidResult BrokerRouteDecision :=
  match providers.filter fun provider =>
      provider.enabled && provider.domains.any fun candidate => domainMatches candidate domain with
  | [provider] => .ok (routeDecision provider "domain_discovery")
  | [] => .error (brokerError "home_realm_not_found"
      "No enabled provider matches the requested domain")
  | _ => .error (brokerError "ambiguous_home_realm"
      "Multiple enabled providers match the requested domain")

def servesSocial (socialProvider : String) (provider : InboundIdentityProvider) : Bool :=
  provider.enabled && provider.kind == .social && provider.socialProvider.any fun value =>
    toAsciiLowercase value == toAsciiLowercase socialProvider

def routeInboundProvider : QidResult BrokerRouteDecision := do
  validateInboundProviders providers
  match normalizedOptional request.idpHint, normalizedOptional request.socialProvider with
  | some idpHint, _ =>
    let provider ← okOr (providers.find? fun p => p.enabled && p.id == idpHint)
      (brokerError "unknown_idp_hint" "IdP hint does not match an enabled provider")
    return routeDecision provider "idp_hint"
  | none, some socialProvider =>
    let provider ← okOr (providers.find? (servesSocial socialProvider))
      (brokerError "unknown_social_provider" "Social provider is not configured")
    return routeDecision provider "social_provider"
  | none, none =>
    let domain ← okOr (requestDomain request)
      (brokerError "home_realm_not_found" "No routing signal was provided")
    routeByDomain providers domain

variable (external : ExternalIdentityClaims)

def normalizeClaim (normalized : Fields) (mapping : ClaimMapping) : QidResult Fields :=
  match external.claims.lookup mapping.source with
  | some value => .ok (Fields.insert mapping.target value normalized)
  | none =>
    if mapping.required then
      .error (brokerError "required_claim_missing" "Required external claim is missing")
    else .ok normalized

def normalizeEnterpriseClaims : QidResult Fields :=
  provider.claimMappings.foldlM (normalizeClaim external) [
    ("external_subject", .string external.subject),
    ("issuer", .string external.issuer),
    ("provider_id", .string provider.id)]

def linkedSubject (links : List BrokerAccountLink) : Option String :=
  (links.find? fun link =>
    link.providerId == provider.id && link.externalSubject == external.subject).map
    BrokerAccountLink.localSubject

def planInboundLogin (links : List BrokerAccountLink) : QidResult BrokerLoginPlan := do
  let route ← routeInboundProvider providers request
  let provider ← okOr (providers.find? fun p => p.id == route.providerId)
    (brokerError "provider_not_found" "Selected provider is missing")
  ensure (provider.issuer = external.issuer) (brokerError "issuer_mismatch"
    "External identity issuer does not match selected provider")
  let normalizedClaims ← normalizeEnterpriseClaims provider external
  let linked := linkedSubject provider external links
  ensure (linked.isSome ∨ provider.jitProvisioning)
    (brokerError "jit_disabled" "Provider requires an existing account link")
  ensure (linked.isNone ∨ provider.accountLinking)
    (brokerError "account_linking_disabled" "Provider does not permit account linking")
  return {
    route := route
    normalizedClaims := normalizedClaims
    linkedSubject := linked
    createSubject := linked.isNone }

end Qid.Federation
