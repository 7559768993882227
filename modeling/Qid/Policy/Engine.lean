/-
The native policy engine.

A translation of `qid-policy/src/native.rs` and of the records of `models.rs` that it reads and
returns. A map of headers is the list of its entries in the order of the keys. The trace of an
evaluation, which is only logged, is left out.
-/
import Qid.Policy.Expression

namespace Qid.Policy

open Json

inductive Decision where
  | allow
  | deny
  | stepUp
  | consentRequired
  | localResponse
  | approvalRequired
  | quarantine
  | auditOnly
  | conditional
  deriving DecidableEq

inductive DecisionCacheClass where
  | positive
  | negative
  deriving DecidableEq

namespace Decision

def asStr : Decision → String
  | allow => "allow"
  | deny => "deny"
  | stepUp => "step_up"
  | consentRequired => "consent_required"
  | localResponse => "local_response"
  | approvalRequired => "approval_required"
  | quarantine => "quarantine"
  | auditOnly => "audit_only"
  | conditional => "conditional"

def parse : String → Option Decision
  | "allow" => some allow
  | "deny" => some deny
  | "step_up" => some stepUp
  | "consent_required" => some consentRequired
  | "local_response" => some localResponse
  | "approval_required" => some approvalRequired
  | "quarantine" => some quarantine
  | "audit_only" => some auditOnly
  | "conditional" => some conditional
  | _ => none

/-- A positive decision is a stable or held outcome, not a grant. -/
def cacheClass : Decision → DecisionCacheClass
  | allow | auditOnly | quarantine => .positive
  | deny | stepUp | consentRequired | localResponse | approvalRequired | conditional => .negative

end Decision

structure TypedObligation where
  ns : String
  version : String
  name : String
  capability : Option String
  payload : Value

structure PepPolicyActions where
  overrideUpstream : Option String := none
  timeoutOverrideMs : Option UInt64 := none
  mirrorUpstreams : List String := []
  forceInspect : Option Bool := none
  forceTunnel : Option Bool := none
  cacheBypass : Option Bool := none
  deriving DecidableEq

inductive RuleType where
  | allow
  | forbid
  | stepUp
  deriving DecidableEq

structure Rule where
  name : String
  ruleType : RuleType
  action : String
  resourceHost : Option String := none
  conditions : List Condition := []
  expression : Option Expression := none
  rateLimitProfile : Option String := none
  injectHeaders : Option (List (String × String)) := none
  pep : PepPolicyActions := {}

structure PolicyBundle where
  version : String
  rules : List Rule
  defaultDecision : Decision

structure DecisionDetails where
  decision : Decision
  policyId : String
  rateLimitProfile : Option String := none
  policyTags : List String := []
  injectHeaders : Option (List (String × String)) := none
  pep : PepPolicyActions := {}
  matchedRules : List String := []
  obligations : List TypedObligation := []

structure NativePolicyEngine where
  bundle : Option PolicyBundle := none
  bundleId : String := "default"
  rebacEvaluator : Option RebacEvaluator := none

def actionMatches (pattern action : String) : Bool := pattern == "*" || pattern == action

/-- A pattern `*.suffix` is compared with its dot, so it does not match `suffix` itself. -/
def hostMatches (pattern host : String) : Bool :=
  if pattern == "*" then true
  else if startsWith "*." pattern then endsWith (String.ofList (pattern.toList.drop 1)) host
  else pattern == host

/-- Absent evidence never satisfies a rule. -/
def ruleMatches (rule : Rule) (ctx : PolicyContext) (rebac : Option RebacEvaluator) : Bool :=
  actionMatches rule.action (ctx.resourceAction.getD "") &&
    rule.resourceHost.all (fun host => hostMatches host (ctx.resourceHost.getD "")) &&
    rule.conditions.all (fun condition => conditionMatches condition ctx == some true) &&
    rule.expression.all (fun expr => evaluateExpression ctx rebac expr == some true)

/-- A `like` condition on the host and the filter of a rule agree on these hosts only: a pattern
`*.suffix` takes `suffix` itself in a condition alone, and `dir/*` is a pattern there alone. -/
theorem host_patterns_agree_iff (pattern host : String) (ctx : PolicyContext) :
    conditionMatches ⟨"resource.host", "like", .string pattern⟩
          { ctx with resourceHost := some host } = some (hostMatches pattern host) ∧
        { ctx with resourceHost := some host }.hostMatches pattern = hostMatches pattern host ↔
      stripPrefix "*." pattern ≠ some host ∧
      (stripPrefix "*." pattern = none → ∀ dir, stripSuffix "/*" pattern = some dir →
        host ≠ dir ∧ (startsWith (dir ++ "/") host = true → host = pattern)) := by
  have hfield : stripPrefix "context." "resource.host" = none := by decide
  simp only [conditionMatches, PolicyContext.resolveFieldPath, hfield, applyOp,
    PolicyContext.hostMatches, Option.getD_none, Option.map_some, List.head?_cons, globMatch,
    hostMatches, startsWith_eq_isSome]
  by_cases hany : pattern = "*"
  · subst hany
    have hs : stripSuffix "/*" "*" = none := by decide
    have hp : stripPrefix "*." "*" = none := by decide
    simp [hs, hp]
  rw [if_neg (by simpa using hany), if_neg (by simpa using hany)]
  cases hstrip : stripPrefix "*." pattern with
  | some suffix =>
    rw [stripPrefix_eq_some] at hstrip
    -- the dot makes the suffix longer than the host it would have to end
    have hlonger : endsWith ("." ++ suffix) suffix = false := by
      rw [← Bool.not_eq_true, endsWith, List.isSuffixOf_iff_suffix]
      intro hsuffix
      exact absurd hsuffix.length_le (by simp)
    subst hstrip
    by_cases hhost : host = suffix
    · simp [hhost, hlonger]
    · simp [hhost, Ne.symm hhost]
  | none =>
    cases hdir : stripSuffix "/*" pattern with
    | some dir =>
      rw [stripSuffix_eq_some] at hdir
      have hstart : stripPrefix (dir ++ "/") pattern = some "*" := by
        rw [stripPrefix_eq_some, hdir, String.append_assoc]
        rfl
      have hne : dir ≠ pattern := by
        intro heq
        simpa [← heq] using congrArg String.length hdir
      by_cases hhost : host = pattern
      · simp [hhost, hstart, hne.symm]
      · have hother : (pattern == host) = false := by simpa using Ne.symm hhost
        simp [hhost, hother]
    | none => simp

theorem apex_host_misses_filter :
    hostMatches "*.example.com" "example.com" = false ∧
    conditionMatches ⟨"resource.host", "like", .string "*.example.com"⟩
      { resourceHost := some "example.com" } = some true := by
  decide

namespace NativePolicyEngine

variable (engine : NativePolicyEngine)

def load (bundle : PolicyBundle) (bundleId : String) : NativePolicyEngine :=
  { engine with bundle := some bundle, bundleId := bundleId }

def withRebacEvaluator (evaluator : RebacEvaluator) : NativePolicyEngine :=
  { engine with rebacEvaluator := some evaluator }

def firstMatch (ruleType : RuleType) (ctx : PolicyContext) : Option Rule :=
  engine.bundle.bind fun bundle =>
    bundle.rules.find? fun rule =>
      decide (rule.ruleType = ruleType) && ruleMatches rule ctx engine.rebacEvaluator

def ruleDetails (decision : Decision) (tag : String) (rule : Rule) : DecisionDetails where
  decision := decision
  policyId := rule.name
  policyTags := [tag ++ rule.name]
  pep := rule.pep
  matchedRules := [rule.name]

def defaultDetails : DecisionDetails :=
  let decision := (engine.bundle.map PolicyBundle.defaultDecision).getD .deny
  { decision := decision
    policyId := engine.bundleId
    policyTags := ["qid:default-" ++ decision.asStr] }

/-- `decide`, a reserved word here. -/
def decision (ctx : PolicyContext) : DecisionDetails :=
  match engine.firstMatch .forbid ctx with
  | some rule => ruleDetails .deny "qid:forbid:" rule
  | none =>
    match engine.firstMatch .stepUp ctx with
    | some rule => ruleDetails .stepUp "qid:step-up:" rule
    | none =>
      match engine.firstMatch .allow ctx with
      | some rule =>
        { ruleDetails .allow "qid:allow:" rule with
          rateLimitProfile := rule.rateLimitProfile
          injectHeaders := rule.injectHeaders }
      | none => engine.defaultDetails

def Fires (engine : NativePolicyEngine) (ctx : PolicyContext) (ruleType : RuleType) : Prop :=
  ∃ bundle ∈ engine.bundle, ∃ rule ∈ bundle.rules,
    rule.ruleType = ruleType ∧ ruleMatches rule ctx engine.rebacEvaluator = true

/-- A rule, and not the default, gives the decision. -/
def ByRule (details : DecisionDetails) (decision : Decision) : Prop :=
  details.decision = decision ∧ details.matchedRules ≠ []

/-- Rules that forbid come before rules that step up, and these before rules that allow; without
one that matches the default decides. -/
structure Prioritised (engine : NativePolicyEngine) (ctx : PolicyContext) (default : Decision) :
    Prop where
  forbid : ByRule (engine.decision ctx) .deny ↔ engine.Fires ctx .forbid
  stepUp : ByRule (engine.decision ctx) .stepUp ↔
    ¬ engine.Fires ctx .forbid ∧ engine.Fires ctx .stepUp
  allow : ByRule (engine.decision ctx) .allow ↔
    ¬ engine.Fires ctx .forbid ∧ ¬ engine.Fires ctx .stepUp ∧ engine.Fires ctx .allow
  default : ¬ engine.Fires ctx .forbid ∧ ¬ engine.Fires ctx .stepUp ∧ ¬ engine.Fires ctx .allow →
    (engine.decision ctx).decision = default

variable {engine engine' : NativePolicyEngine} {ctx : PolicyContext} {ruleType : RuleType}
  {default : Decision}

theorem firstMatch_isSome :
    (engine.firstMatch ruleType ctx).isSome = true ↔ engine.Fires ctx ruleType := by
  rw [firstMatch, Fires]
  cases engine.bundle <;> simp

variable {bundle : PolicyBundle}

theorem prioritised (h : engine.bundle = some bundle) :
    Prioritised engine ctx bundle.defaultDecision := by
  constructor <;> simp only [← firstMatch_isSome, ByRule, decision]
  all_goals
    cases engine.firstMatch .forbid ctx with
    | some => simp [ruleDetails]
    | none =>
      cases engine.firstMatch .stepUp ctx with
      | some => simp [ruleDetails]
      | none => cases engine.firstMatch .allow ctx <;> simp [ruleDetails, defaultDetails, h]

theorem Prioritised.decision_eq (h : Prioritised engine ctx default)
    (h' : Prioritised engine' ctx default)
    (hfires : ∀ ruleType, engine.Fires ctx ruleType ↔ engine'.Fires ctx ruleType) :
    (engine.decision ctx).decision = (engine'.decision ctx).decision := by
  by_cases hforbid : engine.Fires ctx .forbid
  · exact (h.forbid.mpr hforbid).1.trans (h'.forbid.mpr ((hfires _).mp hforbid)).1.symm
  by_cases hstepUp : engine.Fires ctx .stepUp
  · have hdecision := h.stepUp.mpr ⟨hforbid, hstepUp⟩
    rw [hfires] at hforbid hstepUp
    exact hdecision.1.trans (h'.stepUp.mpr ⟨hforbid, hstepUp⟩).1.symm
  by_cases hallow : engine.Fires ctx .allow
  · have hdecision := h.allow.mpr ⟨hforbid, hstepUp, hallow⟩
    rw [hfires] at hforbid hstepUp hallow
    exact hdecision.1.trans (h'.allow.mpr ⟨hforbid, hstepUp, hallow⟩).1.symm
  · have hdecision := h.default ⟨hforbid, hstepUp, hallow⟩
    rw [hfires] at hforbid hstepUp hallow
    exact hdecision.trans (h'.default ⟨hforbid, hstepUp, hallow⟩).symm

variable {bundleId : String}

theorem fires_load :
    (engine.load bundle bundleId).Fires ctx ruleType ↔ ∃ rule ∈ bundle.rules,
      rule.ruleType = ruleType ∧ ruleMatches rule ctx engine.rebacEvaluator = true := by
  simp [Fires, load]

def decisionWith (engine : NativePolicyEngine) (bundle : PolicyBundle) (bundleId : String)
    (ctx : PolicyContext) (rules : List Rule) : Decision :=
  ((engine.load { bundle with rules := rules } bundleId).decision ctx).decision

theorem decisionWith_eq {rules : List Rule}
    (h : ∀ rule, ruleMatches rule ctx engine.rebacEvaluator = true →
      (rule ∈ rules ↔ rule ∈ bundle.rules)) :
    engine.decisionWith bundle bundleId ctx rules =
      engine.decisionWith bundle bundleId ctx bundle.rules := by
  have hbundle : Prioritised (engine.load bundle bundleId) ctx bundle.defaultDecision :=
    prioritised rfl
  refine Prioritised.decision_eq (prioritised rfl) hbundle fun ruleType => ?_
  rw [fires_load, fires_load]
  exact exists_congr fun rule => and_congr_left fun hrule => h rule hrule.2

/-- The decision is a priority over the rules that match: their order and the other rules do not
change it, and a rule that forbids makes no decision an `Allow`. -/
theorem decision_by_matching_rules (engine : NativePolicyEngine) (bundle : PolicyBundle)
    (bundleId : String) (ctx : PolicyContext) :
    Prioritised (engine.load bundle bundleId) ctx bundle.defaultDecision ∧
    ∀ rules,
      (rules.Perm bundle.rules ∨ (∀ rule, ruleMatches rule ctx engine.rebacEvaluator = true →
          (rule ∈ rules ↔ rule ∈ bundle.rules)) →
        engine.decisionWith bundle bundleId ctx rules =
          engine.decisionWith bundle bundleId ctx bundle.rules) ∧
      ∀ rule, rule.ruleType = .forbid → rules.Perm (rule :: bundle.rules) →
        engine.decisionWith bundle bundleId ctx bundle.rules ≠ .allow →
        engine.decisionWith bundle bundleId ctx rules ≠ .allow := by
  refine ⟨prioritised rfl, fun rules => ⟨fun h => ?_, fun rule hrule hperm hdecision => ?_⟩⟩
  · rcases h with hperm | hmatching
    · exact decisionWith_eq fun rule _ => hperm.mem_iff
    · exact decisionWith_eq hmatching
  · by_cases hmatches : ruleMatches rule ctx engine.rebacEvaluator = true
    · have hfires : (engine.load { bundle with rules := rules } bundleId).Fires ctx .forbid :=
        fires_load.mpr ⟨rule, hperm.mem_iff.mpr List.mem_cons_self, hrule, hmatches⟩
      rw [decisionWith, ((prioritised rfl).forbid.mpr hfires).1]
      decide
    · rw [decisionWith_eq fun rule' hrule' => ?_]
      · exact hdecision
      · rw [hperm.mem_iff, List.mem_cons]
        exact or_iff_right fun heq => hmatches (heq ▸ hrule')

end NativePolicyEngine

/-! ## What a decision reads

No rule reads the entitlements of the subject. The id of a bundle is read for the default
decision only, and does not change what is decided. -/

variable (ctx : PolicyContext) (rebac : Option RebacEvaluator) (entitlements : List String)

mutual

theorem evaluateExpression_entitlements : (e : Expression) →
    evaluateExpression { ctx with entitlements := entitlements } rebac e =
      evaluateExpression ctx rebac e
  | .condition _ => by
    simp only [evaluateExpression]
    rfl
  | .and es => by
    simp only [evaluateExpression]
    exact evaluateLoop_entitlements ..
  | .or es => by
    simp only [evaluateExpression]
    exact evaluateLoop_entitlements true false es
  | .not e => by
    simp only [evaluateExpression]
    rw [evaluateExpression_entitlements e]
  | .inGroup _ | .matchAction _ => by
    simp only [evaluateExpression]
    rfl
  | .rebacCheck .. => by
    simp only [evaluateExpression]

theorem evaluateLoop_entitlements (stop unknown : Bool) : (es : List Expression) →
    evaluateLoop { ctx with entitlements := entitlements } rebac stop unknown es =
      evaluateLoop ctx rebac stop unknown es
  | [] => by simp only [evaluateLoop]
  | e :: es => by
    simp only [evaluateLoop]
    rw [evaluateExpression_entitlements e, evaluateLoop_entitlements stop true es,
      evaluateLoop_entitlements stop unknown es]

end

end Qid.Policy
