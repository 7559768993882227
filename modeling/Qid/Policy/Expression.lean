/-
Policy expressions and their evaluation.

A translation of the context, the condition operators and the expression evaluator of
`qid-policy/src/models.rs`. An evaluation is three valued: `none` stands for evidence that is
absent.
-/
import Qid.Core.Json

namespace Qid.Policy

open Json

structure PolicyContext where
  subjectId : Option String := none
  groups : List String := []
  roles : List String := []
  entitlements : List String := []
  deviceId : Option String := none
  posture : List String := []
  acr : Option String := none
  authAgeSeconds : Option UInt64 := none
  riskScore : Option UInt64 := none
  resourceHost : Option String := none
  resourceAction : Option String := none
  pepRegistration : Option String := none

namespace PolicyContext

variable (ctx : PolicyContext)

def effectivePepRegistration : Option String := ctx.pepRegistration

/-- The evidence values of a field path, or `none` when the input is absent.
Present but empty lists stay `some`. -/
def resolveFieldPath (path : String) : Option (List Value) :=
  match (stripPrefix "context." path).getD path with
  | "group" | "groups" => some (ctx.groups.map .string)
  | "role" | "roles" => some (ctx.roles.map .string)
  | "posture" | "device.posture" => some (ctx.posture.map .string)
  | "acr" | "auth.acr" => ctx.acr.map fun acr => [.string acr]
  | "auth_age_seconds" | "auth.age_seconds" =>
    ctx.authAgeSeconds.map fun age => [.number (.posInt age)]
  | "risk_score" | "risk.score" => ctx.riskScore.map fun score => [.number (.posInt score)]
  | "resource.host" => ctx.resourceHost.map fun host => [.string host]
  | "resource.action" => ctx.resourceAction.map fun action => [.string action]
  | "subject_id" | "subject" | "principal" => ctx.subjectId.map fun subject => [.string subject]
  | "device_id" | "device.id" => ctx.deviceId.map fun device => [.string device]
  | "pep_registration" | "pep.registration" =>
    ctx.effectivePepRegistration.map fun registration => [.string registration]
  | _ => none

def inGroup (groupName : String) : Bool := ctx.groups.any fun g => g == groupName

def actionMatches (actionPattern : String) : Bool :=
  match ctx.resourceAction with
  | some actual => if actionPattern == "*" then true else actionPattern == actual
  | none => false

end PolicyContext

def globMatch (pattern value : String) : Bool :=
  if pattern == "*" then
    true
  else
    match stripPrefix "*." pattern with
    | some suffix => value == suffix || endsWith ("." ++ suffix) value
    | none =>
      match stripSuffix "/*" pattern with
      | some dir => value == dir || startsWith (dir ++ "/") value
      | none => pattern == value

def PolicyContext.hostMatches (ctx : PolicyContext) (hostPattern : String) : Bool :=
  match ctx.resourceHost with
  | some actual => globMatch hostPattern actual
  | none => false

structure Condition where
  field : String
  op : String
  value : Value

/-- `f64::partial_cmp`. -/
def floatCompare (x y : Float) : Option Ordering :=
  if x < y then some .lt
  else if x == y then some .eq
  else if y < x then some .gt
  else none

/-- Unsigned first, then signed, then as floats. -/
def numericCompare (a b : Number) : Option Ordering :=
  match a.asU64, b.asU64 with
  | some x, some y => some (compare x y)
  | _, _ =>
    match a.asI64, b.asI64 with
    | some x, some y => some (compare x y)
    | _, _ => do
      let x ← a.asF64
      let y ← b.asF64
      floatCompare x y

/-- The first value and the operand are numbers whose order satisfies the test. -/
def orderTest (test : Ordering → Bool) (values : List Value) (operand : Value) : Bool :=
  match values.head?, operand with
  | some (.number a), .number b => (numericCompare a b).any test
  | _, _ => false

def applyOp (ctx : PolicyContext) (op : String) (values : List Value) (operand : Value) : Bool :=
  match op with
  | "equals" | "==" => values.any fun v => v == operand
  | "contains" | "has" => values.any fun v =>
    match v, operand with
    | .string s, .string target => s == target
    | _, _ => false
  | "in" | "member_of" =>
    match operand with
    | .array arr => values.any fun v => arr.any fun item => item == v
    | .string group => ctx.inGroup group
    | _ => false
  | "like" | "matches" =>
    match values.head?, operand with
    | some (.string s), .string pattern => globMatch pattern s
    | _, _ => false
  | "lt" | "<" => orderTest (· == .lt) values operand
  | "gt" | ">" => orderTest (· == .gt) values operand
  | "gte" | ">=" => orderTest (· != .lt) values operand
  | "lte" | "<=" => orderTest (· != .gt) values operand
  | _ => false

/-- `some` on present evidence, `none` when the field is absent. -/
def conditionMatches (condition : Condition) (ctx : PolicyContext) : Option Bool :=
  (ctx.resolveFieldPath condition.field).map fun values =>
    applyOp ctx condition.op values condition.value

inductive Expression where
  | condition (c : Condition)
  | and (es : List Expression)
  | or (es : List Expression)
  | not (e : Expression)
  | inGroup (group : String)
  | matchAction (action : String)
  | rebacCheck (ns objectId relation subjectNamespace : String)

/-- Namespace, object, relation, subject namespace, subject. -/
abbrev RebacEvaluator : Type := String → String → String → String → String → QidResult Bool

def resultOk {α : Type} : QidResult α → Option α
  | .ok a => some a
  | .error _ => none

mutual

def evaluateExpression (ctx : PolicyContext) (rebac : Option RebacEvaluator) :
    Expression → Option Bool
  | .condition c => conditionMatches c ctx
  | .and es => evaluateLoop ctx rebac false false es
  | .or es => evaluateLoop ctx rebac true false es
  | .not e => (evaluateExpression ctx rebac e).map (!·)
  | .inGroup group => some (ctx.inGroup group)
  | .matchAction action => some (ctx.actionMatches action)
  | .rebacCheck ns objectId relation subjectNamespace => do
    let check ← rebac
    let subjectId ← ctx.subjectId
    -- A failed check stays unknown.
    resultOk (check ns objectId relation subjectNamespace subjectId)

/-- Return at the first `stop`, and remember whether an operand was unknown. -/
def evaluateLoop (ctx : PolicyContext) (rebac : Option RebacEvaluator) (stop : Bool) :
    Bool → List Expression → Option Bool
  | unknown, [] => if unknown then none else some !stop
  | unknown, e :: es =>
    match evaluateExpression ctx rebac e with
    | some b => if b = stop then some stop else evaluateLoop ctx rebac stop unknown es
    | none => evaluateLoop ctx rebac stop true es

end

end Qid.Policy
