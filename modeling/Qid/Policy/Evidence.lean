/-
Evidence and policy expressions.

A context with more of its optional fields filled in, and a ReBAC evaluator that answers more
checks, carry more evidence.
-/
import Qid.Lib.Kleene
import Qid.Policy.Expression

namespace Qid.Policy

open Lib.Kleene Json

/-- A field that is present stays as it is. -/
def FieldKept {α : Type} (x y : Option α) : Prop := ∀ a, x = some a → y = some a

/-- `c'` agrees with `c` on the lists and on every field that is present in `c`. -/
structure MoreEvidence (c c' : PolicyContext) : Prop where
  groups : c'.groups = c.groups
  roles : c'.roles = c.roles
  entitlements : c'.entitlements = c.entitlements
  posture : c'.posture = c.posture
  subjectId : FieldKept c.subjectId c'.subjectId
  deviceId : FieldKept c.deviceId c'.deviceId
  acr : FieldKept c.acr c'.acr
  authAgeSeconds : FieldKept c.authAgeSeconds c'.authAgeSeconds
  riskScore : FieldKept c.riskScore c'.riskScore
  resourceHost : FieldKept c.resourceHost c'.resourceHost
  resourceAction : FieldKept c.resourceAction c'.resourceAction
  pepRegistration : FieldKept c.pepRegistration c'.pepRegistration

/-- `r'` gives the answers of `r` wherever `r` is present and returns `Ok`. -/
def MoreAnswers (r r' : Option RebacEvaluator) : Prop :=
  ∀ f, r = some f → ∃ f', r' = some f' ∧
    ∀ ns objectId relation subjectNamespace subjectId b,
      f ns objectId relation subjectNamespace subjectId = .ok b →
        f' ns objectId relation subjectNamespace subjectId = .ok b

mutual

/-- A `MatchAction` occurs in the expression. -/
def Expression.usesAction : Expression → Bool
  | .condition _ => false
  | .and es | .or es => usesActionIn es
  | .not e => e.usesAction
  | .inGroup _ => false
  | .matchAction _ => true
  | .rebacCheck _ _ _ _ => false

def usesActionIn : List Expression → Bool
  | [] => false
  | e :: es => e.usesAction || usesActionIn es

end

section

variable {c c' : PolicyContext}

theorem FieldKept.map {α β : Type} {x y : Option α} (h : FieldKept x y) (f : α → β) :
    FieldKept (x.map f) (y.map f) := by
  intro b hb
  cases x with
  | none => cases hb
  | some a =>
    rw [h a rfl]
    exact hb

variable (h : MoreEvidence c c')
include h

theorem resolveFieldPath_mono (path : String) :
    FieldKept (c.resolveFieldPath path) (c'.resolveFieldPath path) := by
  unfold PolicyContext.resolveFieldPath
  split
  case h_3 | h_4 => exact fun _ hb => h.roles ▸ hb
  case h_1 | h_2 => exact fun _ hb => h.groups ▸ hb
  case h_5 | h_6 => exact fun _ hb => h.posture ▸ hb
  case h_7 | h_8 => exact h.acr.map _
  case h_9 | h_10 => exact h.authAgeSeconds.map _
  case h_11 | h_12 => exact h.riskScore.map _
  case h_13 => exact h.resourceHost.map _
  case h_14 => exact h.resourceAction.map _
  case h_15 | h_16 | h_17 => exact h.subjectId.map _
  case h_18 | h_19 => exact h.deviceId.map _
  case h_20 | h_21 => exact h.pepRegistration.map _
  case h_22 => exact fun _ hb => nomatch hb

theorem inGroup_eq (group : String) : c'.inGroup group = c.inGroup group := by
  rw [PolicyContext.inGroup, PolicyContext.inGroup, h.groups]

theorem conditionMatches_mono (condition : Condition) :
    Info (conditionMatches condition c) (conditionMatches condition c') := by
  intro b hb
  unfold conditionMatches at hb ⊢
  obtain ⟨values, hvalues, hop⟩ := Option.map_eq_some_iff.mp hb
  rw [resolveFieldPath_mono h condition.field values hvalues, Option.map_some, ← hop]
  -- an operator reads the context only for its groups
  simp only [applyOp, inGroup_eq h]

theorem rebacCheck_mono {r r' : Option RebacEvaluator} (hr : MoreAnswers r r')
    (ns objectId relation subjectNamespace : String) :
    Info (evaluateExpression c r (.rebacCheck ns objectId relation subjectNamespace))
      (evaluateExpression c' r' (.rebacCheck ns objectId relation subjectNamespace)) := by
  intro b hb
  rw [evaluateExpression] at hb ⊢
  obtain ⟨f, hf, hb⟩ := Option.bind_eq_some_iff.mp hb
  obtain ⟨subject, hsubject, hb⟩ := Option.bind_eq_some_iff.mp hb
  obtain ⟨f', hf', hanswers⟩ := hr f hf
  have hok : f ns objectId relation subjectNamespace subject = .ok b := by
    cases hres : f ns objectId relation subjectNamespace subject with
    | ok =>
      rw [hres] at hb
      exact congrArg Except.ok (Option.some.inj hb)
    | error =>
      rw [hres] at hb
      cases hb
  rw [hf', h.subjectId subject hsubject]
  show resultOk (f' ns objectId relation subjectNamespace subject) = some b
  rw [hanswers ns objectId relation subjectNamespace subject b hok]
  rfl

theorem actionMatches_eq (haction : c.resourceAction = none → c'.resourceAction = none)
    (action : String) : c'.actionMatches action = c.actionMatches action := by
  unfold PolicyContext.actionMatches
  cases hc : c.resourceAction with
  | none => rw [haction hc]
  | some a => rw [h.resourceAction a hc]

end

section

variable {c c' : PolicyContext} {r r' : Option RebacEvaluator}

theorem evaluateLoop_eq (ctx : PolicyContext) (rebac : Option RebacEvaluator)
    (stop unknown : Bool) (es : List Expression) :
    evaluateLoop ctx rebac stop unknown es =
      loop stop unknown (es.map (evaluateExpression ctx rebac)) := by
  induction es generalizing unknown with
  | nil => rw [evaluateLoop, List.map_nil, loop]
  | cons e es ih =>
    rw [evaluateLoop, List.map_cons]
    cases evaluateExpression ctx rebac e with
    | none => exact ih true
    | some =>
      rw [loop]
      rw [ih unknown]

mutual

theorem evaluateExpression_mono (hc : MoreEvidence c c') (hr : MoreAnswers r r')
    (e : Expression)
    (he : e.usesAction = true → c.resourceAction = none → c'.resourceAction = none) :
    Info (evaluateExpression c r e) (evaluateExpression c' r' e) := by
  cases e with
  | condition condition => exact conditionMatches_mono hc condition
  | and es | or es =>
    rw [evaluateExpression, evaluateExpression, evaluateLoop_eq, evaluateLoop_eq]
    exact loop_mono (evaluateList_mono hc hr es he) id
  | not e => exact (evaluateExpression_mono hc hr e he).not
  | inGroup =>
    rw [evaluateExpression, evaluateExpression, inGroup_eq hc]
    exact info_refl _
  | matchAction =>
    rw [evaluateExpression, evaluateExpression, actionMatches_eq hc (he rfl)]
    exact info_refl _
  | rebacCheck ns objectId relation subjectNamespace =>
    exact rebacCheck_mono hc hr ns objectId relation subjectNamespace

theorem evaluateList_mono (hc : MoreEvidence c c') (hr : MoreAnswers r r')
    (es : List Expression)
    (hes : usesActionIn es = true → c.resourceAction = none → c'.resourceAction = none) :
    List.Forall₂ Info (es.map (evaluateExpression c r)) (es.map (evaluateExpression c' r')) := by
  cases es with
  | nil => exact List.Forall₂.nil
  | cons e es =>
    have he : e.usesAction = true → c.resourceAction = none → c'.resourceAction = none := by
      intro h
      refine hes ?_
      rw [usesActionIn, h, Bool.true_or]
    have hrest : usesActionIn es = true → c.resourceAction = none →
        c'.resourceAction = none := by
      intro h
      refine hes ?_
      rw [usesActionIn, h, Bool.or_true]
    exact List.Forall₂.cons (evaluateExpression_mono hc hr e he) (evaluateList_mono hc hr es hrest)

end

end

/-- Between two contexts of which the second carries more evidence, established answers are kept by
every expression exactly when the resource action is not newly filled in; and an expression without
`MatchAction` keeps its answer in any case. -/
theorem evaluation_stable_iff {c c' : PolicyContext} {r r' : Option RebacEvaluator}
    (hc : MoreEvidence c c') (hr : MoreAnswers r r') :
    ((∀ e b, evaluateExpression c r e = some b → evaluateExpression c' r' e = some b) ↔
      (c.resourceAction = none → c'.resourceAction = none)) ∧
    ∀ e, e.usesAction = false →
      ∀ b, evaluateExpression c r e = some b → evaluateExpression c' r' e = some b := by
  refine ⟨⟨?_, ?_⟩, ?_⟩
  · intro hstable hnone
    -- The pattern `*` matches any action that is present and no absent one.
    have hfalse : evaluateExpression c r (.matchAction "*") = some false := by
      rw [evaluateExpression, PolicyContext.actionMatches, hnone]
    cases hc' : c'.resourceAction with
    | none => rfl
    | some =>
      have htrue : evaluateExpression c' r' (.matchAction "*") = some true := by
        rw [evaluateExpression, PolicyContext.actionMatches, hc']
        rfl
      rw [hstable _ false hfalse] at htrue
      cases htrue
  · intro haction e b
    exact evaluateExpression_mono hc hr e (fun _ => haction) b
  · intro e he b
    refine evaluateExpression_mono hc hr e (fun h => ?_) b
    rw [he] at h
    cases h

theorem evaluation_stable_risk_score :
    MoreEvidence {} { riskScore := some 5 } ∧ MoreAnswers none none ∧
      ∀ e b, evaluateExpression {} none e = some b →
        evaluateExpression { riskScore := some 5 } none e = some b := by
  have hc : MoreEvidence {} { riskScore := some 5 } := by
    constructor <;> first | rfl | exact fun _ h => nomatch h
  have hr : MoreAnswers none none := fun _ h => nomatch h
  exact ⟨hc, hr, (evaluation_stable_iff hc hr).1.mpr fun _ => rfl⟩

/-- An absent action makes a negated `MatchAction` match, and filling it in takes the
match back. -/
theorem absent_action_matches_under_not :
    ¬ ∀ (e : Expression) (c c' : PolicyContext) (r r' : Option RebacEvaluator) (b : Bool),
      MoreEvidence c c' → MoreAnswers r r' →
        evaluateExpression c r e = some b → evaluateExpression c' r' e = some b := by
  intro h
  have hc : MoreEvidence {} { resourceAction := some "read" } := by
    constructor <;> first | rfl | exact fun _ h => nomatch h
  have hr : MoreAnswers none none := fun _ h => nomatch h
  have htrue : evaluateExpression {} none (.not (.matchAction "read")) = some true := by decide
  have hfalse : evaluateExpression { resourceAction := some "read" } none
      (.not (.matchAction "read")) = some false := by decide
  have hkept := h (.not (.matchAction "read")) {} { resourceAction := some "read" } none none true
    hc hr htrue
  cases hkept

end Qid.Policy
