/-
Handlers that run one after the other.

A request for access stores one request, evaluated against the grants and the catalog of the moment,
or nothing; the other two change no catalog.
-/
import Qid.Iga.Handlers
import Qid.Iga.Materialize

namespace Qid.Iga

open Lib Lib.Program Storage

inductive Request where
  | accessRequest (run : RequestRun)
  | validateApprovals (run : ValidateRun)
  | revokeAccessGrant (tenantId id : String) (reason : Option String)

inductive Reply where
  | requested (response : Response RequestBody)
  | validated (response : Response ValidationBody)
  | revoked (response : Response RevokeBody)

/-- The `n`-th call of its handler has the `n`-th save. -/
def serve (repo : FileRepository) (k : (Nat → Persist) × Request) : Reply × FileRepository :=
  match k.2 with
  | .accessRequest run =>
    let r := exec answer k.1 repo (accessRequest run)
    (.requested r.1, r.2)
  | .validateApprovals run =>
    let r := exec answer k.1 repo (validateApprovals run)
    (.validated r.1, r.2)
  | .revokeAccessGrant tenantId id reason =>
    let r := exec answer k.1 repo (revokeAccessGrant tenantId id reason)
    (.revoked r.1, r.2)

/-- What every call keeps, every handler keeps. -/
theorem serve_invariant {I : IgaStore → Prop} (hstep : ∀ s c t, Change s c t → I s → I t)
    {repo : FileRepository} (h : I repo.store) (k : (Nat → Persist) × Request) :
    I (serve repo k).2.store := by
  obtain ⟨oracle, request⟩ := k
  have hanswer : ∀ o r c, True → I r.store → I (answer o r c).2.store :=
    fun o r c _ hr => hstep _ _ _ (answer_change o r c) hr
  cases request with
  | _ => exact exec_invariant hanswer (makes_any _) h oracle

inductive ValidateCall (tenantId requestId : String) : Call → Prop
  | get : ValidateCall tenantId requestId (.getIgaAccessRequest tenantId requestId)
  | list : ValidateCall tenantId requestId (.listIgaApprovals tenantId requestId)
  | packages : ValidateCall tenantId requestId (.listIgaAccessPackages tenantId)
  | approval (a : IgaApprovalRecord) : ValidateCall tenantId requestId (.storeIgaApproval a)
  | status (status : String) :
      ValidateCall tenantId requestId (.updateIgaAccessRequestStatus tenantId requestId status)
  | grants (candidates : List IgaAccessGrantRecord) :
      ValidateCall tenantId requestId (.ensureIgaAccessGrants candidates)

variable {α : Type}

section

variable {run : ValidateRun} {requestId : String} {stored : IgaAccessRequestRecord}
  {current approvals : List AccessApprovalRecord} {grants : List TimeBoundAccessGrant}
  {validation : ApprovalValidation}

theorem makes_ret {A : Call → Prop} {r : Response α} : Makes A (.ret r : Handler α) := trivial

theorem materializeGrants_makes :
    Makes (ValidateCall run.tenantId requestId) (materializeGrants run validation grants) := by
  unfold materializeGrants
  split
  · exact makes_ret
  · refine ⟨ValidateCall.grants _, fun r => ?_⟩
    cases r with
    | _ => exact makes_ret

theorem updateStatus_makes :
    Makes (ValidateCall run.tenantId requestId)
      (updateStatus run requestId stored validation grants) := by
  unfold updateStatus
  split
  · refine ⟨ValidateCall.status _, fun r => ?_⟩
    cases r with
    | error => exact makes_ret
    | ok => exact materializeGrants_makes
  · exact materializeGrants_makes

theorem storeApprovals_makes {next : Handler ValidationBody} {own : List AccessApprovalRecord}
    (hnext : Makes (ValidateCall run.tenantId requestId) next) :
    Makes (ValidateCall run.tenantId requestId) (storeApprovals run.tenantId next own) := by
  induction own with
  | nil => exact hnext
  | cons a rest ih =>
    refine ⟨ValidateCall.approval _, fun r => ?_⟩
    cases r with
    | error => exact makes_ret
    | ok => exact ih

theorem writeDecision_makes :
    Makes (ValidateCall run.tenantId requestId)
      (writeDecision run requestId stored current approvals grants) :=
  storeApprovals_makes updateStatus_makes

theorem decideApprovals_makes :
    Makes (ValidateCall run.tenantId requestId)
      (decideApprovals run requestId stored current approvals) := by
  unfold decideApprovals
  dsimp only
  split
  · split
    · unfold issuePackage
      dsimp only
      split
      · exact makes_ret
      · refine ⟨ValidateCall.packages, fun r => ?_⟩
        cases r with
        | error => exact makes_ret
        | ok =>
          dsimp only
          unfold issueSnapshot
          split
          · exact makes_ret
          · split
            · exact makes_ret
            · split
              · exact makes_ret
              · exact writeDecision_makes
    · split <;> exact writeDecision_makes
  · exact writeDecision_makes

theorem validateApprovals_makes (h : run.requestId? = some requestId) :
    Makes (ValidateCall run.tenantId requestId) (validateApprovals run) := by
  unfold validateApprovals
  rw [h]
  refine ⟨ValidateCall.get, fun r => ?_⟩
  cases r with
  | error => exact makes_ret
  | ok found =>
    cases found with
    | none => exact makes_ret
    | some =>
      unfold validateStored
      dsimp only
      split
      · exact makes_ret
      · split
        · exact makes_ret
        · split
          · exact makes_ret
          · refine ⟨ValidateCall.list, fun r => ?_⟩
            cases r with
            | error => exact makes_ret
            | ok =>
              dsimp only
              split
              · exact makes_ret
              · exact decideApprovals_makes

end

def Call.revokes : Call → Prop
  | .listIgaAccessGrants _ _ | .revokeIgaAccessGrant _ _ => True
  | _ => False

theorem revokeAccessGrant_makes (tenantId id : String) (reason : Option String) :
    Makes Call.revokes (revokeAccessGrant tenantId id reason) := by
  refine ⟨trivial, fun r => ?_⟩
  cases r with
  | error => exact makes_ret
  | ok =>
    dsimp only
    split
    · exact makes_ret
    · refine ⟨trivial, fun r => ?_⟩
      cases r with
      | _ => exact makes_ret

def subjectGrants (s : IgaStore) (tenantId subject : String) : List IgaAccessGrantRecord :=
  (s.accessGrants.values.filter fun g =>
    g.tenantId == tenantId && (some subject).all fun value => g.subject == value).insertionSort
      fun a b => b.grantedAtEpochSeconds < a.grantedAtEpochSeconds ∨
        a.grantedAtEpochSeconds = b.grantedAtEpochSeconds ∧ a.id ≤ b.id

def catalogForTenant (s : IgaStore) (tenantId : String) : List Entitlement :=
  activeCatalog ((s.entitlements.values.filter fun e => e.tenantId == tenantId).insertionSort
    fun a b => a.id ≤ b.id)

theorem exec_evaluationInputs (oracle : Nat → Persist) (repo : FileRepository)
    (tenantId subject : String) (now : Nat) (next : List String → List Entitlement → Handler α) :
    (exec answer oracle repo (evaluationInputs tenantId subject now next)).2 =
      (exec answer (fun n => oracle (n + 2)) repo
        (next (currentEntitlements now (subjectGrants repo.store tenantId subject))
          (catalogForTenant repo.store tenantId))).2 := rfl

/-- A store that is as before, or has one new request. -/
def Stored (s t : IgaStore) (P : IgaAccessRequestRecord → Prop) : Prop :=
  t = s ∨ ∃ r, P r ∧ s.accessRequests.lookup r.id = none ∧
    t = { s with accessRequests := s.accessRequests.insert r.id r }

theorem exec_storeRequest (oracle : Nat → Persist) (repo : FileRepository)
    (record : IgaAccessRequestRecord) (body : RequestBody)
    {P : IgaAccessRequestRecord → Prop} (hP : P record) :
    Stored repo.store (exec answer oracle repo (storeRequest record body)).2.store P := by
  have hstore : (exec answer oracle repo (storeRequest record body)).2 =
      (answer (oracle 0) repo (.storeIgaAccessRequest record)).2 := by
    rw [storeRequest, exec_call]
    generalize answer (oracle 0) repo (.storeIgaAccessRequest record) = r
    obtain ⟨result, repo'⟩ := r
    cases result with
    | _ => rfl
  rw [hstore]
  have hchange := answer_change (oracle 0) repo (.storeIgaAccessRequest record)
  generalize (answer (oracle 0) repo (.storeIgaAccessRequest record)).2.store = t at hchange
  cases hchange with
  | unchanged => exact Or.inl rfl
  | request _ _ hnew => exact Or.inr ⟨record, hP, hnew, rfl⟩

/-- For one entitlement, or for the members of a package, against the grants in effect and the
catalog. -/
inductive Evaluated (s : IgaStore) (run : RequestRun) : IgaAccessRequestRecord → Prop
  | single (entitlement : String) :
      Evaluated s run (requestRecord run (evaluateAccessRequest (run.ulid 0) (run.clock 1)
        run.req.subject entitlement
        (currentEntitlements (run.clock 0) (subjectGrants s run.tenantId run.req.subject))
        run.req.requestedDurationSeconds (catalogForTenant s run.tenantId)))
  | package (package : IgaAccessPackageRecord) :
      Evaluated s run (packageRecord run package (buildAccessPackageEvaluation (run.ulid 0)
        run.req.subject package.id (memberEvaluations run package
          (currentEntitlements (run.clock 0) (subjectGrants s run.tenantId run.req.subject))
          (catalogForTenant s run.tenantId))))

variable (oracle : Nat → Persist) (repo : FileRepository) (run : RequestRun)
include oracle repo run

theorem exec_accessRequest :
    Stored repo.store (exec answer oracle repo (accessRequest run)).2.store
      (Evaluated repo.store run) := by
  unfold accessRequest
  split
  · rw [accessPackageRequest, exec_call]
    dsimp only [answer, listIgaAccessPackages, pure, Except.pure]
    split
    · exact Or.inl rfl
    · rw [requestPackage, exec_evaluationInputs]
      apply exec_storeRequest
      exact Evaluated.package _
  · split
    · exact Or.inl rfl
    · rw [requestEntitlement, exec_evaluationInputs]
      apply exec_storeRequest
      exact Evaluated.single _

end Qid.Iga
