/-
Approvals, whatever their order.

The scan of `validate_access_request_approvals` collects what each record adds, so its result is the
same for every order of the records.
-/
import Qid.Iga.Engine

namespace Qid.Iga

variable {evaluation : AccessRequestEvaluation} {approvals : List AccessApprovalRecord} {now : Nat}

theorem sortDedup_eq_of_perm {l l' : List String} (h : l.Perm l') : sortDedup l = sortDedup l' := by
  have hsorted : (l.insertionSort (· ≤ ·)).Perm (l'.insertionSort (· ≤ ·)) :=
    (List.perm_insertionSort _ l).trans (h.trans (List.perm_insertionSort _ l').symm)
  rw [sortDedup, sortDedup, hsorted.eq_of_pairwise' (List.pairwise_insertionSort _ l)
    (List.pairwise_insertionSort _ l')]

theorem sortDedup_isEmpty {l : List String} : (sortDedup l).isEmpty = true ↔ l = [] := by
  rw [List.isEmpty_iff, sortDedup, List.destutter_eq_nil, ← List.length_eq_zero_iff,
    List.length_insertionSort, List.length_eq_zero_iff]

def approvalViolations (evaluation : AccessRequestEvaluation) (now : Nat)
    (a : AccessApprovalRecord) : List String :=
  (scanApproval evaluation now ⟨[], [], []⟩ a).violations

def approvers (evaluation : AccessRequestEvaluation) (decision : AccessApprovalDecision)
    (approvals : List AccessApprovalRecord) : List String :=
  (approvals.filter fun a => a.requestId == evaluation.requestId && a.decision == decision).map
    AccessApprovalRecord.approver

theorem mem_approvers {decision : AccessApprovalDecision} {approver : String} :
    approver ∈ approvers evaluation decision approvals ↔ ∃ a ∈ approvals,
      a.requestId = evaluation.requestId ∧ a.decision = decision ∧ a.approver = approver := by
  simp [approvers, and_assoc]

theorem foldl_scanApproval (scan : ApprovalScan) :
    approvals.foldl (scanApproval evaluation now) scan =
      ⟨scan.violations ++ approvals.flatMap (approvalViolations evaluation now),
        (approvers evaluation .approved approvals).reverse ++ scan.approvedBy,
        scan.rejectedApprovers ++ approvers evaluation .rejected approvals⟩ := by
  induction approvals generalizing scan with
  | nil => simp [approvers]
  | cons a rest ih =>
    rw [List.foldl_cons, ih]
    by_cases hrequest : a.requestId = evaluation.requestId
    · cases hdecision : a.decision <;>
        simp [scanApproval, approvalViolations, approvers, hrequest, hdecision]
    · simp [scanApproval, approvalViolations, approvers, hrequest]

theorem validateAccessRequestApprovals_eq_of_perm {approvals' : List AccessApprovalRecord}
    (h : approvals'.Perm approvals) :
    validateAccessRequestApprovals evaluation approvals' now =
      validateAccessRequestApprovals evaluation approvals now := by
  have happrovers : ∀ decision, (approvers evaluation decision approvals').Perm
      (approvers evaluation decision approvals) := fun decision => (h.filter _).map _
  have happroved : ∀ x, x ∈ approvers evaluation .approved approvals' ↔
      x ∈ approvers evaluation .approved approvals := fun x => (happrovers .approved).mem_iff
  simp only [validateAccessRequestApprovals, foldl_scanApproval, List.nil_append, List.append_nil,
    List.contains_eq_mem, List.mem_reverse, happroved]
  rw [sortDedup_eq_of_perm ((h.flatMap_right _).append_left _),
    sortDedup_eq_of_perm (happrovers .rejected)]

theorem running_iff {expires : Option Nat} :
    (expires.any fun expiresAt => expiresAt ≤ now) = false ↔
      ∀ expiresAt ∈ expires, now < expiresAt := by
  cases expires <;> simp

/-- A record that counts as an approval. -/
@[mk_iff]
structure Admissible (evaluation : AccessRequestEvaluation) (now : Nat)
    (a : AccessApprovalRecord) : Prop where
  named : (trim a.id).isEmpty = false
  request : a.requestId = evaluation.requestId
  notSelf : a.approver ≠ evaluation.subject
  past : a.approvedAtEpochSeconds ≤ now
  running : ∀ expiresAt ∈ a.expiresAtEpochSeconds, now < expiresAt
  approved : a.decision = .approved

/-- The scan has found neither a violation nor a rejection. -/
def ApprovalScan.Clean (scan : ApprovalScan) : Prop :=
  scan.violations = [] ∧ scan.rejectedApprovers = []

variable {scan : ApprovalScan}

theorem scanApproval_clean {approval : AccessApprovalRecord} :
    (scanApproval evaluation now scan approval).Clean ↔
      scan.Clean ∧ Admissible evaluation now approval := by
  rw [admissible_iff, ApprovalScan.Clean, ApprovalScan.Clean, scanApproval]
  by_cases hrequest : approval.requestId = evaluation.requestId
  · cases hdecision : approval.decision <;> simp [hrequest, running_iff]
    grind
  · simp [hrequest]

theorem foldl_scanApproval_clean :
    (approvals.foldl (scanApproval evaluation now) scan).Clean ↔
      scan.Clean ∧ ∀ a ∈ approvals, Admissible evaluation now a := by
  induction approvals generalizing scan with
  | nil => simp
  | cons a rest ih => rw [List.foldl_cons, ih, scanApproval_clean, List.forall_mem_cons, and_assoc]

/-- The conditions under which a grant is issued. -/
@[mk_iff]
structure Grantable (evaluation : AccessRequestEvaluation) (approvals : List AccessApprovalRecord)
    (now : Nat) : Prop where
  notRejected : evaluation.status ≠ .rejected
  running : ∀ expiresAt ∈ evaluation.expiresAtEpochSeconds, now < expiresAt
  admissible : ∀ a ∈ approvals, Admissible evaluation now a
  covered : ∀ step ∈ evaluation.approvalSteps,
    ∃ a ∈ approvals, a.approver = step.approver ∧ a.decision = .approved

theorem valid_iff_grantable :
    (validateAccessRequestApprovals evaluation approvals now).valid = true ↔
      Grantable evaluation approvals now := by
  simp only [validateAccessRequestApprovals, Bool.and_eq_true, sortDedup_isEmpty]
  rw [and_right_comm, ← ApprovalScan.Clean, foldl_scanApproval_clean, foldl_scanApproval]
  simp [ApprovalScan.Clean, mem_approvers, running_iff, grantable_iff]
  constructor
  · rintro ⟨⟨⟨hstatus, hrunning⟩, hadmissible⟩, hcovered⟩
    refine ⟨hstatus, hrunning, hadmissible, fun step hstep => ?_⟩
    obtain ⟨a, ha, -, hdecision, happrover⟩ := hcovered step hstep
    exact ⟨a, ha, happrover, hdecision⟩
  · rintro ⟨hstatus, hrunning, hadmissible, hcovered⟩
    refine ⟨⟨⟨hstatus, hrunning⟩, hadmissible⟩, fun step hstep => ?_⟩
    obtain ⟨a, ha, happrover, hdecision⟩ := hcovered step hstep
    exact ⟨a, ha, (hadmissible a ha).request, hdecision, happrover⟩

/-- A grant is issued exactly on the conditions, whatever the order of the records, and ends no
later than the evaluation. -/
theorem grant_issued_iff (id : String) (evaluation : AccessRequestEvaluation)
    (approvals : List AccessApprovalRecord) (now : Nat) :
    (∀ approvals' : List AccessApprovalRecord, approvals'.Perm approvals →
      validateAccessRequestApprovals evaluation approvals' now =
        validateAccessRequestApprovals evaluation approvals now) ∧
      ((∃ grant, issueTimeBoundAccessGrant id evaluation approvals now = .ok grant) ↔
        Grantable evaluation approvals now) ∧
      ∀ grant, issueTimeBoundAccessGrant id evaluation approvals now = .ok grant →
        ∀ expiresAt ∈ evaluation.expiresAtEpochSeconds,
          ∃ grantExpiresAt ∈ grant.expiresAtEpochSeconds, grantExpiresAt ≤ expiresAt := by
  rw [← valid_iff_grantable, issueTimeBoundAccessGrant]
  refine ⟨fun approvals' => validateAccessRequestApprovals_eq_of_perm, ?_, ?_⟩
  · cases (validateAccessRequestApprovals evaluation approvals now).valid <;>
      simp [throw, throwThe, MonadExceptOf.throw, pure, Except.pure]
  · intro grant h expiresAt hexpires
    cases hvalid : (validateAccessRequestApprovals evaluation approvals now).valid with
    | false => rw [hvalid] at h; cases h
    | true =>
      rw [hvalid] at h
      cases h
      exact ⟨expiresAt, hexpires, le_rfl⟩

end Qid.Iga
