/-
What a run of `validate_approvals` may still write.

A run decides once, when it reads the approvals of its request, and writes in later calls. Until its
last call it is `Pending`.
-/
import Qid.Iga.Approvals
import Qid.Iga.Handlers

namespace Qid.Iga

open Lib Lib.Program

variable {evaluation : AccessRequestEvaluation} {now : Nat} {r : Response ValidationBody}
  {next : Handler ValidationBody} {approvals : List AccessApprovalRecord}

/-- It sets the status or inserts grants. -/
def Call.Approves (tenantId id : String) : Call → Prop
  | .updateIgaAccessRequestStatus t i status => t = tenantId ∧ i = id ∧ status = "approved"
  | .ensureIgaAccessGrants candidates => ∃ c ∈ candidates, c.tenantId = tenantId ∧ c.requestId = id
  | _ => False

def Call.Rereads : Call → Prop
  | .getIgaAccessRequest _ _ | .listIgaApprovals _ _ => True
  | _ => False

/-- The run may still approve the request without reading the approvals again. -/
def Pending (tenantId id : String) (p : Handler ValidationBody) : Prop :=
  p.Ahead (Call.Approves tenantId id) Call.Rereads

variable {run : ValidateRun} {requestId tenantId id : String} {stored : IgaAccessRequestRecord}
  {validation : ApprovalValidation} {grants : List TimeBoundAccessGrant}

theorem not_pending_ret : ¬ Pending tenantId id (.ret r) := fun h => h

theorem pending_materializeGrants
    (h : Pending tenantId id (materializeGrants run validation grants)) :
    run.tenantId = tenantId ∧ ∃ g ∈ grants, g.requestId = id := by
  unfold materializeGrants at h
  split at h
  · exact absurd h not_pending_ret
  · rcases h with ⟨c, hc, htenant, hrequest⟩ | ⟨-, r, h⟩
    · obtain ⟨g, hg, rfl⟩ := List.mem_map.mp hc
      exact ⟨htenant, g, hg, hrequest⟩
    · cases r with
      | _ => exact absurd h not_pending_ret

/-- Its own request, under the status it read or the grants it computed. -/
structure OwnApproval (run : ValidateRun) (requestId : String) (validation : ApprovalValidation)
    (grants : List TimeBoundAccessGrant) (tenantId id : String) : Prop where
  tenant : run.tenantId = tenantId
  source : requestId = id ∧ validation.valid = true ∨ ∃ g ∈ grants, g.requestId = id

theorem pending_updateStatus
    (h : Pending tenantId id (updateStatus run requestId stored validation grants)) :
    OwnApproval run requestId validation grants tenantId id := by
  have hlast : Pending tenantId id (materializeGrants run validation grants) →
      OwnApproval run requestId validation grants tenantId id := by
    intro h
    obtain ⟨htenant, hgrant⟩ := pending_materializeGrants h
    exact ⟨htenant, Or.inr hgrant⟩
  unfold updateStatus at h
  split at h
  · rename_i status hstatus
    rcases h with ⟨htenant, hrequest, happroved⟩ | ⟨-, r, h⟩
    · refine ⟨htenant, Or.inl ⟨hrequest, ?_⟩⟩
      -- Only a valid set of approvals gives the status "approved".
      by_contra hvalid
      rw [happroved] at hstatus
      split at hstatus
      · rw [nextStatus, if_neg hvalid] at hstatus
        split at hstatus
        · exact absurd (Option.some.inj hstatus) (by decide)
        · cases hstatus
      · cases hstatus
    · cases r with
      | error => exact absurd h not_pending_ret
      | ok => exact hlast h
  · exact hlast h

theorem pending_storeApprovals
    (h : Pending tenantId id (storeApprovals run.tenantId next approvals)) :
    Pending tenantId id next := by
  induction approvals with
  | nil => exact h
  | cons a rest ih =>
    rcases h with h | ⟨-, r, h⟩
    · exact h.elim
    · cases r with
      | error => exact absurd h not_pending_ret
      | ok => exact ih h

theorem issueTimeBoundAccessGrant_ok {ulid : String} {grant : TimeBoundAccessGrant}
    (h : issueTimeBoundAccessGrant ulid evaluation approvals now = .ok grant) :
    grant.requestId = evaluation.requestId := by
  unfold issueTimeBoundAccessGrant at h
  simp only [guard_eq_ok, pure_eq_ok] at h
  rw [← h.2]

theorem issuePackageMemberGrants_ok {ulid : Nat → String} {members : List String}
    (h : issuePackageMemberGrants evaluation approvals now ulid members = .ok grants) :
    ∀ g ∈ grants, g.requestId = evaluation.requestId := by
  induction members generalizing ulid grants with
  | nil =>
    rw [issuePackageMemberGrants, pure_eq_ok] at h
    subst h
    exact fun g hg => (by cases hg)
  | cons m rest ih =>
    rw [issuePackageMemberGrants] at h
    split at h
    · exact absurd h throw_ne_ok
    · rename_i grant hgrant
      rw [bind_eq_ok] at h
      obtain ⟨others, hothers, h⟩ := h
      rw [pure_eq_ok] at h
      subst h
      have hrequest := issueTimeBoundAccessGrant_ok hgrant
      exact List.forall_mem_cons.mpr ⟨hrequest, ih hothers⟩

/-- The answers of a store whose requests are filed under their ids. -/
def Plausible : (c : Call) → c.Answer → Prop
  | .getIgaAccessRequest _ id, r => ∀ record, r = .ok (some record) → record.id = id
  | _, _ => True

/-- What a run's next call implies for what it may still approve. -/
def Guarded : Handler ValidationBody → Prop
  | .call (.getIgaAccessRequest _ _) k => ∀ r tenantId id, ¬ Pending tenantId id (k r)
  | .call (.listIgaApprovals t i) k => ∀ r tenantId id, Pending tenantId id (k r) →
      t = tenantId ∧ i = id ∧
        ∃ approvals, r = .ok approvals ∧ ∀ a ∈ approvals, a.decision ≠ "rejected"
  | .call (.storeIgaApproval a) k => a.decision = "rejected" →
      ∀ tenantId id, ¬ Pending tenantId id (.call (.storeIgaApproval a) k)
  | _ => True

variable {current : List AccessApprovalRecord}

theorem always_ret : Always Plausible Guarded (.ret r) := trivial

theorem materializeGrants_guarded :
    Always Plausible Guarded (materializeGrants run validation grants) := by
  unfold materializeGrants
  split
  · exact always_ret
  · refine ⟨trivial, fun r _ => ?_⟩
    cases r with
    | _ => exact always_ret

theorem updateStatus_guarded :
    Always Plausible Guarded (updateStatus run requestId stored validation grants) := by
  unfold updateStatus
  split
  · refine ⟨trivial, fun r _ => ?_⟩
    cases r with
    | error => exact always_ret
    | ok => exact materializeGrants_guarded
  · exact materializeGrants_guarded

theorem storeApprovals_guarded {own : List AccessApprovalRecord}
    (hnext : Always Plausible Guarded next)
    (hown : ∀ tenantId id, Pending tenantId id next → ∀ a ∈ own, a.decision = .approved) :
    Always Plausible Guarded (storeApprovals run.tenantId next own) := by
  induction own with
  | nil => exact hnext
  | cons a rest ih =>
    refine ⟨?_, fun r _ => ?_⟩
    · intro hrejected tenantId id h
      have hnext : Pending tenantId id next := by
        have h' : Pending tenantId id (storeApprovals run.tenantId next (a :: rest)) := h
        exact pending_storeApprovals h'
      have ha := hown tenantId id hnext a List.mem_cons_self
      have hdecision : approvalDecisionAsStr a.decision = "rejected" := hrejected
      rw [ha] at hdecision
      exact absurd hdecision (by decide)
    · cases r with
      | error => exact always_ret
      | ok => exact ih fun t i h b hb => hown t i h b (List.mem_cons_of_mem a hb)

structure Computed (run : ValidateRun) (stored : IgaAccessRequestRecord)
    (approvals : List AccessApprovalRecord) (grants : List TimeBoundAccessGrant) : Prop where
  valid : grants ≠ [] →
    (validateAccessRequestApprovals (storedEvaluation stored) approvals run.now).valid = true
  request : ∀ g ∈ grants, g.requestId = stored.id

theorem computed_nil : Computed run stored approvals [] :=
  ⟨fun h => absurd rfl h, fun g hg => (by cases hg)⟩

/-- What is left of a run after its reads: it may approve its own request only, and only if all the
approvals it knows of approve. -/
structure DecidesOn (run : ValidateRun) (requestId : String)
    (approvals : List AccessApprovalRecord) (p : Handler ValidationBody) : Prop where
  guarded : Always Plausible Guarded p
  pending : ∀ tenantId id, Pending tenantId id p →
    run.tenantId = tenantId ∧ requestId = id ∧ ∀ a ∈ approvals, a.decision = .approved

theorem decidesOn_ret : DecidesOn run requestId approvals (.ret r) :=
  ⟨always_ret, fun _ _ h => absurd h not_pending_ret⟩

theorem writeDecision_decidesOn (hgrants : Computed run stored approvals grants)
    (hid : stored.id = requestId) :
    DecidesOn run requestId approvals
      (writeDecision run requestId stored current approvals grants) := by
  have hstatus : ∀ tenantId id,
      Pending tenantId id (updateStatus run requestId stored
        (validateAccessRequestApprovals (storedEvaluation stored) approvals run.now) grants) →
      run.tenantId = tenantId ∧ requestId = id ∧ ∀ a ∈ approvals, a.decision = .approved := by
    intro tenantId id h
    obtain ⟨htenant, hsource⟩ := pending_updateStatus h
    rcases hsource with ⟨hrequest, hvalid⟩ | ⟨g, hg, hrequest⟩
    · exact ⟨htenant, hrequest, fun a ha =>
        ((valid_iff_grantable.mp hvalid).admissible a ha).approved⟩
    · have hvalid := hgrants.valid (List.ne_nil_of_mem hg)
      refine ⟨htenant, ?_, fun a ha => ((valid_iff_grantable.mp hvalid).admissible a ha).approved⟩
      rw [← hid, ← hgrants.request g hg, hrequest]
  constructor
  · refine storeApprovals_guarded updateStatus_guarded fun tenantId id h a ha => ?_
    exact (hstatus tenantId id h).2.2 a (List.mem_filter.mp ha).1
  · exact fun tenantId id h => hstatus tenantId id (pending_storeApprovals h)

section

variable (hid : stored.id = requestId)
  (hvalid : (validateAccessRequestApprovals (storedEvaluation stored) approvals run.now).valid =
    true)
variable {packageId : String}
include hid hvalid

theorem issueSnapshot_decidesOn {snapshot : List String} {packages : List IgaAccessPackageRecord} :
    DecidesOn run requestId approvals
      (issueSnapshot run requestId packageId stored current approvals snapshot packages) := by
  unfold issueSnapshot
  split
  · exact decidesOn_ret
  · split
    · exact decidesOn_ret
    · split
      · exact decidesOn_ret
      · rename_i grants hgrants
        refine writeDecision_decidesOn ⟨fun _ => hvalid, ?_⟩ hid
        exact issuePackageMemberGrants_ok hgrants

theorem issuePackage_decidesOn :
    DecidesOn run requestId approvals
      (issuePackage run requestId packageId stored current approvals) := by
  unfold issuePackage
  dsimp only
  split
  · exact decidesOn_ret
  · constructor
    · refine ⟨trivial, fun r _ => ?_⟩
      cases r with
      | error => exact always_ret
      | ok => exact (issueSnapshot_decidesOn hid hvalid).guarded
    · intro tenantId id h
      rcases h with h | ⟨-, r, h⟩
      · exact h.elim
      · cases r with
        | error => exact absurd h not_pending_ret
        | ok => exact (issueSnapshot_decidesOn hid hvalid).pending tenantId id h

end

theorem decideApprovals_decidesOn (hid : stored.id = requestId) :
    DecidesOn run requestId approvals (decideApprovals run requestId stored current approvals) := by
  unfold decideApprovals
  dsimp only
  split
  · rename_i hvalid
    rw [Bool.and_eq_true] at hvalid
    split
    · exact issuePackage_decidesOn hid hvalid.2
    · split
      · rename_i grant hgrant
        refine writeDecision_decidesOn ⟨fun _ => hvalid.2, fun g hg => ?_⟩ hid
        rw [List.mem_singleton] at hg
        subst hg
        exact issueTimeBoundAccessGrant_ok hgrant
      · exact writeDecision_decidesOn computed_nil hid
  · exact writeDecision_decidesOn computed_nil hid

theorem validateStored_guarded (hid : stored.id = requestId) :
    Always Plausible Guarded (validateStored run requestId stored) := by
  unfold validateStored
  dsimp only
  split
  · exact always_ret
  · split
    · exact always_ret
    · split
      · exact always_ret
      · constructor
        · intro r tenantId id h
          cases r with
          | error => exact absurd h not_pending_ret
          | ok records =>
            dsimp only at h
            split at h
            · exact absurd h not_pending_ret
            · rename_i approvals happrovals
              obtain ⟨htenant, hrequest, hall⟩ :=
                (decideApprovals_decidesOn hid).pending tenantId id h
              refine ⟨htenant, hrequest, records, rfl, fun record hrecord => ?_⟩
              obtain ⟨a, ha, hfrom⟩ := (mem_of_mapM_eq_ok happrovals).1 record hrecord
              have hdecision := hall a (List.mem_append_left _ ha)
              intro hrejected
              unfold accessApprovalFromStored at hfrom
              rw [if_neg (by rw [hrejected]; decide), if_pos hrejected, pure_eq_ok] at hfrom
              subst hfrom
              cases hdecision
        · intro r _
          cases r with
          | error => exact always_ret
          | ok =>
            dsimp only
            split
            · exact always_ret
            · exact (decideApprovals_decidesOn hid).guarded

/-- Before it reads the approvals, a run is not pending. -/
theorem not_pending_validateStored :
    ¬ Pending tenantId id (validateStored run requestId stored) := by
  unfold validateStored
  dsimp only
  split
  · exact not_pending_ret
  · split
    · exact not_pending_ret
    · split
      · exact not_pending_ret
      · rintro (h | ⟨hread, -⟩)
        · exact h
        · exact hread trivial

theorem validateApprovals_guarded (run : ValidateRun) :
    Always Plausible Guarded (validateApprovals run) := by
  unfold validateApprovals
  split
  · exact always_ret
  · constructor
    · intro r tenantId id
      cases r with
      | error => exact not_pending_ret
      | ok found =>
        cases found with
        | none => exact not_pending_ret
        | some => exact not_pending_validateStored
    · intro r hr
      cases r with
      | error => exact always_ret
      | ok found =>
        cases found with
        | none => exact always_ret
        | some stored => exact validateStored_guarded (hr stored rfl)

end Qid.Iga
