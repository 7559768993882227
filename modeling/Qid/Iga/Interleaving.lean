/-
Runs of `validate_approvals` interleaved at their repository calls.

A run writes what it decided from approvals read several calls before, and the update of the status
is unconditional.
-/
import Qid.Iga.Decision
import Qid.Iga.Materialize

namespace Qid.Iga

open Lib Lib.Program Storage

variable {persist : Persist} {repo : FileRepository} {tenantId k : String} {c : Call}

/-- The calls that only `validate_approvals` makes. -/
def Call.decides : Call → Bool
  | .updateIgaAccessRequestStatus _ _ _ | .storeIgaApproval _ | .ensureIgaAccessGrants _ => true
  | _ => false

/-- A run starts, the `i`-th run makes its next call, or another handler makes a call. -/
inductive Action where
  | validate (run : ValidateRun)
  | proceed (i : Nat) (persist : Persist)
  | other (c : { c : Call // c.decides = false }) (persist : Persist)

abbrev World : Type := Pool FileRepository Call Call.Answer (Response ValidationBody)

def World.start (flushMode : FileFlushMode) : World :=
  { shared := FileRepository.new flushMode, threads := [] }

def Action.toAct : Action → Pool.Act Call Call.Answer (Response ValidationBody) Persist
  | .validate run => .start (validateApprovals run)
  | .proceed i persist => .resume i persist
  | .other c persist => .outside c.1 persist

def interleave (w : World) (a : Action) : Option ((c : Call) × c.Answer) × World :=
  Pool.step answer w a.toAct

def Rejected (s : IgaStore) (tenantId id : String) : Prop :=
  ∃ k a, s.approvals.lookup k = some a ∧ a.tenantId = tenantId ∧ a.requestId = id ∧
    a.decision = "rejected"

abbrev WorldEvent : Type := Event World Action (Option ((c : Call) × c.Answer))

/-- Once a rejection is stored and the status is rejected, the status is never
approved. -/
def RejectionFinal (events : List WorldEvent) : Prop :=
  ∀ xs e ys id r, events = xs ++ e :: ys →
    e.after.shared.store.accessRequests.lookup id = some r → r.status = "rejected" →
    Rejected e.after.shared.store r.tenantId id →
    ∀ f ∈ ys, ∀ r', f.after.shared.store.accessRequests.lookup id = some r' → r'.status ≠ "approved"

def NoGrantAfterRejection (events : List WorldEvent) : Prop :=
  ∀ e ∈ events, ∀ k g, e.after.shared.store.accessGrants.lookup k = some g →
    Rejected e.before.shared.store g.tenantId g.requestId →
    ∃ g', e.before.shared.store.accessGrants.lookup k = some g'

/-- The step does not store a rejection while another run is pending for the
request. -/
def Calm (w : World) : Action → Prop
  | .proceed i _ => ∀ a k, w.threads[i]? = some (.call (.storeIgaApproval a) k) →
      a.decision = "rejected" →
      ∀ j p, j ≠ i → w.threads[j]? = some p → ¬ Pending a.tenantId a.requestId p
  | _ => True

section

variable {s t : IgaStore} {id : String}

def Filed (s : IgaStore) : Prop := ∀ id r, s.accessRequests.lookup id = some r → r.id = id

theorem Filed.change (h : Filed s) (hc : Change s c t) : Filed t := by
  cases hc with
  | request =>
    intro id r' hr'
    rcases HashMap.of_lookup_insert hr' with ⟨heq, rfl⟩ | ⟨-, hold⟩
    · exact heq.symm
    · exact h id r' hold
  | status id₀ status r hget =>
    intro id r' hr'
    rcases HashMap.of_lookup_insert hr' with ⟨heq, rfl⟩ | ⟨-, hold⟩
    · rw [heq]
      exact h id₀ r hget
    · exact h id r' hold
  | _ => exact h

theorem plausible_answer (h : Filed repo.store) (c : Call) :
    Plausible c (answer persist repo c).1 := by
  cases c with
  | getIgaAccessRequest tenantId id =>
    intro r hr
    have hget := Except.ok.inj hr
    exact h id r (Option.filter_eq_some_iff.mp hget).1
  | _ => trivial

theorem Rejected.kept (h : Rejected s tenantId id) (hc : Change s c t) :
    Rejected t tenantId id := by
  obtain ⟨k, a, hk, ha⟩ := h
  cases hc with
  | approval b _ hnew => exact ⟨k, a, HashMap.lookup_insert_of_fresh hnew hk, ha⟩
  | _ => exact ⟨k, a, hk, ha⟩

theorem Rejected.back (h : Rejected t tenantId id) (hc : Change s c t) :
    Rejected s tenantId id ∨ ∃ a, c = .storeIgaApproval a ∧ a.tenantId = tenantId ∧
      a.requestId = id ∧ a.decision = "rejected" := by
  obtain ⟨k, a, hk, ha⟩ := h
  cases hc with
  | approval b _ =>
    rcases HashMap.of_lookup_insert hk with ⟨-, rfl⟩ | ⟨-, hold⟩
    · exact Or.inr ⟨_, rfl, ha⟩
    · exact Or.inl ⟨k, a, hold, ha⟩
  | _ => exact Or.inl ⟨k, a, hk, ha⟩

/-- A grant is new only by the call whose candidate it is. -/
theorem grant_back {g : IgaAccessGrantRecord} (hc : Change s c t)
    (hk : t.accessGrants.lookup k = some g) :
    (∃ g', s.accessGrants.lookup k = some g') ∨
      ∃ candidates, c = .ensureIgaAccessGrants candidates ∧ g ∈ candidates := by
  cases hc with
  | grants staged =>
    rcases staged.lookup_withGrants.mp hk with hk | ⟨hg, -⟩
    · exact Or.inl ⟨g, hk⟩
    · exact Or.inr ⟨_, rfl, staged.mem_candidates hg⟩
  | revoke id g₀ hget =>
    rcases HashMap.of_lookup_insert hk with ⟨heq, -⟩ | ⟨-, hold⟩
    · subst heq
      exact Or.inl ⟨g₀, hget⟩
    · exact Or.inl ⟨g, hold⟩
  | _ => exact Or.inl ⟨g, hk⟩

theorem status_change {r : IgaAccessRequestRecord} (hc : Change s c t)
    (hr : s.accessRequests.lookup id = some r) (hstatus : r.status ≠ "approved")
    (happroves : ¬ c.Approves r.tenantId id) :
    ∃ r', t.accessRequests.lookup id = some r' ∧ r'.tenantId = r.tenantId ∧
      r'.status ≠ "approved" := by
  cases hc with
  | request r₀ _ hnew => exact ⟨r, HashMap.lookup_insert_of_fresh hnew hr, rfl, hstatus⟩
  | status id₀ status r₀ hget =>
    by_cases heq : id = id₀
    · subst heq
      rw [hget, Option.some.injEq] at hr
      subst hr
      refine ⟨_, AList.lookup_insert _, rfl, fun h => ?_⟩
      exact happroves ⟨rfl, rfl, h⟩
    · refine ⟨r, ?_, rfl, hstatus⟩
      rw [AList.lookup_insert_ne heq, hr]
  | _ => exact ⟨r, hr, rfl, hstatus⟩

end

/-- No run is pending for a request with a stored rejection. -/
structure Safe (w : World) : Prop where
  filed : Filed w.shared.store
  guarded : ∀ p ∈ w.threads, Always Plausible Guarded p
  decided : ∀ tenantId id, Rejected w.shared.store tenantId id →
    ∀ p ∈ w.threads, ¬ Pending tenantId id p

variable {id : String}

/-- A run that continues becomes pending only by reading approvals without a
rejection. -/
theorem pending_next {k : c.Answer → Handler ValidationBody}
    (hguard : Guarded (.call c k)) (hrejected : Rejected repo.store tenantId id)
    (h : Pending tenantId id (k (answer persist repo c).1)) : Pending tenantId id (.call c k) := by
  cases c with
  | getIgaAccessRequest => exact absurd h (hguard _ tenantId id)
  | listIgaApprovals =>
    obtain ⟨rfl, rfl, approvals, hlist, hnone⟩ := hguard _ tenantId id h
    -- a stored rejection is in every list of the request's approvals
    obtain ⟨k, a, hk, htenant, hrequest, hdecision⟩ := hrejected
    refine absurd hdecision (hnone a ?_)
    change pure _ = _ at hlist
    rw [← pure_eq_ok.mp hlist, List.mem_insertionSort, List.mem_filter, Bool.and_eq_true,
      beq_iff_eq, beq_iff_eq]
    exact ⟨HashMap.mem_values.mpr ⟨k, hk⟩, htenant, hrequest⟩
  | _ => exact Ahead.of_next (fun hread => hread) h

variable {w : World}

theorem Safe.resume {i : Nat} {k : c.Answer → Handler ValidationBody} (h : Safe w)
    (hi : w.threads[i]? = some (.call c k)) (hcalm : Calm w (.proceed i persist)) :
    Safe { shared := (answer persist w.shared c).2
           threads := w.threads.set i (k (answer persist w.shared c).1) } := by
  have hmem : Program.call c k ∈ w.threads := List.mem_of_getElem? hi
  have hchange := answer_change persist w.shared c
  have halways := h.guarded _ hmem
  constructor
  · exact h.filed.change hchange
  · intro p hp
    rcases List.mem_or_eq_of_mem_set hp with hp | rfl
    · exact h.guarded p hp
    · exact halways.2 _ (plausible_answer h.filed c)
  · intro tenantId id hrejected p hp hpending
    rcases hrejected.back hchange with hold | ⟨a, rfl, rfl, rfl, hdecision⟩
    · -- The rejection was there: the run that continues has read it, or was pending.
      rcases List.mem_or_eq_of_mem_set hp with hp | rfl
      · exact h.decided tenantId id hold p hp hpending
      · exact h.decided tenantId id hold _ hmem (pending_next halways.here hold hpending)
    · -- The rejection is new: its own run rejects, and no other run is pending.
      obtain ⟨j, hj⟩ := List.mem_iff_getElem?.mp hp
      rw [List.getElem?_set] at hj
      split at hj
      · split at hj
        · cases hj
          exact halways.here hdecision _ _ (Ahead.of_next (fun hread => hread) hpending)
        · cases hj
      · rename_i hne
        exact hcalm a k hi hdecision j p (Ne.symm hne) hj hpending

variable {a : Action}

theorem Safe.step (h : Safe w) (hcalm : Calm w a) : Safe (interleave w a).2 := by
  have hstepped := Pool.stepped answer w a.toAct
  show Safe (Pool.step answer w a.toAct).2
  generalize (Pool.step answer w a.toAct).2 = w' at hstepped
  cases a with
  | validate run =>
    cases hstepped with
    | start =>
      refine ⟨h.filed, fun p hp => ?_, fun tenantId id hrejected p hp => ?_⟩
      · rcases List.mem_append.mp hp with hp | hp
        · exact h.guarded p hp
        · rw [List.mem_singleton.mp hp]
          exact validateApprovals_guarded run
      · rcases List.mem_append.mp hp with hp | hp
        · exact h.decided tenantId id hrejected p hp
        · rw [List.mem_singleton.mp hp]
          rw [validateApprovals]
          split
          · exact not_pending_ret
          · rintro (h | ⟨hread, -⟩)
            · exact h
            · exact hread trivial
  | proceed =>
    cases hstepped with
    | idle => exact h
    | resume _ _ c k hi => exact h.resume hi hcalm
  | other c persist =>
    cases hstepped with
    | outside =>
      have hchange := answer_change persist w.shared c.1
      refine ⟨h.filed.change hchange, h.guarded, fun tenantId id hrejected => ?_⟩
      rcases hrejected.back hchange with hold | ⟨a, hc, -⟩
      · exact h.decided tenantId id hold
      · have hfalse := c.2
        rw [hc] at hfalse
        cases hfalse

theorem step_change (h : Safe w) (hrejected : Rejected w.shared.store tenantId id) :
    ∃ c, Change w.shared.store c (interleave w a).2.shared.store ∧ ¬ c.Approves tenantId id := by
  have hstepped := Pool.stepped answer w a.toAct
  show ∃ c, Change w.shared.store c (Pool.step answer w a.toAct).2.shared.store ∧ _
  generalize (Pool.step answer w a.toAct).2 = w' at hstepped
  -- A step that makes no call changes the store as a read does.
  have hnone : ∃ c, Change w.shared.store c w.shared.store ∧ ¬ c.Approves tenantId id :=
    ⟨.listIgaEntitlements tenantId, Change.unchanged _, fun h => h⟩
  cases a with
  | validate =>
    cases hstepped with
    | start => exact hnone
  | proceed i persist =>
    cases hstepped with
    | idle => exact hnone
    | resume _ _ c k hi =>
      refine ⟨c, answer_change persist w.shared c, fun happroves => ?_⟩
      exact h.decided tenantId id hrejected _ (List.mem_of_getElem? hi) (Or.inl happroves)
  | other c persist =>
    cases hstepped with
    | outside =>
      refine ⟨c.1, answer_change persist w.shared c.1, fun happroves => ?_⟩
      obtain ⟨c, hc⟩ := c
      cases c with
      | updateIgaAccessRequestStatus | ensureIgaAccessGrants => cases hc
      | _ => exact happroves

/-- A rejection of the request is stored and it is not approved. -/
structure Refused (tenantId id : String) (w : World) : Prop where
  safe : Safe w
  rejected : Rejected w.shared.store tenantId id
  status : ∃ r, w.shared.store.accessRequests.lookup id = some r ∧ r.tenantId = tenantId ∧
    r.status ≠ "approved"

theorem Refused.step (h : Refused tenantId id w) (hcalm : Calm w a) :
    Refused tenantId id (interleave w a).2 := by
  obtain ⟨c, hchange, happroves⟩ := step_change (a := a) h.safe h.rejected
  obtain ⟨r, hr, rfl, hstatus⟩ := h.status
  obtain ⟨r', hr', htenant, hstatus'⟩ := status_change hchange hr hstatus happroves
  exact ⟨h.safe.step hcalm, h.rejected.kept hchange, r', hr', htenant, hstatus'⟩

/-- In every run in which each rejection is stored while no other run is pending for
its request, rejections are final and no grant is inserted after one. -/
theorem rejection_respected (flushMode : FileFlushMode) (actions : List Action)
    (hcalm : ∀ e ∈ run interleave (World.start flushMode) actions, Calm e.before e.call) :
    RejectionFinal (run interleave (World.start flushMode) actions) ∧
      NoGrantAfterRejection (run interleave (World.start flushMode) actions) := by
  have hsafe := (run_invariant interleave (I := Safe)
    (fun w a h hc => h.step hc) ⟨fun id r hr => (by cases hr), fun p hp => (by cases hp),
      fun tenantId id _ p hp => (by cases hp)⟩ hcalm).1
  constructor
  · intro xs e ys id r hsplit hr hstatus hrejected f hf r' hr'
    have he : e ∈ run interleave (World.start flushMode) actions := by
      rw [hsplit]
      exact List.mem_append_cons_self
    have hrefused : Refused r.tenantId id e.after := by
      refine ⟨(hsafe e he).2, hrejected, r, hr, rfl, ?_⟩
      rw [hstatus]
      decide
    have hys : ∀ x ∈ ys, Calm x.before x.call := by
      intro x hx
      refine hcalm x ?_
      rw [hsplit]
      exact List.mem_append_right _ (List.mem_cons_of_mem e hx)
    obtain ⟨ks₁, k, ks₂, -, -, rfl, rfl⟩ := run_eq_append_cons interleave hsplit
    have hall := (run_invariant interleave (fun w a h hc => h.step hc) hrefused hys).1
    obtain ⟨r'', hr'', -, hstatus''⟩ := (hall f hf).2.status
    rw [hr', Option.some.injEq] at hr''
    subst hr''
    exact hstatus''
  · intro e he k g hk hrejected
    obtain ⟨xs, ys, hsplit⟩ := List.append_of_mem he
    obtain ⟨ks₁, a, ks₂, -, -, rfl, -⟩ := run_eq_append_cons interleave hsplit
    obtain ⟨c, hchange, happroves⟩ := step_change (hsafe _ he).1 hrejected
    rcases grant_back hchange hk with hold | ⟨candidates, rfl, hg⟩
    · exact hold
    · exact absurd ⟨g, hg, rfl, rfl⟩ happroves

/-- A sufficient check: a rejection is stored while every other run has ended. -/
def quiet (w : World) : Action → Bool
  | .proceed i _ =>
    match w.threads[i]? with
    | some (.call (.storeIgaApproval a) _) =>
      a.decision != "rejected" || (w.threads.eraseIdx i).all fun p =>
        match p with
        | .ret _ => true
        | .call _ _ => false
    | _ => true
  | _ => true

theorem calm_of_quiet (h : quiet w a = true) : Calm w a := by
  cases a with
  | validate run | other c persist => trivial
  | proceed i =>
    intro a k hi hdecision j p hj hp
    simp only [quiet, hi, hdecision, bne_self_eq_false, Bool.false_or, List.all_eq_true] at h
    have hmem : p ∈ w.threads.eraseIdx i := List.mem_eraseIdx_iff_getElem?.mpr ⟨j, hj, hp⟩
    have hended := h p hmem
    cases p with
    | ret => exact not_pending_ret
    | call => cases hended

namespace Sample

def request : IgaAccessRequestRecord :=
  { id := "request", tenantId := "tenant", subject := "user", entitlement := "app:erp:admin",
    reason := none, status := "approval_required",
    approvalStepsJson := encodeApprovalSteps
      [{ approver := "owner", reason := "owner_approval_required" },
        { approver := "security-admin", reason := "security_approval_required" }],
    violationsJson := .array [], packageEntitlementIdsJson := .array [],
    expiresAtEpochSeconds := none, createdAtEpochSeconds := 100 }

def decision (admin : String) (choice : AccessApprovalDecision) (issueGrant : Bool)
    (ulid : Nat → String) : ValidateRun :=
  { admin := admin, tenantId := "tenant",
    req := { requestId := some "request", approvals := [], decision := some choice,
             reason := none, expiresAtEpochSeconds := none, issueGrant := issueGrant },
    now := 200, ulid := ulid }

/-- The owner has approved, and the security administrator is about to. -/
def opening : List Action :=
  [.other ⟨.storeIgaAccessRequest request, rfl⟩ .done,
    .validate (decision "owner" .approved false fun _ => "first"),
    .proceed 0 .done, .proceed 0 .done, .proceed 0 .done,
    .validate (decision "security-admin" .approved true fun n =>
      if n = 0 then "second" else "grant")]

/-- The security administrator reads the owner's approval before the owner stores a rejection. -/
def reject : List Action :=
  opening ++ [.proceed 1 .done, .proceed 1 .done,
    .validate (decision "owner" .rejected false fun _ => "third"),
    .proceed 2 .done, .proceed 2 .done, .proceed 2 .done]

def refuse : Action := .proceed 2 .done

def override : List Action := [.proceed 1 .done, .proceed 1 .done]

def grant : Action := .proceed 1 .done

def late : List Action :=
  opening ++ [.validate (decision "owner" .rejected false fun _ => "third"),
    .proceed 2 .done, .proceed 2 .done,
    .proceed 1 .done, .proceed 1 .done, .proceed 1 .done, .proceed 1 .done, .proceed 1 .done,
    .proceed 2 .done, .proceed 2 .done]

def stored : World := final interleave (World.start .immediate) reject

def refused : World := (interleave stored refuse).2

def approved : World := final interleave refused override

theorem rejected_of_lookup {s : IgaStore}
    (h : (s.approvals.lookup k).map (fun a => (a.tenantId, a.requestId, a.decision)) =
      some (tenantId, id, "rejected")) : Rejected s tenantId id := by
  obtain ⟨a, ha, heq⟩ := Option.map_eq_some_iff.mp h
  rw [Prod.mk.injEq, Prod.mk.injEq] at heq
  exact ⟨k, a, ha, heq.1, heq.2.1, heq.2.2⟩

theorem run_race :
    run interleave (World.start .immediate) (reject ++ refuse :: (override ++ [grant])) =
      run interleave (World.start .immediate) reject ++ eventOf interleave stored refuse ::
        (run interleave refused override ++ [eventOf interleave approved grant]) := by
  rw [run_append, run_cons, run_append]
  rfl

end Sample

open Sample

theorem rejection_respected_late :
    RejectionFinal (run interleave (World.start .immediate) late) ∧
      NoGrantAfterRejection (run interleave (World.start .immediate) late) := by
  have hquiet : (run interleave (World.start .immediate) late).all
      (fun e => quiet e.before e.call) = true := by decide +kernel
  refine rejection_respected .immediate late fun e he => ?_
  exact calm_of_quiet (List.all_eq_true.mp hquiet e he)

/-- A run that read the approvals before the rejection was stored sets the status from rejected to
approved, and inserts a grant. -/
theorem approved_after_rejection :
    ∃ actions, ¬ RejectionFinal (run interleave (World.start .immediate) actions) ∧
      ¬ NoGrantAfterRejection (run interleave (World.start .immediate) actions) := by
  refine ⟨reject ++ refuse :: (override ++ [grant]), ?_, ?_⟩
  · intro h
    have hstatus : (refused.shared.store.accessRequests.lookup "request").map
        (fun r => (r.status, r.tenantId)) = some ("rejected", "tenant") := by decide +kernel
    have hrejected : Rejected refused.shared.store "tenant" "request" :=
      rejected_of_lookup (k := "third") (by decide +kernel)
    have hafter : ((interleave approved grant).2.shared.store.accessRequests.lookup
        "request").map (fun r => r.status) = some "approved" := by decide +kernel
    obtain ⟨r, hr, heq⟩ := Option.map_eq_some_iff.mp hstatus
    obtain ⟨r', hr', heq'⟩ := Option.map_eq_some_iff.mp hafter
    rw [Prod.mk.injEq] at heq
    rw [← heq.2] at hrejected
    exact h _ _ _ "request" r run_race hr heq.1 hrejected (eventOf interleave approved grant)
      List.mem_append_cons_self r' hr' heq'
  · intro h
    have hrejected : Rejected approved.shared.store "tenant" "request" :=
      rejected_of_lookup (k := "third") (by decide +kernel)
    have hbefore : approved.shared.store.accessGrants.lookup "grant" = none := by decide +kernel
    have hafter : ((interleave approved grant).2.shared.store.accessGrants.lookup "grant").map
        (fun g => (g.tenantId, g.requestId)) = some ("tenant", "request") := by decide +kernel
    obtain ⟨g, hg, heq⟩ := Option.map_eq_some_iff.mp hafter
    rw [Prod.mk.injEq] at heq
    rw [← heq.1, ← heq.2] at hrejected
    rw [run_race] at h
    obtain ⟨g', hg'⟩ := h (eventOf interleave approved grant)
      (List.mem_append_right _ (List.mem_cons_of_mem _ List.mem_append_cons_self)) "grant" g hg
      hrejected
    have hnone : approved.shared.store.accessGrants.lookup "grant" = some g' := hg'
    rw [hbefore] at hnone
    cases hnone

end Qid.Iga
