/-
Separation of duties over runs.

The conflict check is made when a request is created, against the grants in effect then, so two
requests that are pending at the same time can both be granted.
-/
import Qid.Iga.Conflict

namespace Qid.Iga

open Lib Lib.Program Storage

variable {s t start : IgaStore} {c : Call} {tenantId id : String} {repo : FileRepository}
  {g : IgaAccessGrantRecord} {oracle : Nat → Persist} {request : Request}

/-! ## A deployment with a fixed catalog -/

def Call.catalogs : Call → Bool
  | .storeIgaEntitlement _ | .deleteIgaEntitlement _ _ | .storeIgaAccessPackage _
  | .deleteIgaAccessPackage _ _ => true
  | _ => false

def deployed (flushMode : FileFlushMode) (setup : List (Persist × { c : Call // c.catalogs })) :
    FileRepository :=
  final step (FileRepository.new flushMode) (setup.map fun k => (k.1, k.2.1))

/-- Entitlements are valid, and filed under their tenant and id. -/
def CatalogFiled (s : IgaStore) : Prop :=
  ∀ k e, s.entitlements.lookup k = some e →
    k = scopedRecordKey e.tenantId e.id ∧ e.validate = .ok ()

theorem CatalogFiled.change (h : CatalogFiled s) (hc : Change s c t) : CatalogFiled t := by
  cases hc with
  | entitlement e he =>
    intro k e' hk
    rcases HashMap.of_lookup_insert hk with ⟨heq, rfl⟩ | ⟨-, hold⟩
    · exact ⟨heq, he⟩
    · exact h k e' hold
  | entitlementGone =>
    intro k e hk
    rw [KeyMap.lookup_erase_eq] at hk
    split at hk
    · cases hk
    · exact h k e hk
  | _ => exact h

section

variable (flushMode : FileFlushMode) (setup : List (Persist × { c : Call // c.catalogs }))

theorem deployed_catalogFiled : CatalogFiled (deployed flushMode setup).store := by
  refine final_invariant step (I := fun r => CatalogFiled r.store) ?_ ?_ _
  · exact fun r k h => h.change (answer_change k.1 r k.2)
  · intro k e hk
    cases hk

theorem deployed_empty : (deployed flushMode setup).store.accessRequests = ∅ ∧
      (deployed flushMode setup).store.accessGrants = ∅ := by
  unfold deployed
  induction setup using List.reverseRecOn with
  | nil => exact ⟨rfl, rfl⟩
  | append_singleton setup k ih =>
    rw [List.map_append, final_append]
    show (answer k.1 _ k.2.1).2.store.accessRequests = ∅ ∧
      (answer k.1 _ k.2.1).2.store.accessGrants = ∅
    have hchange := answer_change k.1 (final step (FileRepository.new flushMode)
      (setup.map fun k => (k.1, k.2.1))) k.2.1
    obtain ⟨persist, c, hc⟩ := k
    generalize (answer persist _ c).2.store = t at hchange
    cases hchange with
    | request | status | grants | revoke => cases hc
    | _ => exact ih

end

theorem mem_catalogForTenant {x : Entitlement} (hx : x ∈ catalogForTenant s tenantId) :
    ∃ k e, s.entitlements.lookup k = some e ∧ e.tenantId = tenantId ∧
      entitlementFromRecord e = x := by
  obtain ⟨e, he, rfl⟩ := List.mem_map.mp hx
  obtain ⟨he, -⟩ := List.mem_filter.mp he
  rw [List.mem_insertionSort, List.mem_filter, beq_iff_eq] at he
  obtain ⟨k, hk⟩ := HashMap.mem_values.mp he.1
  exact ⟨k, e, hk, he.2, rfl⟩

/-- A stored catalog of high risk has unique ids and no entitlement that lists
itself. -/
theorem CatalogFiled.sound (h : CatalogFiled s)
    (hrisk : ∀ x ∈ catalogForTenant s tenantId, .high ≤ x.riskLevel) :
    CatalogSound (catalogForTenant s tenantId) := by
  refine ⟨?_, ?_, hrisk⟩
  · intro x hx y hy hid
    obtain ⟨k, e, hk, htenant, rfl⟩ := mem_catalogForTenant hx
    obtain ⟨l, f, hl, htenant', rfl⟩ := mem_catalogForTenant hy
    have hid : e.id = f.id := hid
    have hkl : k = l := by rw [(h k e hk).1, (h l f hl).1, htenant, htenant', hid]
    subst hkl
    rw [hk, Option.some.injEq] at hl
    rw [hl]
  · intro x hx
    obtain ⟨k, e, hk, -, rfl⟩ := mem_catalogForTenant hx
    have h := (h k e hk).2
    intro hmem
    unfold IgaEntitlementRecord.validate at h
    simp only [bind_eq_ok] at h
    obtain ⟨-, -, -, -, -, -, -, -, h⟩ := h
    split at h
    · cases h
    rw [bind_eq_ok] at h
    obtain ⟨⟨⟩, hconflicts, -⟩ := h
    have hself := forM_eq_ok.mp hconflicts e.id hmem
    rw [bind_eq_ok] at hself
    obtain ⟨-, -, hself⟩ := hself
    rw [if_pos rfl] at hself
    cases hself

/-! ## What the handlers leave as it is -/

theorem Change.entitlements_eq (h : Change s c t) (hc : c.catalogs = false) :
    t.entitlements = s.entitlements := by
  cases h with
  | entitlement | entitlementGone => cases hc
  | _ => rfl

theorem serve_other {I : IgaStore → Prop} (hrequest : ∀ run, request ≠ .accessRequest run)
    (hI : ∀ s c t, Change s c t → c.catalogs = false → (∀ r, c ≠ .storeIgaAccessRequest r) →
      I s → I t) (h : I repo.store) : I (serve repo (oracle, request)).2.store := by
  have hanswer : ∀ o (r : FileRepository) c,
      (c.catalogs = false ∧ ∀ q, c ≠ .storeIgaAccessRequest q) → I r.store →
      I (answer o r c).2.store :=
    fun o r c hc => hI _ _ _ (answer_change o r c) hc.1 hc.2
  cases request with
  | accessRequest run => exact absurd rfl (hrequest run)
  | validateApprovals run =>
    show I (exec answer oracle repo (validateApprovals run)).2.store
    cases hid : run.requestId? with
    | none =>
      rw [validateApprovals, hid]
      exact h
    | some =>
      refine exec_invariant hanswer ((validateApprovals_makes hid).mono ?_) h oracle
      intro c hc
      cases hc with
      | _ => exact ⟨rfl, nofun⟩
  | revokeAccessGrant tenantId id reason =>
    refine exec_invariant hanswer ((revokeAccessGrant_makes tenantId id reason).mono ?_) h oracle
    intro c hc
    cases c with
    | listIgaAccessGrants | revokeIgaAccessGrant => exact ⟨rfl, nofun⟩
    | _ => exact hc.elim

theorem serve_request_none (hnone : repo.store.accessRequests.lookup id = none)
    (hrequest : ∀ run, request ≠ .accessRequest run) :
    (serve repo (oracle, request)).2.store.accessRequests.lookup id = none := by
  refine serve_other (I := fun s => s.accessRequests.lookup id = none) hrequest
    (fun s c t hchange _ hc hs => ?_) hnone
  -- a request appears only by the call that stores it
  cases hchange with
  | request r => exact absurd rfl (hc r)
  | status id₀ status r hget =>
    have hne : id ≠ id₀ := by
      rintro rfl
      rw [hget] at hs
      cases hs
    rw [AList.lookup_insert_ne hne, hs]
  | _ => exact hs

theorem serve_entitlements (repo : FileRepository) (k : (Nat → Persist) × Request) :
    (serve repo k).2.store.entitlements = repo.store.entitlements := by
  obtain ⟨oracle, request⟩ := k
  cases request with
  | accessRequest run =>
    show (exec answer oracle repo (accessRequest run)).2.store.entitlements = _
    rcases exec_accessRequest oracle repo run with h | ⟨r, -, -, h⟩ <;> rw [h]
  | _ =>
    exact serve_other (I := fun s => s.entitlements = repo.store.entitlements) nofun
      (fun _ _ _ hchange hc _ hs => (hchange.entitlements_eq hc).trans hs) rfl

/-! ## A rejected request -/

/-- The request is rejected and has no grant. -/
structure Shut (id : String) (s : IgaStore) : Prop where
  status : ∃ r, s.accessRequests.lookup id = some r ∧ r.status = "rejected"
  grants : ∀ k g, s.accessGrants.lookup k = some g → g.requestId ≠ id

theorem Shut.change (h : Shut id s) (hc : Change s c t) (hstatus : ∀ tenantId status,
      c ≠ .updateIgaAccessRequestStatus tenantId id status) : Shut id t := by
  obtain ⟨⟨r, hr, hrejected⟩, hgrants⟩ := h
  cases hc with
  | request r' _ hnew => exact ⟨⟨r, HashMap.lookup_insert_of_fresh hnew hr, hrejected⟩, hgrants⟩
  | status id₀ status r₀ =>
    refine ⟨⟨r, ?_, hrejected⟩, hgrants⟩
    have hne : id ≠ id₀ := by
      rintro rfl
      exact hstatus r₀.tenantId status rfl
    rw [AList.lookup_insert_ne hne, hr]
  | grants staged =>
    refine ⟨⟨r, hr, hrejected⟩, fun k g hk hid => ?_⟩
    rcases staged.lookup_withGrants.mp hk with hk | ⟨hg, -⟩
    · exact hgrants k g hk hid
    · -- Grants are inserted for an approved request only.
      have hfound := staged.found
      have hsame := (staged.batch.same g (staged.mem_candidates hg)).request
      rw [← hsame, hid, hr, Option.some.injEq] at hfound
      have happroved := staged.checked.approved
      rw [← hfound, hrejected] at happroved
      exact absurd happroved (by decide)
  | revoke id₀ g₀ hget =>
    refine ⟨⟨r, hr, hrejected⟩, fun k g hk hid => ?_⟩
    rcases HashMap.of_lookup_insert hk with ⟨-, rfl⟩ | ⟨-, hold⟩
    · exact hgrants id₀ g₀ hget hid
    · exact hgrants k g hold hid
  | _ => exact ⟨⟨r, hr, hrejected⟩, hgrants⟩

theorem Shut.validate (h : Shut id repo.store) (oracle : Nat → Persist) (run : ValidateRun) :
    Shut id (exec answer oracle repo (validateApprovals run)).2.store := by
  cases hid : run.requestId? with
  | none =>
    rw [validateApprovals, hid]
    exact h
  | some requestId =>
    by_cases heq : requestId = id
    · subst heq
      obtain ⟨r, hr, hrejected⟩ := h.status
      rw [validateApprovals, hid]
      rw [exec_call]
      dsimp only [answer, getIgaAccessRequest, pure, Except.pure]
      rw [hr]
      cases hfilter : (some r).filter fun r => r.tenantId == run.tenantId with
      | none => exact h
      | some stored =>
        have hstored : r = stored := Option.some.inj (Option.filter_eq_some_iff.mp hfilter).1
        subst hstored
        dsimp only
        -- a rejected request is answered as soon as it is read
        rw [validateStored, if_pos (by rw [hrejected]; decide)]
        exact h
    · refine exec_invariant (I := fun r : FileRepository => Shut id r.store) ?_
        (validateApprovals_makes hid) h oracle
      intro o r c hc hr
      refine hr.change (answer_change o r c) fun tenantId status hcall => ?_
      subst hcall
      cases hc
      exact heq rfl

theorem Shut.serve (h : Shut id repo.store) (k : (Nat → Persist) × Request) :
    Shut id (serve repo k).2.store := by
  obtain ⟨oracle, request⟩ := k
  cases request with
  | accessRequest run =>
    show Shut id (exec answer oracle repo (accessRequest run)).2.store
    rcases exec_accessRequest oracle repo run with ht | ⟨r, -, hnew, ht⟩
    · rw [ht]
      exact h
    · rw [ht]
      obtain ⟨⟨r', hr', hrejected⟩, hgrants⟩ := h
      exact ⟨⟨r', HashMap.lookup_insert_of_fresh hnew hr', hrejected⟩, hgrants⟩
  | validateApprovals run => exact h.validate oracle run
  | revokeAccessGrant tenantId id' reason =>
    refine exec_invariant (I := fun r : FileRepository => Shut id r.store) ?_
      (revokeAccessGrant_makes tenantId id' reason) h oracle
    intro o r c hc hr
    refine hr.change (answer_change o r c) fun tenantId status hcall => ?_
    subst hcall
    exact hc

/-! ## Where requests come from -/

abbrev ServeEvent : Type := Event FileRepository ((Nat → Persist) × Request) Reply

/-- The event is a request for access that stored `r`, evaluated against what the store held. -/
structure Creates (catalog : List Entitlement) (e : ServeEvent) (now : Nat)
    (r : IgaAccessRequestRecord) : Prop where
  call : ∃ oracle run, e.call = (oracle, .accessRequest run) ∧ run.clock 0 = now
  absent : e.before.store.accessRequests.lookup r.id = none
  stored : e.after.store.accessRequests.lookup r.id = some r
  cleared : Cleared catalog e.before.store now r

/-- A request of the store was created by an event, and has kept all but its status. If it was
rejected then, it still is. -/
def Born (catalog : List Entitlement) (events : List ServeEvent) (s : IgaStore)
    (r : IgaAccessRequestRecord) : Prop :=
  ∃ e ∈ events, ∃ now r₀, Creates catalog e now r₀ ∧ r = { r₀ with status := r.status } ∧
    (r₀.status = "rejected" → Shut r₀.id s)

structure History (start : IgaStore) (tenantId : String) (events : List ServeEvent)
    (repo : FileRepository) : Prop where
  entitlements : repo.store.entitlements = start.entitlements
  sound : GrantsSound repo.store
  kept : ∀ e ∈ events, GrantsKept e.before.store repo.store
  filed : ∀ id r, repo.store.accessRequests.lookup id = some r → r.id = id
  born : ∀ id r, repo.store.accessRequests.lookup id = some r → r.tenantId = tenantId →
    Born (catalogForTenant start tenantId) events repo.store r

variable {events : List ServeEvent}

section

variable {k : (Nat → Persist) × Request} {r : IgaAccessRequestRecord}
  (h : History start tenantId events repo)
include h

theorem History.created (hcat : CatalogSound (catalogForTenant start tenantId))
    (hnone : repo.store.accessRequests.lookup id = none)
    (hr : (serve repo k).2.store.accessRequests.lookup id = some r) :
    r.id = id ∧ (r.tenantId = tenantId →
      Born (catalogForTenant start tenantId) (events ++ [eventOf serve repo k])
        (serve repo k).2.store r) := by
  obtain ⟨oracle, request⟩ := k
  cases request with
  | validateApprovals run | revokeAccessGrant tenantId id reason =>
    rw [serve_request_none hnone fun _ hq => (by cases hq)] at hr
    cases hr
  | accessRequest run =>
    have hstored : Stored repo.store (serve repo (oracle, .accessRequest run)).2.store
      (Evaluated repo.store run) := exec_accessRequest oracle repo run
    generalize hserved : (serve repo (oracle, .accessRequest run)).2.store = t at hstored hr
    rcases hstored with rfl | ⟨r', heval, hnew, rfl⟩
    · rw [hnone] at hr
      cases hr
    · have hlook : (repo.store.accessRequests.insert r'.id r').lookup id = some r := hr
      rw [KeyMap.lookup_insert_eq] at hlook
      split at hlook
      · rename_i hid
        subst hid
        cases hlook
        refine ⟨rfl, fun htenant => ?_⟩
        have hrun : run.tenantId = tenantId := by
          cases heval with
          | _ => exact htenant
        subst hrun
        have hsame : catalogForTenant repo.store run.tenantId =
            catalogForTenant start run.tenantId := by
          rw [catalogForTenant, catalogForTenant, h.entitlements]
        have hcleared := heval.cleared (hsame.symm ▸ hcat)
        rw [hsame] at hcleared
        refine ⟨eventOf serve repo (oracle, .accessRequest run),
          List.mem_append_cons_self, run.clock 0, r,
          ⟨⟨oracle, run, rfl, rfl⟩, hnew, ?_, hcleared⟩, rfl, fun hrejected => ?_⟩
        · show (serve repo (oracle, .accessRequest run)).2.store.accessRequests.lookup r.id = _
          rw [hserved]
          exact AList.lookup_insert _
        · -- The request is new, so no grant belongs to it.
          refine ⟨⟨r, AList.lookup_insert _, hrejected⟩, fun l g hl hg => ?_⟩
          obtain ⟨q, members, hq, -⟩ := (h.sound.owned l g hl).owner
          rw [hg, hnew] at hq
          cases hq
      · rw [hnone] at hlook
        cases hlook

theorem History.carried {r' : IgaAccessRequestRecord}
    (hr : repo.store.accessRequests.lookup id = some r)
    (hr' : (serve repo k).2.store.accessRequests.lookup id = some r') :
    r'.id = id ∧ (r'.tenantId = tenantId →
      Born (catalogForTenant start tenantId) (events ++ [eventOf serve repo k])
        (serve repo k).2.store r') := by
  have hkept : RequestsKept repo.store (serve repo k).2.store := by
    refine serve_invariant ?_ (RequestsKept.of_eq rfl) k
    intro s c t hc hs id r hr
    obtain ⟨status, hr⟩ := hs id r hr
    obtain ⟨status', hr'⟩ := hc.requestsKept id _ hr
    exact ⟨status', hr'⟩
  obtain ⟨status, hstatus⟩ := hkept id r hr
  rw [hr', Option.some.injEq] at hstatus
  subst hstatus
  refine ⟨h.filed id r hr, fun htenant => ?_⟩
  obtain ⟨e, he, now, r₀, hcreates, hsame, hshut⟩ := h.born id r hr htenant
  refine ⟨e, List.mem_append_left _ he, now, r₀, hcreates, ?_, fun hrejected => ?_⟩
  · rw [hsame]
  · exact (hshut hrejected).serve k

theorem History.step (hcat : CatalogSound (catalogForTenant start tenantId))
    (k : (Nat → Persist) × Request) :
    History start tenantId (events ++ [eventOf serve repo k]) (serve repo k).2 := by
  have hgrants : GrantsKept repo.store (serve repo k).2.store := by
    refine serve_invariant ?_ (GrantsKept.refl repo.store) k
    exact fun s c t hc hs => hs.trans hc.grantsKept
  have hrequests : ∀ id r, (serve repo k).2.store.accessRequests.lookup id = some r →
      r.id = id ∧ (r.tenantId = tenantId →
        Born (catalogForTenant start tenantId) (events ++ [eventOf serve repo k])
          (serve repo k).2.store r) := by
    intro id r hr
    cases hold : repo.store.accessRequests.lookup id with
    | none => exact h.created hcat hold hr
    | some => exact h.carried hold hr
  constructor
  · rw [serve_entitlements, h.entitlements]
  · exact serve_invariant (fun s c t hc hs => hs.change hc) h.sound k
  · intro e he
    rcases List.mem_append.mp he with he | he
    · exact (h.kept e he).trans hgrants
    · rw [List.mem_singleton.mp he]
      exact hgrants
  · exact fun id r hr => (hrequests id r hr).1
  · exact fun id r hr => (hrequests id r hr).2

end

theorem history_start (flushMode : FileFlushMode)
    (setup : List (Persist × { c : Call // c.catalogs })) (tenantId : String) :
    History (deployed flushMode setup).store tenantId [] (deployed flushMode setup) := by
  obtain ⟨hrequests, hgrants⟩ := deployed_empty flushMode setup
  constructor
  · rfl
  · constructor
    · intro k l g g' hk
      rw [hgrants] at hk
      cases hk
    · intro k g hk
      rw [hgrants] at hk
      cases hk
  · exact fun e he => (by cases he)
  · intro id r hr
    rw [hrequests] at hr
    cases hr
  · intro id r hr
    rw [hrequests] at hr
    cases hr

/-- The request was created by an event before which the grant `k` was not in
effect. -/
def RequestedWithout (events : List ServeEvent) (id k : String) : Prop :=
  ∃ e ∈ events, ∃ oracle run, e.call = (oracle, .accessRequest run) ∧
    e.before.store.accessRequests.lookup id = none ∧
    (∃ r, e.after.store.accessRequests.lookup id = some r) ∧
    ∀ g, e.before.store.accessGrants.lookup k = some g → ¬ ActiveAt (run.clock 0) g

theorem History.origin (h : History start tenantId events repo) {k : String}
    (hk : repo.store.accessGrants.lookup k = some g) (htenant : g.tenantId = tenantId) :
    ∃ e ∈ events, ∃ now r members, Creates (catalogForTenant start tenantId) e now r ∧
      r.id = g.requestId ∧ r.tenantId = tenantId ∧ r.subject = g.subject ∧
      r.status ≠ "rejected" ∧ requestSnapshot r = .ok members ∧ g.entitlement ∈ members ∧
      ∃ status, repo.store.accessRequests.lookup g.requestId =
        some { r with status := status } := by
  obtain ⟨r, members, hr, hrtenant, hsubject, hmembers, hmem⟩ := (h.sound.owned k g hk).owner
  have hrt : r.tenantId = tenantId := hrtenant.trans htenant
  have hid : r.id = g.requestId := h.filed _ _ hr
  obtain ⟨e, he, now, r₀, hcreates, hsame, hshut⟩ := h.born _ _ hr hrt
  rw [hsame] at hr hid hrt hsubject hmembers
  refine ⟨e, he, now, r₀, members, hcreates, hid, hrt, hsubject, fun hrejected => ?_, hmembers,
    hmem, r.status, hr⟩
  exact (hshut hrejected).grants k g hk hid.symm

theorem History.requestedWithout (h : History start tenantId events repo) {k l : String}
    {g' : IgaAccessGrantRecord} (hk : repo.store.accessGrants.lookup k = some g)
    (hl : repo.store.accessGrants.lookup l = some g') (htenant : g.tenantId = tenantId)
    (htenant' : g'.tenantId = tenantId) (hsubject : g.subject = g'.subject)
    (hconflict : Conflict (catalogForTenant start tenantId) g.entitlement g'.entitlement) :
    RequestedWithout events g.requestId l := by
  obtain ⟨e, he, now, r, members, hcreates, hid, hrt, hrs, hstatus, hmembers, hmem, -⟩ :=
    h.origin hk htenant
  obtain ⟨oracle, run, hcall, rfl⟩ := hcreates.call
  refine ⟨e, he, oracle, run, hcall, hid ▸ hcreates.absent, ⟨r, hid ▸ hcreates.stored⟩, ?_⟩
  intro g₀ hg₀ hactive
  -- The grant is the same record now, up to its revocation.
  have hsame : g₀.tenantId = g'.tenantId ∧ g₀.subject = g'.subject ∧
      g₀.entitlement = g'.entitlement := by
    rcases h.kept e he l g₀ hg₀ with heq | heq
    all_goals
      rw [hl, Option.some.injEq] at heq
      subst heq
      exact ⟨rfl, rfl, rfl⟩
  refine hcreates.cleared.held hstatus members hmembers _ hmem l g₀ hg₀ ?_ ?_ hactive ?_
  · rw [hsame.1, htenant', hrt]
  · rw [hsame.2.1, hrs, hsubject]
  · rw [hsame.2.2]
    exact hconflict

/-- In every run over a fixed catalog of high risk, two conflicting grants of a subject come from
different requests, and each request was created while the other grant was not in effect. -/
theorem conflicting_grants_requested_apart (flushMode : FileFlushMode)
    (setup : List (Persist × { c : Call // c.catalogs })) (tenantId subject : String)
    (hrisk : ∀ x ∈ catalogForTenant (deployed flushMode setup).store tenantId, .high ≤ x.riskLevel)
    (requests : List ((Nat → Persist) × Request)) :
    ∀ k l g g', (final serve (deployed flushMode setup) requests).store.accessGrants.lookup k =
        some g →
      (final serve (deployed flushMode setup) requests).store.accessGrants.lookup l = some g' →
      g.tenantId = tenantId → g'.tenantId = tenantId → g.subject = subject → g'.subject = subject →
      Conflict (catalogForTenant (deployed flushMode setup).store tenantId)
        g.entitlement g'.entitlement →
      g.requestId ≠ g'.requestId ∧
        RequestedWithout (run serve (deployed flushMode setup) requests) g.requestId l ∧
        RequestedWithout (run serve (deployed flushMode setup) requests) g'.requestId k := by
  intro k l g g' hk hl htenant htenant' hsubject hsubject' hconflict
  have hcat := (deployed_catalogFiled flushMode setup).sound hrisk
  have hh := run_history serve (fun _ _ k hh => hh.step hcat k)
    (history_start flushMode setup tenantId) requests
  have hsame : g.subject = g'.subject := hsubject.trans hsubject'.symm
  refine ⟨fun heq => ?_, ?_, ?_⟩
  · -- The members of one request do not conflict.
    obtain ⟨e, -, now, r, members, hcreates, -, -, -, hstatus, hmembers, hmem, st, hr⟩ :=
      hh.origin hk htenant
    obtain ⟨r', members', hr', -, -, hmembers', hmem'⟩ := (hh.sound.owned l g' hl).owner
    rw [← heq, hr, Option.some.injEq] at hr'
    subst hr'
    have hsnapshot : members = members' := Except.ok.inj (hmembers.symm.trans hmembers')
    subst hsnapshot
    exact hcreates.cleared.members hstatus members hmembers _ hmem _ hmem' hconflict
  · exact hh.requestedWithout hk hl htenant htenant' hsame hconflict
  · exact hh.requestedWithout hl hk htenant' htenant hsame.symm hconflict.symm

def NoActiveConflict (catalog : List Entitlement) (s : IgaStore) (tenantId subject : String)
    (now : Nat) : Prop :=
  ∀ k l g g', s.accessGrants.lookup k = some g → s.accessGrants.lookup l = some g' →
    g.tenantId = tenantId → g'.tenantId = tenantId → g.subject = subject → g'.subject = subject →
    ActiveAt now g → ActiveAt now g' → ¬ Conflict catalog g.entitlement g'.entitlement

namespace Sample

def entitlement (id : String) (conflicts : List String) : IgaEntitlementRecord :=
  { id := id, tenantId := "tenant", displayName := id, owner := "owner", riskLevel := "high",
    conflictingEntitlements := conflicts, maxDurationSeconds := none, active := true }

def catalog : List (Persist × { c : Call // c.catalogs }) :=
  [(.done, ⟨.storeIgaEntitlement (entitlement "admin" ["audit"]), rfl⟩),
    (.done, ⟨.storeIgaEntitlement (entitlement "audit" []), rfl⟩)]

def ask (id entitlement : String) : (Nat → Persist) × Request :=
  (fun _ => .done, .accessRequest
    { tenantId := "tenant",
      req := { subject := "user", entitlement := some entitlement, accessPackageId := none,
               reason := none, requestedDurationSeconds := none },
      clock := fun _ => 100, ulid := fun _ => id })

def approve (admin id : String) (issueGrant : Bool) (ulid : Nat → String) :
    (Nat → Persist) × Request :=
  (fun _ => .done, .validateApprovals
    { admin := admin, tenantId := "tenant",
      req := { requestId := some id, approvals := [], decision := some .approved, reason := none,
               expiresAtEpochSeconds := none, issueGrant := issueGrant },
      now := 200, ulid := ulid })

def both : List ((Nat → Persist) × Request) :=
  [ask "first" "admin", ask "second" "audit",
    approve "owner" "first" false fun _ => "a1",
    approve "security-admin" "first" true fun n => if n = 0 then "a2" else "g1",
    approve "owner" "second" false fun _ => "a3",
    approve "security-admin" "second" true fun n => if n = 0 then "a4" else "g2"]

def granted : FileRepository := final serve (deployed .immediate catalog) both

theorem catalog_high : ∀ x ∈ catalogForTenant (deployed .immediate catalog).store "tenant",
    .high ≤ x.riskLevel := by decide +kernel

def Issued (requestId entitlement : String) (g : IgaAccessGrantRecord) : Prop :=
  g.tenantId = "tenant" ∧ g.subject = "user" ∧ g.entitlement = entitlement ∧
    g.requestId = requestId ∧ g.revoked = false ∧ g.expiresAtEpochSeconds = none

instance (requestId entitlement : String) (g : IgaAccessGrantRecord) :
    Decidable (Issued requestId entitlement g) := inferInstanceAs (Decidable (_ ∧ _))

theorem both_granted : ∃ g ∈ granted.store.accessGrants.lookup "g1",
    ∃ g' ∈ granted.store.accessGrants.lookup "g2", Issued "first" "admin" g ∧
      Issued "second" "audit" g' ∧
      Conflict (catalogForTenant (deployed .immediate catalog).store "tenant") g.entitlement
        g'.entitlement := by
  unfold Conflict
  decide +kernel

theorem Issued.activeAt {requestId entitlement : String} (h : Issued requestId entitlement g)
    (now : Nat) : ActiveAt now g := by
  obtain ⟨-, -, -, -, hrevoked, hexpires⟩ := h
  refine ⟨hrevoked, ?_⟩
  rw [hexpires]
  rfl

end Sample

open Sample

/-- Two requests that are pending together are both granted. -/
theorem conflicting_grants_active :
    ¬ ∀ (flushMode : FileFlushMode) (setup : List (Persist × { c : Call // c.catalogs }))
      (tenantId subject : String),
      (∀ x ∈ catalogForTenant (deployed flushMode setup).store tenantId, .high ≤ x.riskLevel) →
      ∀ (requests : List ((Nat → Persist) × Request)) (now : Nat),
        NoActiveConflict (catalogForTenant (deployed flushMode setup).store tenantId)
          (final serve (deployed flushMode setup) requests).store tenantId subject now := by
  intro h
  obtain ⟨g, hg, g', hg', hissued, hissued', hconflict⟩ := both_granted
  exact h .immediate catalog "tenant" "user" catalog_high both 300
    "g1" "g2" g g' hg hg' hissued.1 hissued'.1 hissued.2.1 hissued'.2.1 (hissued.activeAt 300)
    (hissued'.activeAt 300) hconflict

theorem both_requested_apart :
    RequestedWithout (run serve (deployed .immediate catalog) both) "first" "g2" ∧
      RequestedWithout (run serve (deployed .immediate catalog) both) "second" "g1" := by
  obtain ⟨g, hg, g', hg', hissued, hissued', hconflict⟩ := both_granted
  have hapart := (conflicting_grants_requested_apart .immediate catalog "tenant" "user"
    catalog_high both "g1" "g2" g g' hg hg' hissued.1 hissued'.1 hissued.2.1
    hissued'.2.1 hconflict).2
  rw [hissued.2.2.2.1, hissued'.2.2.2.1] at hapart
  exact hapart

end Qid.Iga
