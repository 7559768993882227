/-
Separation of duties when a request is made.

Two entitlements conflict when the catalog entry of one lists the other.
-/
import Qid.Iga.Serve

namespace Qid.Iga

open Lib

variable {catalog : List Entitlement} {f subject requestId : String} {current : List String}
  {now : Nat} {run : RequestRun} {e entitlementId x : String} {duration : Option Nat}
  {package : IgaAccessPackageRecord} {l members : List String} {s : IgaStore}

/-- One of the entitlements lists the other. -/
def Conflict (catalog : List Entitlement) (e f : String) : Prop :=
  ∃ x ∈ catalog, x.id = e ∧ f ∈ x.conflictingEntitlements ∨ x.id = f ∧ e ∈ x.conflictingEntitlements

theorem Conflict.symm (h : Conflict catalog e f) : Conflict catalog f e := by
  obtain ⟨x, hx, h⟩ := h
  exact ⟨x, hx, h.symm⟩

/-- Unique ids, high risk, and no entitlement that lists itself. -/
structure CatalogSound (catalog : List Entitlement) : Prop where
  unique : ∀ x ∈ catalog, ∀ y ∈ catalog, x.id = y.id → x = y
  noSelf : ∀ x ∈ catalog, x.id ∉ x.conflictingEntitlements
  high : ∀ x ∈ catalog, .high ≤ x.riskLevel

theorem CatalogSound.ne_of_conflict (h : CatalogSound catalog) (hef : Conflict catalog e f) :
    e ≠ f := by
  rintro rfl
  obtain ⟨x, hx, h'⟩ := hef
  rcases h' with ⟨rfl, hmem⟩ | ⟨rfl, hmem⟩ <;> exact h.noSelf x hx hmem

theorem sodViolations_ne_nil (hcat : CatalogSound catalog) {entitlement : Entitlement}
    (hmem : entitlement ∈ catalog) (hf : f ∈ current)
    (hconflict : Conflict catalog entitlement.id f) :
    sodViolations entitlement entitlement.id current catalog ≠ [] := by
  have hne := hcat.ne_of_conflict hconflict
  intro hnil
  rw [sodViolations, List.append_eq_nil_iff, List.map_eq_nil_iff, List.map_eq_nil_iff,
    List.filter_eq_nil_iff, List.filter_eq_nil_iff] at hnil
  obtain ⟨hdeclared, hreverse⟩ := hnil
  -- A conflict that the entitlement itself lists is found by the first loop.
  have hnot : f ∉ entitlement.conflictingEntitlements := by
    intro hlist
    refine hdeclared f hlist ?_
    rw [Bool.and_eq_true, bne_iff_ne, List.contains_iff_mem]
    exact ⟨fun h => hne h.symm, hf⟩
  obtain ⟨x, hx, ⟨hid, hlist⟩ | ⟨hid, hlist⟩⟩ := hconflict
  · rw [hcat.unique x hx entitlement hmem hid] at hlist
    exact hnot hlist
  · subst hid
    refine hreverse x hx ?_
    rw [Bool.and_eq_true, Bool.and_eq_true, Bool.and_eq_true, bne_iff_ne, List.contains_iff_mem,
      List.contains_iff_mem, Bool.not_eq_true', ← Bool.not_eq_true, List.contains_iff_mem]
    exact ⟨⟨⟨fun h => hne h.symm, hf⟩, hlist⟩, hnot⟩

theorem evaluateAccessRequest_clear (hcat : CatalogSound catalog)
    (h : (evaluateAccessRequest requestId now subject entitlementId current duration
      catalog).status ≠ .rejected) : ∀ f ∈ current, ¬ Conflict catalog entitlementId f := by
  intro f hf hconflict
  unfold evaluateAccessRequest at h
  cases hfind : catalog.find? fun item => item.id == entitlementId with
  | none =>
    rw [hfind] at h
    exact h rfl
  | some entitlement =>
    have hmem := List.mem_of_find?_eq_some hfind
    have hid : entitlement.id = entitlementId := by
      have hpred := List.find?_some hfind
      exact beq_iff_eq.mp hpred
    subst hid
    have hviolations := sodViolations_ne_nil hcat hmem hf hconflict
    simp only [hfind] at h
    refine h (if_pos (Or.inr ⟨?_, hcat.high entitlement hmem⟩))
    intro hnil
    rw [List.append_eq_nil_iff, List.append_eq_nil_iff] at hnil
    exact hviolations hnil.1.1

theorem evaluateAccessRequest_subject :
    (evaluateAccessRequest requestId now subject entitlementId current duration catalog).subject =
        subject ∧
      (evaluateAccessRequest requestId now subject entitlementId current duration
        catalog).entitlement = entitlementId := by
  unfold evaluateAccessRequest
  split <;> exact ⟨rfl, rfl⟩

theorem combineStatus_ne_rejected {a b : AccessRequestStatus}
    (h : combineStatus a b ≠ .rejected) : a ≠ .rejected ∧ b ≠ .rejected := by
  cases a with
  | rejected =>
    cases b with
    | _ => exact absurd rfl h
  | _ =>
    cases b with
    | rejected => exact absurd rfl h
    | _ => exact ⟨by decide, by decide⟩

theorem foldl_addMember {evaluations : List AccessRequestEvaluation}
    (acc : AccessPackageEvaluation × List String) :
    (evaluations.foldl addMember acc).1.subject = acc.1.subject ∧
      ((evaluations.foldl addMember acc).1.status ≠ .rejected →
        acc.1.status ≠ .rejected ∧ ∀ e ∈ evaluations, e.status ≠ .rejected) := by
  induction evaluations generalizing acc with
  | nil => exact ⟨rfl, fun h => ⟨h, fun e he => (by cases he)⟩⟩
  | cons e rest ih =>
    obtain ⟨hsubject, hstatus⟩ := ih (addMember acc e)
    refine ⟨hsubject, fun h => ?_⟩
    obtain ⟨hacc, hrest⟩ := hstatus h
    obtain ⟨hacc, he⟩ := combineStatus_ne_rejected hacc
    exact ⟨hacc, List.forall_mem_cons.mpr ⟨he, hrest⟩⟩

/-- In a package that is not rejected, no member conflicts with a held entitlement or
with another member. -/
theorem memberEvaluations_clear (hcat : CatalogSound catalog)
    (h : (buildAccessPackageEvaluation requestId subject package.id
      (memberEvaluations run package current catalog)).status ≠ .rejected) :
    ∀ m ∈ package.entitlementIds, (∀ f ∈ current, ¬ Conflict catalog m f) ∧
      ∀ m' ∈ package.entitlementIds, ¬ Conflict catalog m m' := by
  intro m hm
  obtain ⟨i, hi, rfl⟩ := List.mem_iff_getElem.mp hm
  have hall := ((foldl_addMember _).2 h).2
  have hclear := evaluateAccessRequest_clear hcat (hall _ (List.mem_mapIdx.mpr ⟨i, hi, rfl⟩))
  refine ⟨fun f hf => hclear f (List.mem_append_left _ hf), fun m' hm' hconflict => ?_⟩
  have hne := hcat.ne_of_conflict hconflict
  refine hclear m' (List.mem_append_right _ (List.mem_filter.mpr ⟨hm', ?_⟩)) hconflict
  rw [bne_iff_ne]
  exact fun heq => hne heq.symm

def ActiveAt (now : Nat) (g : IgaAccessGrantRecord) : Prop :=
  g.revoked = false ∧ (g.expiresAtEpochSeconds.all fun expiresAt => expiresAt > now) = true

theorem mem_destutter' {a : String} (h : x ∈ a :: l) : x ∈ l.destutter' (· ≠ ·) a := by
  induction l generalizing a with
  | nil => exact h
  | cons b l ih =>
    rw [List.destutter']
    split_ifs with hab
    · rcases List.mem_cons.mp h with rfl | h
      · exact List.mem_cons_self
      · exact List.mem_cons_of_mem a (ih h)
    · rw [not_not] at hab
      subst hab
      rcases List.mem_cons.mp h with rfl | h
      · exact ih List.mem_cons_self
      · exact ih h

theorem mem_sortDedup (h : x ∈ l) : x ∈ sortDedup l := by
  rw [sortDedup]
  have hsorted : x ∈ l.insertionSort (fun a b => a ≤ b) := (List.mem_insertionSort _).mpr h
  cases hl : l.insertionSort (fun a b => a ≤ b) with
  | nil =>
    rw [hl] at hsorted
    cases hsorted
  | cons =>
    rw [hl] at hsorted
    exact mem_destutter' hsorted

/-- The entitlement of every grant in effect is among those a request is evaluated
against. -/
theorem mem_currentEntitlements {k tenantId : String} {g : IgaAccessGrantRecord}
    (hk : s.accessGrants.lookup k = some g) (htenant : g.tenantId = tenantId)
    (hsubject : g.subject = subject) (hactive : ActiveAt now g) :
    g.entitlement ∈ currentEntitlements now (subjectGrants s tenantId subject) := by
  refine mem_sortDedup (List.mem_map.mpr ⟨g, ?_, rfl⟩)
  rw [List.mem_filter, List.mem_filter, subjectGrants, List.mem_insertionSort, List.mem_filter]
  refine ⟨⟨⟨HashMap.mem_values.mpr ⟨k, hk⟩, ?_⟩, ?_⟩, hactive.2⟩
  · rw [htenant, hsubject, beq_self_eq_true, Bool.true_and, Option.all_some, beq_self_eq_true]
  · rw [hactive.1]
    rfl

/-- Unless it is rejected, no entitlement of the request conflicts with a grant of its subject in
effect at `now`, or with another of its entitlements. -/
structure Cleared (catalog : List Entitlement) (s : IgaStore) (now : Nat)
    (r : IgaAccessRequestRecord) : Prop where
  held : r.status ≠ "rejected" → ∀ members, requestSnapshot r = .ok members → ∀ m ∈ members,
    ∀ k g, s.accessGrants.lookup k = some g → g.tenantId = r.tenantId → g.subject = r.subject →
      ActiveAt now g → ¬ Conflict catalog m g.entitlement
  members : r.status ≠ "rejected" → ∀ members, requestSnapshot r = .ok members →
    ∀ m ∈ members, ∀ m' ∈ members, ¬ Conflict catalog m m'

theorem status_ne_rejected {status : AccessRequestStatus}
    (h : accessRequestStatusAsStr status ≠ "rejected") : status ≠ .rejected := by
  rintro rfl
  exact h rfl

theorem requestRecord_snapshot {evaluation : AccessRequestEvaluation}
    (h : requestSnapshot (requestRecord run evaluation) = .ok members) :
    ∀ m ∈ members, m = evaluation.entitlement := by
  unfold requestSnapshot at h
  split at h
  · -- An entitlement that looks like a package has no members.
    have hnil : members = [] := (Except.ok.inj h).symm
    rw [hnil]
    exact fun m hm => (by cases hm)
  · rw [pure_eq_ok] at h
    subst h
    exact fun m hm => List.mem_singleton.mp hm

theorem packageRecord_snapshot {evaluation : AccessPackageEvaluation}
    (h : requestSnapshot (packageRecord run package evaluation) = .ok members) :
    members = package.entitlementIds := by
  have hpackage : startsWith "access_package:" (packageRecord run package evaluation).entitlement =
      true := by
    show startsWith "access_package:" ("access_package:" ++ package.id) = true
    rw [startsWith, String.toList_append]
    exact List.isPrefixOf_iff_prefix.mpr (List.prefix_append _ _)
  rw [requestSnapshot, if_pos hpackage] at h
  simp only [packageRecord, decodeStrings_encodeStrings, pure_eq_ok] at h
  exact h.symm

theorem Evaluated.cleared {r : IgaAccessRequestRecord}
    (hcat : CatalogSound (catalogForTenant s run.tenantId)) (h : Evaluated s run r) :
    Cleared (catalogForTenant s run.tenantId) s (run.clock 0) r := by
  cases h with
  | single =>
    constructor
    · intro hstatus members hmembers m hm k g hk htenant hsubject hactive
      rw [requestRecord_snapshot hmembers m hm, evaluateAccessRequest_subject.2]
      refine evaluateAccessRequest_clear hcat (status_ne_rejected hstatus) _ ?_
      exact mem_currentEntitlements hk htenant
        (hsubject.trans evaluateAccessRequest_subject.1) hactive
    · intro hstatus members hmembers m hm m' hm' hconflict
      refine hcat.ne_of_conflict hconflict ?_
      rw [requestRecord_snapshot hmembers m hm, requestRecord_snapshot hmembers m' hm']
  | package =>
    constructor
    · intro hstatus members hmembers m hm k g hk htenant hsubject hactive
      rw [packageRecord_snapshot hmembers] at hm
      refine (memberEvaluations_clear hcat (status_ne_rejected hstatus) m hm).1 _ ?_
      exact mem_currentEntitlements hk htenant (hsubject.trans (foldl_addMember _).1) hactive
    · intro hstatus members hmembers m hm m' hm'
      rw [packageRecord_snapshot hmembers] at hm hm'
      exact (memberEvaluations_clear hcat (status_ne_rejected hstatus) m hm).2 m' hm'

end Qid.Iga
