/-
Validation of a grant set.

A translation of `qid-storage/src/iga_grants.rs`. The arguments of `missingGrants` include the first
candidate, which the source reads from the list after `validate_candidates` has refused an empty
one.
-/
import Qid.Iga.Record
import Qid.Lib.Checked
import Mathlib.Data.Finset.Card

namespace Qid.Iga

open Lib

variable {first : IgaAccessGrantRecord} {candidates incumbents : List IgaAccessGrantRecord}

def invalid (message : String) : QidError := .badRequest message

/-- With the entitlements and ids seen so far. -/
def checkCandidates (first : IgaAccessGrantRecord) :
    List String → List String → List IgaAccessGrantRecord → QidResult Unit
  | _, _, [] => return ()
  | entitlements, ids, c :: rest => do
    c.validate
    if c.revoked || c.tenantId != first.tenantId || c.requestId != first.requestId ||
        c.subject != first.subject || entitlements.contains c.entitlement ||
        ids.contains c.id then
      throw (invalid "IGA grant candidates have mixed or duplicate bindings")
    else
      checkCandidates first (c.entitlement :: entitlements) (c.id :: ids) rest

def validateCandidates : List IgaAccessGrantRecord → QidResult IgaAccessGrantRecord
  | [] => throw (invalid "IGA grant candidates must not be empty")
  | first :: rest => do
    checkCandidates first [] [] (first :: rest)
    return first

/-- Its own entitlement, or the members of the package when it was made. -/
def requestSnapshot (request : IgaAccessRequestRecord) : QidResult (List String) :=
  if startsWith "access_package:" request.entitlement then
    match decodeStrings request.packageEntitlementIdsJson with
    | some members => return members
    | none => throw (invalid "IGA access package snapshot is malformed")
  else
    return [request.entitlement]

def bindings (candidates : List IgaAccessGrantRecord) : Finset String :=
  (candidates.map fun c => c.entitlement).toFinset

/-- With the entitlements present so far. -/
def checkIncumbents (first : IgaAccessGrantRecord) (candidates : List IgaAccessGrantRecord) :
    List String → List IgaAccessGrantRecord → QidResult (List String)
  | present, [] => return present
  | present, g :: rest => do
    g.validate
    if g.tenantId != first.tenantId || g.requestId != first.requestId ||
        g.subject != first.subject || g.entitlement ∉ bindings candidates ||
        present.contains g.entitlement ||
        candidates.any fun c => c.id == g.id && c.entitlement != g.entitlement then
      throw (invalid "IGA access request has inconsistent incumbent grant bindings")
    else
      checkIncumbents first candidates (g.entitlement :: present) rest

def missingGrants (first : IgaAccessGrantRecord) (candidates : List IgaAccessGrantRecord)
    (request : IgaAccessRequestRecord) (incumbents : List IgaAccessGrantRecord) :
    QidResult (List IgaAccessGrantRecord) :=
  if request.status != "approved" || request.tenantId != first.tenantId ||
      request.id != first.requestId || request.subject != first.subject then
    throw (invalid "IGA grant candidates do not match their access request")
  else do
    let expected ← requestSnapshot request
    if expected.isEmpty || expected.length != (bindings candidates).card ||
        expected.toFinset ≠ bindings candidates then
      throw (invalid "IGA grant candidates must cover the complete request snapshot")
    else do
      let present ← checkIncumbents first candidates [] incumbents
      return candidates.filter fun c => !present.contains c.entitlement

structure SameBinding (first g : IgaAccessGrantRecord) : Prop where
  tenant : g.tenantId = first.tenantId
  request : g.requestId = first.requestId
  subject : g.subject = first.subject

structure Batch (first : IgaAccessGrantRecord) (candidates : List IgaAccessGrantRecord) : Prop where
  head : candidates.head? = some first
  same : ∀ c ∈ candidates, SameBinding first c
  unrevoked : ∀ c ∈ candidates, c.revoked = false
  entitlements : (candidates.map fun c => c.entitlement).Nodup
  ids : (candidates.map fun c => c.id).Nodup

theorem checkCandidates_ok {entitlements ids : List String}
    (h : checkCandidates first entitlements ids candidates = .ok ()) :
    (∀ c ∈ candidates, SameBinding first c ∧ c.revoked = false ∧
      c.entitlement ∉ entitlements ∧ c.id ∉ ids) ∧
    (candidates.map fun c => c.entitlement).Nodup ∧ (candidates.map fun c => c.id).Nodup := by
  induction candidates generalizing entitlements ids with
  | nil => exact ⟨fun c hc => (by cases hc), List.nodup_nil, List.nodup_nil⟩
  | cons c rest ih =>
    rw [checkCandidates, bind_eq_ok] at h
    obtain ⟨-, -, h⟩ := h
    rw [guard_eq_ok] at h
    obtain ⟨hc, h⟩ := h
    obtain ⟨hrest, hents, hids⟩ := ih h
    simp only [Bool.or_eq_true, bne_iff_ne, List.contains_iff_mem, not_or, not_not,
      Bool.not_eq_true] at hc
    obtain ⟨⟨⟨⟨⟨hrev, htenant⟩, hrequest⟩, hsubject⟩, hent⟩, hid⟩ := hc
    obtain ⟨hents, hnewents⟩ := nodup_cons_new.mpr ⟨hent, hents, fun d hd => (hrest d hd).2.2.1⟩
    obtain ⟨hids, hnewids⟩ := nodup_cons_new.mpr ⟨hid, hids, fun d hd => (hrest d hd).2.2.2⟩
    have hsame : ∀ d ∈ c :: rest, SameBinding first d ∧ d.revoked = false :=
      List.forall_mem_cons.mpr ⟨⟨⟨htenant, hrequest, hsubject⟩, hrev⟩,
        fun d hd => ⟨(hrest d hd).1, (hrest d hd).2.1⟩⟩
    exact ⟨fun d hd => ⟨(hsame d hd).1, (hsame d hd).2, hnewents d hd, hnewids d hd⟩, hents, hids⟩

theorem validateCandidates_ok (h : validateCandidates candidates = .ok first) :
    Batch first candidates := by
  cases candidates with
  | nil => cases h
  | cons c =>
    rw [validateCandidates, bind_eq_ok] at h
    obtain ⟨⟨⟩, hcheck, h⟩ := h
    rw [pure_eq_ok] at h
    subst h
    obtain ⟨hall, hents, hids⟩ := checkCandidates_ok hcheck
    exact ⟨rfl, fun c hc => (hall c hc).1, fun c hc => (hall c hc).2.1, hents, hids⟩

theorem checkIncumbents_ok {present result : List String}
    (h : checkIncumbents first candidates present incumbents = .ok result) :
    (∀ g ∈ incumbents, SameBinding first g ∧ g.entitlement ∈ bindings candidates) ∧
    ∀ e, e ∈ result ↔ e ∈ present ∨ e ∈ incumbents.map fun g => g.entitlement := by
  induction incumbents generalizing present with
  | nil =>
    rw [checkIncumbents, pure_eq_ok] at h
    subst h
    refine ⟨fun g hg => (by cases hg), fun e => ?_⟩
    exact ⟨Or.inl, fun he => he.resolve_right List.not_mem_nil⟩
  | cons g rest ih =>
    rw [checkIncumbents, bind_eq_ok] at h
    obtain ⟨-, -, h⟩ := h
    rw [guard_eq_ok] at h
    obtain ⟨hg, h⟩ := h
    obtain ⟨hrest, hresult⟩ := ih h
    simp only [Bool.or_eq_true, bne_iff_ne, decide_eq_true_eq, not_or, not_not] at hg
    obtain ⟨⟨⟨⟨⟨htenant, hrequest⟩, hsubject⟩, hbound⟩, -⟩, -⟩ := hg
    refine ⟨List.forall_mem_cons.mpr ⟨⟨⟨htenant, hrequest, hsubject⟩, hbound⟩, hrest⟩, fun e => ?_⟩
    rw [hresult, List.map_cons, List.mem_cons, List.mem_cons, or_assoc, or_left_comm]

structure Missing (first : IgaAccessGrantRecord) (candidates : List IgaAccessGrantRecord)
    (request : IgaAccessRequestRecord) (incumbents missing : List IgaAccessGrantRecord) :
    Prop where
  approved : request.status = "approved"
  sameTenant : request.tenantId = first.tenantId
  sameId : request.id = first.requestId
  sameSubject : request.subject = first.subject
  snapshot : ∃ members, requestSnapshot request = .ok members ∧
    ∀ e, e ∈ members ↔ e ∈ candidates.map fun c => c.entitlement
  agree : ∀ g ∈ incumbents, SameBinding first g ∧ g.entitlement ∈ bindings candidates
  mem_iff : ∀ c, c ∈ missing ↔ c ∈ candidates ∧ c.entitlement ∉ incumbents.map (·.entitlement)
  sublist : missing.Sublist candidates

theorem missingGrants_ok {missing : List IgaAccessGrantRecord} {request : IgaAccessRequestRecord}
    (h : missingGrants first candidates request incumbents = .ok missing) :
    Missing first candidates request incumbents missing := by
  rw [missingGrants, guard_eq_ok, bind_eq_ok] at h
  obtain ⟨hreq, members, hmembers, h⟩ := h
  rw [guard_eq_ok, bind_eq_ok] at h
  obtain ⟨hcover, present, hpresent, h⟩ := h
  rw [pure_eq_ok] at h
  subst h
  obtain ⟨hinc, hmem⟩ := checkIncumbents_ok hpresent
  simp only [Bool.or_eq_true, bne_iff_ne, not_or, not_not] at hreq
  obtain ⟨⟨⟨hstatus, htenant⟩, hid⟩, hsubject⟩ := hreq
  simp only [Bool.or_eq_true, decide_eq_true_eq, not_or, not_not] at hcover
  refine ⟨hstatus, htenant, hid, hsubject, ⟨members, hmembers, fun e => ?_⟩, hinc,
    fun c => ?_, List.filter_sublist⟩
  · rw [← List.mem_toFinset, hcover.2, bindings, List.mem_toFinset]
  · rw [List.mem_filter, Bool.not_eq_true', ← Bool.not_eq_true, List.contains_iff_mem, hmem]
    constructor
    · rintro ⟨hc, hn⟩
      exact ⟨hc, fun hm => hn (Or.inr hm)⟩
    · rintro ⟨hc, hn⟩
      exact ⟨hc, fun hm => hn (hm.resolve_left List.not_mem_nil)⟩

end Qid.Iga
