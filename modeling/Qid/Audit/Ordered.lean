/-
The verifier that takes events in a given order and the one that follows their links.
-/
import Qid.Audit.Chain

namespace Qid.Audit

open Lib Lib.Chain

section

variable (sha256 : AuditEvent → String)

/-- `previous` is the hash of the event before. -/
def verifyOrdered (previous : Option String) (checked : Nat) (first last : Option String) :
    List AuditEvent → AuditChainVerification
  | [] => { valid := true, checkedEvents := checked, firstEventId := first, lastEventId := last }
  | e :: events =>
    let first := first.or (some e.id)
    if e.previousHash ≠ previous then
      { valid := false, checkedEvents := checked + 1, firstEventId := first
        lastEventId := some e.id, brokenEventId := some e.id, expectedPreviousHash := previous
        actualPreviousHash := e.previousHash, actualEventHash := e.eventHash }
    else if e.eventHash ≠ some (e.computeHash sha256) then
      { valid := false, checkedEvents := checked + 1, firstEventId := first
        lastEventId := some e.id, brokenEventId := some e.id
        expectedPreviousHash := e.previousHash, actualPreviousHash := e.previousHash
        expectedEventHash := some (e.computeHash sha256), actualEventHash := e.eventHash }
    else verifyOrdered e.eventHash (checked + 1) first (some e.id) events

def verifyAuditChainOrdered (events : List AuditEvent) : AuditChainVerification :=
  verifyOrdered sha256 none 0 none none events

end

variable {sha256 : AuditEvent → String} {events : List AuditEvent} {fuel : Nat}

theorem verifyOrdered_valid (events : List AuditEvent) {done : List AuditEvent}
    (hdone : Chained sha256 done) (checked : Nat) (first last : Option String) :
    (verifyOrdered sha256 (done.head?.map (AuditEvent.computeHash sha256)) checked first last
      events).valid = true ↔
      (∀ e ∈ events, e.Sealed sha256) ∧ Chained sha256 (events.reverse ++ done) := by
  induction events generalizing done checked first last with
  | nil => exact iff_of_true rfl ⟨fun e he => (by cases he), hdone⟩
  | cons e events ih =>
    rw [verifyOrdered, List.reverse_cons, List.append_assoc, List.forall_mem_cons]
    split
    · rename_i hprevious
      refine iff_of_false Bool.false_ne_true fun h => hprevious ?_
      exact (Linked.suffix h.2 (List.suffix_append _ _)).1
    · rename_i hprevious
      split
      · rename_i hhash
        exact iff_of_false Bool.false_ne_true fun h => hhash h.1.1
      · rename_i hhash
        rw [not_not] at hprevious hhash
        have hchain : Chained sha256 (e :: done) := ⟨hprevious, hdone⟩
        have hsealed : e.Sealed sha256 := hhash
        rw [hhash, and_iff_right hsealed]
        exact ih hchain (checked + 1) (first.or (some e.id)) (some e.id)

theorem verifyAuditChainOrdered_valid : (verifyAuditChainOrdered sha256 events).valid = true ↔
    (∀ e ∈ events, e.Sealed sha256) ∧ Chained sha256 events.reverse := by
  have hstart : Chained sha256 [] := trivial
  have h := verifyOrdered_valid events hstart 0 none none
  rwa [List.append_nil] at h

/-- An order that is accepted is the only one. -/
theorem ordered_unique (hfree : CollisionFree sha256 events) {p q : List AuditEvent}
    (hp : p.Perm events) (hq : q.Perm events)
    (hpv : (verifyAuditChainOrdered sha256 p).valid = true)
    (hqv : (verifyAuditChainOrdered sha256 q).valid = true) : p = q := by
  have hpc := (verifyAuditChainOrdered_valid.mp hpv).2
  have hqc := (verifyAuditChainOrdered_valid.mp hqv).2
  have hpe := p.reverse_perm.trans hp
  have hfreep := hfree.subset hpe.subset
  have hdistinct := Linked.nodup_prev previousHash_of_hashed hfreep hpc
  have hmem : ∀ e, e ∈ p.reverse ↔ e ∈ q.reverse :=
    fun e => hpe.mem_iff.trans (q.reverse_perm.trans hq).mem_iff.symm
  have hsame : p.reverse.map id = q.reverse.map id := by
    refine Linked.map_eq (fun a b h => congrArg _ h) hpc hqc (fun a ha b hb hhash => ?_)
      (congrArg _ (Linked.head?_eq previousHash_of_hashed hfreep hpc hqc hmem))
    have hb' := (hmem b).mpr hb
    exact List.inj_on_of_nodup_map hdistinct ha hb'
      (previousHash_of_hashed a b (hfreep a ha b hb' hhash))
  rw [List.map_id, List.map_id] at hsame
  exact List.reverse_injective hsame

variable (sha256) in
/-- Every event carries its hash, and no two name the same one before them. -/
structure Filed (events : List AuditEvent) : Prop where
  sealed : ∀ e ∈ events, e.Sealed sha256
  distinct : (events.map AuditEvent.previousHash).Nodup

theorem filed_iff : Filed sha256 events ↔ ∃ m, linkEvents sha256 events ∅ = .ok m := by
  rw [linkEvents_ok]
  exact ⟨fun h => ⟨h.sealed, h.distinct, fun _ _ => rfl⟩, fun h => ⟨h.1, h.2.1⟩⟩

variable (sha256) in
/-- The events are filed and one of them is the oldest. -/
def Walked (events : List AuditEvent) : Prop :=
  Filed sha256 events ∧ ∃ e ∈ events, e.previousHash = none

section

variable {other : List AuditEvent} (hperm : other.Perm events)
include hperm

theorem Filed.perm (h : Filed sha256 events) : Filed sha256 other :=
  ⟨fun e he => h.sealed e (hperm.subset he), (hperm.map _).nodup_iff.mpr h.distinct⟩

theorem filed_perm : Filed sha256 other ↔ Filed sha256 events :=
  ⟨Filed.perm hperm.symm, Filed.perm hperm⟩

theorem walked_perm : Walked sha256 other ↔ Walked sha256 events := by
  simp only [Walked, filed_perm hperm, hperm.mem_iff]

theorem verifyAuditChainLinked_perm (h : Walked sha256 events) :
    verifyAuditChainLinked sha256 fuel other = verifyAuditChainLinked sha256 fuel events := by
  obtain ⟨hfiled, first, hfirst, hnone⟩ := h
  obtain ⟨m, hm⟩ := filed_iff.mp hfiled
  obtain ⟨m', hm'⟩ := filed_iff.mp ((filed_perm hperm).mpr hfiled)
  have hlookup : ∀ k, m'.lookup k = m.lookup k := fun k => by
    refine Option.ext fun e => ?_
    rw [(of_linkEvents hm').2, (of_linkEvents hm).2, hperm.mem_iff]
  have hnext : nextEvent m' = nextEvent m := by
    funext e
    simp only [nextEvent, hlookup]
  have hstart : m.lookup none = some first :=
    ((of_linkEvents hm).2 _ _).mpr (Or.inr ⟨hfirst, hnone⟩)
  obtain ⟨a, ha⟩ := Option.isSome_iff_exists.mp (List.isSome_head?.mpr (List.ne_nil_of_mem hfirst))
  obtain ⟨b, hb⟩ := Option.isSome_iff_exists.mp
    (List.isSome_head?.mpr (List.ne_nil_of_mem (hperm.mem_iff.mpr hfirst)))
  simp only [verifyAuditChainLinked, ha, hb, hm, hm', hlookup, hstart, hnext, hperm.length_eq]

end

variable (fuel) in
open Classical in
/-- Where the links are not followed, one event was checked if they are not filed, and none if
they are. -/
theorem verifyAuditChainLinked_broken (hne : events ≠ []) (h : ¬Walked sha256 events) :
    ∃ v, verifyAuditChainLinked sha256 fuel events = some v ∧ v.valid = false ∧
      v.checkedEvents = if Filed sha256 events then 0 else 1 := by
  obtain ⟨e, he⟩ := Option.isSome_iff_exists.mp (List.isSome_head?.mpr hne)
  rw [verifyAuditChainLinked, he]
  cases hm : linkEvents sha256 events ∅ with
  | error broken =>
    obtain ⟨hvalid, hchecked⟩ := of_linkEvents_error hm
    have hnot : ¬Filed sha256 events := fun hfiled => by
      obtain ⟨m, hok⟩ := filed_iff.mp hfiled
      cases hm.symm.trans hok
    exact ⟨broken, rfl, hvalid, hchecked.trans (if_neg hnot).symm⟩
  | ok m =>
    have hfiled := filed_iff.mpr ⟨m, hm⟩
    cases hfirst : m.lookup none with
    | none =>
      simp only [hfirst]
      exact ⟨_, rfl, rfl, (if_pos hfiled).symm⟩
    | some first => exact absurd ⟨hfiled, first, mem_of_lookup_none hm hfirst⟩ h

/-- The verifiers agree, the accepted order is the only one, and neither whether a list is accepted
by its links nor how many events were checked depends on its order; nor does the result, if it is
accepted or the links are followed. -/
theorem audit_verifiers_agree (hfree : CollisionFree sha256 events)
    (hfuel : events.length ≤ fuel) :
    ∃ v, verifyAuditChainLinked sha256 fuel events = some v ∧
      (v.valid = true ↔
        ∃ p : List AuditEvent, p.Perm events ∧ (verifyAuditChainOrdered sha256 p).valid = true) ∧
      (∀ p q : List AuditEvent, p.Perm events → q.Perm events →
        (verifyAuditChainOrdered sha256 p).valid = true →
        (verifyAuditChainOrdered sha256 q).valid = true → p = q) ∧
      ∀ other : List AuditEvent, other.Perm events →
        ∃ w, verifyAuditChainLinked sha256 fuel other = some w ∧ w.valid = v.valid ∧
          w.checkedEvents = v.checkedEvents ∧
          (v.valid = true ∨ Walked sha256 events → w = v) := by
  obtain ⟨v, hv⟩ := verifyAuditChainLinked_terminates hfree hfuel
  refine ⟨v, hv, ⟨fun hvalid => ?_, ?_⟩, fun p q => ordered_unique hfree, fun other hperm => ?_⟩
  · obtain ⟨hsealed, t, ht, hperm⟩ := chained_of_valid hfree hv hvalid
    have hreverse := t.reverse_perm.trans hperm
    refine ⟨t.reverse, hreverse, verifyAuditChainOrdered_valid.mpr
      ⟨fun e he => hsealed e (hreverse.mem_iff.mp he), ?_⟩⟩
    rwa [List.reverse_reverse]
  · rintro ⟨p, hperm, hordered⟩
    obtain ⟨hsealed, hchained⟩ := verifyAuditChainOrdered_valid.mp hordered
    have hresult := valid_of_chained hfree (fun e he => hsealed e (hperm.mem_iff.mpr he))
      hchained (p.reverse_perm.trans hperm) hfuel
    cases hv.symm.trans hresult
    rfl
  · by_cases hwalked : Walked sha256 events
    · exact ⟨v, (verifyAuditChainLinked_perm hperm hwalked).trans hv, rfl, rfl, fun _ => rfl⟩
    by_cases hnil : events = []
    · obtain rfl := (hnil ▸ hperm).eq_nil
      exact ⟨v, hnil ▸ hv, rfl, rfl, fun _ => rfl⟩
    · obtain ⟨v', hv', hvalid, hchecked⟩ := verifyAuditChainLinked_broken fuel hnil hwalked
      cases hv.symm.trans hv'
      obtain ⟨w, hw, hwvalid, hwchecked⟩ := verifyAuditChainLinked_broken fuel
        (fun h => hnil (h ▸ hperm).nil_eq.symm) (mt (walked_perm hperm).mp hwalked)
      rw [filed_perm hperm, ← hchecked] at hwchecked
      refine ⟨w, hw, hwvalid.trans hvalid.symm, hwchecked, ?_⟩
      rintro (h | h)
      · cases hvalid.symm.trans h
      · exact absurd h hwalked

theorem audit_verifiers_agree_sample :
    ∃ v, verifyAuditChainLinked (·.id) 2 sampleHistory.reverse = some v ∧ v.valid = true ∧
      verifyAuditChainLinked (·.id) 2 sampleHistory = some v := by
  have hreverse := sampleHistory.reverse_perm
  obtain ⟨v, hv, hiff, -, hother⟩ :=
    audit_verifiers_agree (collisionFree_sample.subset hreverse.subset) (Nat.le_refl 2)
  have hvalid := hiff.mpr ⟨sampleHistory, hreverse.symm, by decide⟩
  obtain ⟨w, hw, -, -, heq⟩ := hother sampleHistory hreverse.symm
  exact ⟨v, hv, hvalid, heq (Or.inl hvalid) ▸ hw⟩

/-- Of two events without a hash, the one that comes first is reported. -/
theorem linked_report_of_order :
    CollisionFree (·.id) [sampleEvent "a", sampleEvent "b"] ∧
      (verifyAuditChainLinked (·.id) 2 [sampleEvent "a", sampleEvent "b"]).bind (·.firstEventId) =
        some "a" ∧
      (verifyAuditChainLinked (·.id) 2 [sampleEvent "b", sampleEvent "a"]).bind (·.firstEventId) =
        some "b" := by
  refine ⟨fun a ha b hb hhash => ?_, by decide, by decide⟩
  have hids : ([sampleEvent "a", sampleEvent "b"].map AuditEvent.id).Nodup := by decide
  rw [List.inj_on_of_nodup_map hids ha hb hhash]

end Qid.Audit
