/-
`check` is bounded userset reachability.

A userset tuple is an edge from the node it belongs to to the node its subject names, and a direct
tuple ends a chain. Every tuple is put into the queue at most once, which bounds the iterations.
-/
import Mathlib.Data.List.Count
import Mathlib.Data.List.Perm.Basic
import Qid.Rebac.Model

namespace Qid.Rebac

open Lib Lib.Bfs

variable (tuples : List RelationshipTuple)

def UsersetEdge (a b : TupleGroupKey) : Prop :=
  ∃ t ∈ tuples, t.objectKey = a ∧ t.subjectRelation ≠ "" ∧ t.subjectKey = b

/-- A tuple of the node that references the subject directly. -/
def DirectTuple (a : TupleGroupKey) (subjectNamespace subjectId : String) : Prop :=
  ∃ t ∈ tuples, t.objectKey = a ∧ t.subjectRelation = "" ∧
    t.subjectNamespace = subjectNamespace ∧ t.subjectId = subjectId

section

variable (tuples : List RelationshipTuple) {t : RelationshipTuple} {key : TupleGroupKey}

def groupOf (key : TupleGroupKey) : List RelationshipTuple :=
  ((tuples.filter fun t => t.ns == key.ns && t.objectId == key.objectId).filter fun t =>
    t.relation == key.relation).mergeSort fun a b =>
      a.createdAtEpochSeconds ≤ b.createdAtEpochSeconds

theorem listRelationshipTuples_eq (key : TupleGroupKey) :
    listRelationshipTuples tuples key.ns key.objectId (some key.relation) =
      .ok (groupOf tuples key) := rfl

theorem objectKey_eq_iff :
    t.objectKey = key ↔
      (t.ns = key.ns ∧ t.objectId = key.objectId) ∧ t.relation = key.relation := by
  cases key
  simp [RelationshipTuple.objectKey, and_assoc]

theorem groupOf_perm (key : TupleGroupKey) :
    (groupOf tuples key).Perm (tuples.filter fun t => decide (t.objectKey = key)) := by
  refine (List.mergeSort_perm _ _).trans (List.Perm.of_eq ?_)
  rw [List.filter_filter]
  refine List.filter_congr fun t _ => ?_
  simp only [objectKey_eq_iff, Bool.decide_and, Bool.and_comm, ← beq_eq_decide]

theorem mem_groupOf : t ∈ groupOf tuples key ↔ t ∈ tuples ∧ t.objectKey = key := by
  rw [(groupOf_perm tuples key).mem_iff, List.mem_filter, decide_eq_true_eq]

def usersets (key : TupleGroupKey) : List TupleGroupKey :=
  ((groupOf tuples key).filter fun t => t.isUserset).map fun t => t.subjectKey

theorem isUserset_iff : t.isUserset = true ↔ t.subjectRelation ≠ "" := by
  rw [RelationshipTuple.isUserset, Bool.not_eq_true', ← Bool.not_eq_true, String.isEmpty_iff]

theorem edge_usersets : Edge (usersets tuples) = UsersetEdge tuples := by
  funext a b
  rw [Edge, usersets, List.mem_map, eq_iff_iff]
  constructor
  · rintro ⟨t, ht, hb⟩
    rw [List.mem_filter, mem_groupOf, isUserset_iff] at ht
    exact ⟨t, ht.1.1, ht.1.2, ht.2, hb⟩
  · rintro ⟨t, ht, ha, hrel, hb⟩
    refine ⟨t, ?_, hb⟩
    rw [List.mem_filter, mem_groupOf, isUserset_iff]
    exact ⟨⟨ht, ha⟩, hrel⟩

variable (subjectNamespace subjectId : String)

def hasDirect (key : TupleGroupKey) : Bool :=
  (groupOf tuples key).any fun t => t.subjectNamespace == subjectNamespace &&
    t.subjectId == subjectId && t.subjectRelation.isEmpty

theorem hasDirect_iff {subjectNamespace subjectId : String} :
    hasDirect tuples subjectNamespace subjectId key = true ↔
      DirectTuple tuples key subjectNamespace subjectId := by
  rw [hasDirect, List.any_eq_true]
  constructor
  · rintro ⟨t, ht, hs⟩
    rw [Bool.and_eq_true, Bool.and_eq_true, beq_iff_eq, beq_iff_eq, String.isEmpty_iff] at hs
    rw [mem_groupOf] at ht
    exact ⟨t, ht.1, ht.2, hs.2, hs.1.1, hs.1.2⟩
  · rintro ⟨t, ht, hkey, hrel, hns, hid⟩
    refine ⟨t, (mem_groupOf tuples).mpr ⟨ht, hkey⟩, ?_⟩
    rw [Bool.and_eq_true, Bool.and_eq_true, beq_iff_eq, beq_iff_eq, String.isEmpty_iff]
    exact ⟨⟨hns, hid⟩, hrel⟩

theorem checkStep_eq (s : PopState TupleGroupKey) :
    checkStep tuples subjectNamespace subjectId s =
      .ok (popStep (usersets tuples) (hasDirect tuples subjectNamespace subjectId) maxDepth s) := by
  obtain ⟨visited, queue⟩ := s
  cases queue with
  | nil => rfl
  | cons p =>
    obtain ⟨key, depth⟩ := p
    dsimp only [checkStep, popStep]
    by_cases hd : depth > maxDepth
    · rw [if_pos hd, if_pos hd]
      rfl
    · rw [if_neg hd, if_neg hd]
      by_cases hv : key ∈ visited
      · rw [if_pos hv, if_pos hv]
        rfl
      · rw [if_neg hv, if_neg hv]
        show (if hasDirect tuples subjectNamespace subjectId key then _ else _) = _
        cases hasDirect tuples subjectNamespace subjectId key with
        | true => rfl
        | false =>
          rw [usersets, List.map_map]
          rfl

theorem countP_add_le {α : Type} {p q r : α → Bool}
    (h : ∀ a, (p a).toNat + (q a).toNat ≤ (r a).toNat) (l : List α) :
    l.countP p + l.countP q ≤ l.countP r := by
  induction l with
  | nil => exact Nat.le_refl 0
  | cons a =>
    have ha := h a
    cases hp : p a <;> cases hq : q a <;> cases hr : r a <;> simp [hp, hq, hr] at ha ⊢ <;> omega

def unvisitedTuples (visited : List TupleGroupKey) : Nat :=
  tuples.countP fun t => t.isUserset && decide (t.objectKey ∉ visited)

theorem unvisitedTuples_cons (visited : List TupleGroupKey) (key : TupleGroupKey)
    (hkey : key ∉ visited) :
    unvisitedTuples tuples (key :: visited) + (usersets tuples key).length ≤
      unvisitedTuples tuples visited := by
  rw [usersets, List.length_map, ← List.countP_eq_length_filter,
    (groupOf_perm tuples key).countP_eq, List.countP_filter]
  refine countP_add_le (fun t => ?_) tuples
  cases t.isUserset with
  | false => exact Nat.le_refl 0
  | true =>
    by_cases hk : t.objectKey = key
    · simp [hk, hkey]
    · by_cases hv : t.objectKey ∈ visited <;> simp [hk, hv]

end

variable (tuples : List RelationshipTuple)
  (ns objectId relation subjectNamespace subjectId : String)

theorem checkLoop_answers :
    ∃ b, (∀ fuel, tuples.length + 2 ≤ fuel →
        checkLoop fuel tuples ns objectId relation subjectNamespace subjectId = some (.ok b)) ∧
      (b = true ↔ ∃ key, Within (UsersetEdge tuples) maxDepth
          { ns := ns, objectId := objectId, relation := relation } key ∧
        DirectTuple tuples key subjectNamespace subjectId) := by
  have hfuel : unvisitedTuples tuples [] + 1 < tuples.length + 2 := by
    have hle : unvisitedTuples tuples [] ≤ tuples.length := List.countP_le_length
    omega
  obtain ⟨b, hb, hiff⟩ := popSearch
    (checkStep_eq tuples subjectNamespace subjectId) (unvisitedTuples_cons tuples) hfuel
  refine ⟨b, fun fuel hle => whileLoop_mono hb hle, ?_⟩
  rw [hiff, edge_usersets]
  simp only [hasDirect_iff]

theorem check_iff :
    check tuples ns objectId relation subjectNamespace subjectId = some (.ok true) ↔
      ∃ key, Within (UsersetEdge tuples) maxDepth
          { ns := ns, objectId := objectId, relation := relation } key ∧
        DirectTuple tuples key subjectNamespace subjectId := by
  obtain ⟨b, hb, hiff⟩ := checkLoop_answers tuples ns objectId relation subjectNamespace subjectId
  rw [check, hb _ (Nat.le_refl _), Option.some.injEq, Except.ok.injEq, hiff]

/-- `check` ends within two more iterations than there are tuples, and answers `true` exactly when a
chain of at most `MAX_DEPTH` userset edges leads from the node to a node with a direct tuple for the
subject. -/
theorem check_iff_reachable :
    (∃ b, check tuples ns objectId relation subjectNamespace subjectId = some (.ok b) ∧
      ∀ fuel, tuples.length + 2 ≤ fuel →
        checkLoop fuel tuples ns objectId relation subjectNamespace subjectId = some (.ok b)) ∧
    (check tuples ns objectId relation subjectNamespace subjectId = some (.ok true) ↔
      ∃ key, Within (UsersetEdge tuples) maxDepth
          { ns := ns, objectId := objectId, relation := relation } key ∧
        DirectTuple tuples key subjectNamespace subjectId) := by
  obtain ⟨b, hb, -⟩ := checkLoop_answers tuples ns objectId relation subjectNamespace subjectId
  exact ⟨⟨b, hb _ (Nat.le_refl _), hb⟩,
    check_iff tuples ns objectId relation subjectNamespace subjectId⟩

end Qid.Rebac
