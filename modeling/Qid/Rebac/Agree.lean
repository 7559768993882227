/-
`check` and `expand` agree.

`expand` collects the groups of all nodes within `MAX_DEPTH` and renders one tree along every path
without repetition.
-/
import Qid.Rebac.Check

namespace Qid.Rebac

open Lib Lib.Bfs

/-- The tree holds a leaf for the subject, without a relation. -/
inductive HasSubject (subjectNamespace subjectId : String) : ExpandNode → Prop
  | leaf : HasSubject subjectNamespace subjectId (.leaf subjectNamespace subjectId none)
  | branch {ns objectId relation : String} {children : List ExpandNode} {child : ExpandNode}
      (hmem : child ∈ children) (h : HasSubject subjectNamespace subjectId child) :
      HasSubject subjectNamespace subjectId (.branch ns objectId relation children)

section

variable (tuples : List RelationshipTuple)

def collectGroup (groups : TupleGroups) (key : TupleGroupKey) : TupleGroups :=
  groups.insert key (groupOf tuples key)

theorem expandStep_eq (s : PushState TupleGroupKey TupleGroups) :
    expandStep tuples s = .ok (pushStep (usersets tuples) (collectGroup tuples) maxDepth s) := by
  obtain ⟨seen, queue, acc⟩ := s
  cases queue with
  | _ => rfl

def unseenTuples (seen : List TupleGroupKey) : Nat :=
  tuples.countP fun t => t.isUserset && decide (t.subjectKey ∉ seen)

theorem unseenTuples_cons (seen : List TupleGroupKey) (x y : TupleGroupKey)
    (hy : y ∈ usersets tuples x) (hseen : y ∉ seen) :
    unseenTuples tuples (y :: seen) + 1 ≤ unseenTuples tuples seen := by
  have hpos : 1 ≤ tuples.countP fun t => t.isUserset && decide (t.subjectKey = y) := by
    obtain ⟨t, ht, hty⟩ := List.mem_map.mp hy
    rw [List.mem_filter, mem_groupOf] at ht
    refine List.countP_pos_iff.mpr ⟨t, ht.1.1, ?_⟩
    rw [ht.2, hty]
    simp
  have hle : unseenTuples tuples (y :: seen) +
      tuples.countP (fun t => t.isUserset && decide (t.subjectKey = y)) ≤
        unseenTuples tuples seen := by
    refine countP_add_le (fun t => ?_) tuples
    cases t.isUserset with
    | false => exact Nat.le_refl 0
    | true =>
      by_cases hk : t.subjectKey = y
      · simp [hk, hseen]
      · by_cases hv : t.subjectKey ∈ seen <;> simp [hk, hv]
  omega

theorem lookup_foldl_collectGroup (order : List TupleGroupKey) (groups : TupleGroups)
    (key : TupleGroupKey) :
    (order.foldl (collectGroup tuples) groups).lookup key =
      if key ∈ order then some (groupOf tuples key) else groups.lookup key := by
  induction order generalizing groups with
  | nil => rw [List.foldl_nil, if_neg List.not_mem_nil]
  | cons x order ih =>
    rw [List.foldl_cons, ih, collectGroup]
    by_cases hx : key = x
    · subst hx
      simp
    · simp [hx, AList.lookup_insert_ne hx]

def Collected (root : TupleGroupKey) (groups : TupleGroups) : Prop :=
  ∀ key ts, groups.lookup key = some ts ↔
    Within (UsersetEdge tuples) maxDepth root key ∧ groupOf tuples key = ts

/-- The walk ends, with the groups of all nodes within the bound. -/
theorem expandStep_collects (root : TupleGroupKey) :
    ∃ groups, (∀ fuel, tuples.length + 2 ≤ fuel →
      whileLoop (expandStep tuples) fuel
        { seen := [root], queue := [(root, 0)], acc := ∅ } = some (.ok groups)) ∧
      Collected tuples root groups := by
  have hfuel : unseenTuples tuples [root] + 1 < tuples.length + 2 := by
    have hle : unseenTuples tuples [root] ≤ tuples.length := List.countP_le_length
    omega
  obtain ⟨groups, hrun, order, rfl, horder⟩ := pushSearch (∅ : TupleGroups)
    (expandStep_eq tuples) (unseenTuples_cons tuples) hfuel
  rw [edge_usersets] at horder
  refine ⟨_, fun fuel hle => whileLoop_mono hrun hle, fun key ts => ?_⟩
  rw [lookup_foldl_collectGroup, ← horder]
  by_cases hkey : key ∈ order <;> simp [hkey]

end

section

variable {tuples : List RelationshipTuple} {groups : TupleGroups} {root : TupleGroupKey}
  {subjectNamespace subjectId : String} {t : RelationshipTuple} {key : TupleGroupKey}
  {remaining : Nat} {ancestry : List TupleGroupKey}

theorem hasSubject_branch_iff {ns objectId relation : String} {children : List ExpandNode} :
    HasSubject subjectNamespace subjectId (.branch ns objectId relation children) ↔
      ∃ child ∈ children, HasSubject subjectNamespace subjectId child := by
  constructor
  · intro h
    cases h with
    | branch hmem h => exact ⟨_, hmem, h⟩
  · rintro ⟨child, hmem, h⟩
    exact HasSubject.branch hmem h

theorem hasSubject_expandLeaf_iff :
    HasSubject subjectNamespace subjectId (expandLeaf t) ↔
      t.isUserset = false ∧ t.subjectNamespace = subjectNamespace ∧ t.subjectId = subjectId := by
  unfold expandLeaf
  cases ht : t.isUserset with
  | true =>
    constructor
    · intro h
      cases h
    · rintro ⟨h, -⟩
      cases h
  | false =>
    constructor
    · intro h
      cases h
      exact ⟨rfl, rfl, rfl⟩
    · rintro ⟨-, rfl, rfl⟩
      exact HasSubject.leaf

theorem directTuple_of_leaf (ht : t ∈ groupOf tuples key)
    (h : HasSubject subjectNamespace subjectId (expandLeaf t)) :
    DirectTuple tuples key subjectNamespace subjectId := by
  obtain ⟨hu, hns, hid⟩ := hasSubject_expandLeaf_iff.mp h
  obtain ⟨hmem, hkey⟩ := (mem_groupOf tuples).mp ht
  refine ⟨t, hmem, hkey, ?_, hns, hid⟩
  rw [RelationshipTuple.isUserset, Bool.not_eq_false', String.isEmpty_iff] at hu
  exact hu

variable (hgroups : Collected tuples root groups)
include hgroups

theorem mem_group (ht : t ∈ (groups.lookup key).getD []) : t ∈ groupOf tuples key := by
  cases hk : groups.lookup key with
  | none =>
    rw [hk] at ht
    cases ht
  | some ts =>
    rw [hk] at ht
    rw [((hgroups key ts).mp hk).2]
    exact ht

theorem walk_of_hasSubject
    (h : HasSubject subjectNamespace subjectId (branch groups remaining key ancestry)) :
    ∃ x, Within (UsersetEdge tuples) remaining key x ∧
      DirectTuple tuples x subjectNamespace subjectId := by
  induction remaining generalizing key ancestry with
  | zero =>
    obtain ⟨child, hmem, hchild⟩ := hasSubject_branch_iff.mp h
    obtain ⟨t, ht, rfl⟩ := List.mem_map.mp hmem
    exact ⟨key, ⟨0, Nat.le_refl 0, Walk.nil⟩, directTuple_of_leaf (mem_group hgroups ht) hchild⟩
  | succ remaining ih =>
    obtain ⟨child, hmem, hchild⟩ := hasSubject_branch_iff.mp h
    obtain ⟨t, ht, hrendered⟩ := List.mem_map.mp hmem
    have hcases : child = expandLeaf t ∨ t.isUserset = true ∧
        child = branch groups remaining t.subjectKey (t.subjectKey :: ancestry) := by
      rw [← hrendered]
      split
      · split
        · split
          · exact Or.inl rfl
          · exact Or.inr ⟨‹_›, rfl⟩
        · exact Or.inl rfl
      · exact Or.inl rfl
    obtain rfl | ⟨hu, rfl⟩ := hcases
    · exact ⟨key, ⟨0, Nat.zero_le _, Walk.nil⟩, directTuple_of_leaf (mem_group hgroups ht) hchild⟩
    · obtain ⟨x, ⟨n, hn, hw⟩, hx⟩ := ih hchild
      obtain ⟨htmem, hkey⟩ := (mem_groupOf tuples).mp (mem_group hgroups ht)
      have hedge : UsersetEdge tuples key t.subjectKey := ⟨t, htmem, hkey, isUserset_iff.mp hu, rfl⟩
      exact ⟨x, ⟨n + 1, Nat.succ_le_succ hn, hw.cons hedge⟩, hx⟩

/-- A key on a path without repetition, with tuples of its own, is rendered as a
branch of the tree. -/
theorem hasSubject_of_trail {b : TupleGroupKey} {l : List TupleGroupKey}
    (ht : Trail (UsersetEdge tuples) root (b :: l)) (hl : l.length ≤ maxDepth)
    (hb : groupOf tuples b ≠ [])
    (h : HasSubject subjectNamespace subjectId (branch groups (maxDepth - l.length) b (b :: l))) :
    HasSubject subjectNamespace subjectId (branch groups maxDepth root [root]) := by
  generalize hm : b :: l = m at ht
  induction ht generalizing b l with
  | root =>
    cases hm
    exact h
  | @step c d l' htrail he hc ih =>
    cases hm
    rw [List.length_cons] at hl h
    obtain ⟨t, htmem, hkey, hrel, hsub⟩ := he
    have htc : t ∈ groupOf tuples c := (mem_groupOf tuples).mpr ⟨htmem, hkey⟩
    have hcgroup : groups.lookup c = some (groupOf tuples c) :=
      (hgroups c _).mpr ⟨⟨l'.length, by omega, htrail.walk⟩, rfl⟩
    have hdgroup : groups.lookup d = some (groupOf tuples d) :=
      (hgroups d _).mpr ⟨⟨l'.length + 1, hl, htrail.walk.snoc ⟨t, htmem, hkey, hrel, hsub⟩⟩, rfl⟩
    refine ih (by omega) (List.ne_nil_of_mem htc) ?_ rfl
    -- The userset of `t` is rendered as the branch of `d`, one level down.
    obtain ⟨r, hr⟩ : ∃ r, maxDepth - l'.length = r + 1 := ⟨maxDepth - (l'.length + 1), by omega⟩
    have hr' : maxDepth - (l'.length + 1) = r := by omega
    rw [hr, branch, nodes, hcgroup]
    rw [hr'] at h
    refine HasSubject.branch (List.mem_map.mpr ⟨t, htc, rfl⟩) ?_
    rw [if_pos (isUserset_iff.mpr hrel), hsub, hdgroup]
    obtain ⟨u, us, hus⟩ := List.exists_cons_of_ne_nil hb
    rw [hus]
    rw [if_neg hc, ← hsub]
    rw [← hsub] at h
    exact h

/-- The tree holds a direct leaf for the subjects within the bound, and only for
them. -/
theorem hasSubject_iff :
    HasSubject subjectNamespace subjectId (branch groups maxDepth root [root]) ↔
      ∃ x, Within (UsersetEdge tuples) maxDepth root x ∧
        DirectTuple tuples x subjectNamespace subjectId := by
  constructor
  · exact walk_of_hasSubject hgroups
  · rintro ⟨x, ⟨n, hn, hw⟩, hx⟩
    obtain ⟨l, htrail, hlen⟩ := hw.exists_trail
    obtain ⟨t, htmem, hkey, hrel, hns, hid⟩ := hx
    have htx : t ∈ groupOf tuples x := (mem_groupOf tuples).mpr ⟨htmem, hkey⟩
    refine hasSubject_of_trail hgroups htrail (by omega) (List.ne_nil_of_mem htx) ?_
    have hgroup : groups.lookup x = some (groupOf tuples x) :=
      (hgroups x _).mpr ⟨⟨l.length, by omega, htrail.walk⟩, rfl⟩
    have hleaf : HasSubject subjectNamespace subjectId (expandLeaf t) := by
      refine hasSubject_expandLeaf_iff.mpr ⟨?_, hns, hid⟩
      rw [RelationshipTuple.isUserset, hrel]
      rfl
    have hnot : t.isUserset = false := (hasSubject_expandLeaf_iff.mp hleaf).1
    refine hasSubject_branch_iff.mpr ⟨expandLeaf t, ?_, hleaf⟩
    cases maxDepth - l.length with
    | zero =>
      rw [nodes, hgroup]
      exact List.mem_map_of_mem htx
    | succ =>
      rw [nodes, hgroup]
      refine List.mem_map.mpr ⟨t, htx, ?_⟩
      rw [hnot, if_neg Bool.false_ne_true]

end

/-- `expand` ends, succeeds for every large enough response limit, and when it succeeds, `check`
answers `true` for a subject exactly when the tree holds a leaf with that subject and no relation.
-/
theorem check_agrees_with_expand (tuples : List RelationshipTuple)
    (ns objectId relation : String) :
    (∃ limit, ∀ maxResponseBytes, limit ≤ maxResponseBytes →
      ∃ tree, expand tuples ns objectId relation maxResponseBytes = some (.ok tree)) ∧
    (∀ maxResponseBytes fuel, tuples.length + 2 ≤ fuel →
      expandLoop fuel tuples ns objectId relation maxResponseBytes =
        expand tuples ns objectId relation maxResponseBytes) ∧
    ∀ maxResponseBytes tree,
      expand tuples ns objectId relation maxResponseBytes = some (.ok tree) →
      ∀ subjectNamespace subjectId,
        check tuples ns objectId relation subjectNamespace subjectId = some (.ok true) ↔
          HasSubject subjectNamespace subjectId tree := by
  obtain ⟨groups, hrun, hgroups⟩ :=
    expandStep_collects tuples { ns := ns, objectId := objectId, relation := relation }
  have hexpand : ∀ maxResponseBytes fuel, tuples.length + 2 ≤ fuel →
      expandLoop fuel tuples ns objectId relation maxResponseBytes =
        let tree := branch groups maxDepth { ns := ns, objectId := objectId, relation := relation }
          [{ ns := ns, objectId := objectId, relation := relation }]
        if withinBudget maxResponseBytes (encodeResponse tree) then some (.ok tree)
        else some (.error (.responseTooLarge maxResponseBytes)) := by
    intro maxResponseBytes fuel hfuel
    unfold expandLoop
    simp only [hrun fuel hfuel]
  have hfuel : tuples.length + 2 ≤ tuples.length + 2 := Nat.le_refl _
  refine ⟨?_, ?_, ?_⟩
  · refine ⟨(encodeResponse (branch groups maxDepth
      { ns := ns, objectId := objectId, relation := relation }
      [{ ns := ns, objectId := objectId, relation := relation }])).utf8ByteSize, ?_⟩
    intro maxResponseBytes hle
    refine ⟨_, (hexpand maxResponseBytes _ hfuel).trans (if_pos ?_)⟩
    exact decide_eq_true hle
  · intro maxResponseBytes fuel hle
    rw [hexpand maxResponseBytes fuel hle]
    exact (hexpand maxResponseBytes _ hfuel).symm
  · intro maxResponseBytes tree htree subjectNamespace subjectId
    have htree' := (hexpand maxResponseBytes _ hfuel).symm.trans htree
    simp only at htree'
    split at htree'
    · rw [Option.some.injEq, Except.ok.injEq] at htree'
      subst htree'
      rw [hasSubject_iff hgroups]
      exact (check_iff tuples ns objectId relation subjectNamespace subjectId)
    · cases htree'

end Qid.Rebac
