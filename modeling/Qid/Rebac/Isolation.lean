/-
What one tenant's tuples can do to another's.

The text before the first `::` of a scoped namespace, the head, is all that the two namespaces of a
tuple are sure to have in common. A walk that starts in one class of tuples by head stays in it. Two
tenants with the same head can affect each other: the head is itself a tenant id, and that tenant
may write into the namespaces of both.
-/
import Qid.Lib.Run
import Qid.Rebac.Agree
import Qid.Rebac.Scope

namespace Qid.Rebac

open Lib Lib.Bfs Storage

variable {tenantId first second : String} {h : List Char}

/-- The text before the first `::`. -/
def head : List Char → List Char
  | [] => []
  | c :: cs => if c = ':' ∧ cs.head? = some ':' then [] else c :: head cs

def nsHead (ns : String) : List Char := head ns.toList

def tenantHead (tenantId : String) : List Char := nsHead (tenantScope tenantId)

theorem head_append (p n : List Char) : head (p ++ ':' :: ':' :: n) = head (p ++ [':', ':']) := by
  induction p with
  | nil => rfl
  | cons c p ih =>
    have hnext : (p ++ ':' :: ':' :: n).head? = (p ++ [':', ':']).head? := by
      cases p with
      | _ => rfl
    rw [List.cons_append, List.cons_append, head, head, hnext, ih]

theorem head_split (p : List Char) :
    ∃ r, p ++ [':', ':'] = head (p ++ [':', ':']) ++ ':' :: ':' :: r := by
  induction p with
  | nil => exact ⟨[], rfl⟩
  | cons c p ih =>
    rw [List.cons_append, head]
    split_ifs with h
    · obtain ⟨r, hr⟩ := List.head?_eq_some_iff.mp h.2
      exact ⟨r, by rw [hr, h.1]; rfl⟩
    · obtain ⟨r, hr⟩ := ih
      exact ⟨r, by rw [List.cons_append, ← hr]⟩

theorem nsHead_scopedNamespace (tenantId ns : String) :
    nsHead (scopedNamespace tenantId ns) = tenantHead tenantId := by
  rw [nsHead, tenantHead, nsHead, scopedNamespace, tenantScope, String.toList_append,
    String.toList_append, List.append_assoc]
  exact head_append tenantId.toList ns.toList

/-- The head of a tenant is the id of a tenant that may name all its namespaces. -/
theorem exists_scopedNamespace (tenantId : String) :
    ∃ r : String, ∀ ns, scopedNamespace tenantId ns =
      scopedNamespace (String.ofList (tenantHead tenantId)) (r ++ ns) := by
  obtain ⟨r, hr⟩ := head_split tenantId.toList
  have hscope : tenantScope tenantId =
      tenantScope (String.ofList (tenantHead tenantId)) ++ String.ofList r := by
    rw [← String.toList_inj]
    simp only [tenantHead, nsHead, tenantScope, String.toList_append, String.toList_ofList,
      List.append_assoc]
    exact hr
  refine ⟨String.ofList r, fun ns => ?_⟩
  rw [scopedNamespace, scopedNamespace, hscope, String.append_assoc]

def visible (h : List Char) (tuples : List RelationshipTuple) : List RelationshipTuple :=
  tuples.filter fun t => nsHead t.ns == h

/-- Both namespaces of a tuple have the same head. -/
def Coherent (t : RelationshipTuple) : Prop := nsHead t.subjectNamespace = nsHead t.ns

theorem nsHead_stamped (now : Nat) (t : RelationshipTuple) :
    nsHead (stamped now t).ns = nsHead t.ns := by
  rw [stamped]
  split <;> rfl

theorem ns_eq_of_sameIdentity {a b : RelationshipTuple}
    (h : sameRelationshipTupleIdentity a b = true) : a.ns = b.ns := by
  simp only [sameRelationshipTupleIdentity, Bool.and_eq_true, beq_iff_eq] at h
  exact h.1.1.1.1.1

section

variable {ω : Type} (h : List Char)

/-- A call that changes nothing outside the head of its tuple, and whose effect depends on
nothing outside it. -/
structure Local
    (call : ω → List RelationshipTuple → RelationshipTuple →
      QidResult Unit × List RelationshipTuple) : Prop where
  outside : ∀ o tuples t, nsHead t.ns ≠ h → visible h (call o tuples t).2 = visible h tuples
  inside : ∀ o tuples t, nsHead t.ns = h →
    (call o (visible h tuples) t).1 = (call o tuples t).1 ∧
    (call o (visible h tuples) t).2 = visible h (call o tuples t).2
  coherent : ∀ o tuples t, (∀ t ∈ tuples, Coherent t) → Coherent t →
    ∀ t' ∈ (call o tuples t).2, Coherent t'

theorem local_create : Local h fun (o : Nat × Persist) tuples t =>
    createRelationshipTuple o.2 tuples (stamped o.1 t) where
  outside o tuples t ht := by
    rw [← nsHead_stamped o.1 t] at ht
    rw [createRelationshipTuple]
    split
    · rfl
    · rw [visible, visible]
      simp [ht]
  inside o tuples t ht := by
    rw [← nsHead_stamped o.1 t] at ht
    have hany : ((visible h tuples).any fun stored =>
        sameRelationshipTupleIdentity stored (stamped o.1 t)) =
        tuples.any fun stored => sameRelationshipTupleIdentity stored (stamped o.1 t) := by
      rw [visible, List.any_filter]
      congr 1
      funext stored
      cases hsame : sameRelationshipTupleIdentity stored (stamped o.1 t) with
      | false => rw [Bool.and_false]
      | true => rw [ns_eq_of_sameIdentity hsame, ht, beq_self_eq_true, Bool.and_true]
    rw [createRelationshipTuple, createRelationshipTuple, hany]
    split
    · exact ⟨rfl, rfl⟩
    · refine ⟨rfl, ?_⟩
      rw [visible, visible]
      simp [ht]
  coherent o tuples t htuples ht := by
    rw [createRelationshipTuple]
    split
    · exact htuples
    · intro t' ht'
      rcases List.mem_append.mp ht' with ht' | ht'
      · exact htuples t' ht'
      · rw [List.mem_singleton.mp ht', stamped]
        split <;> exact ht

theorem local_delete : Local h deleteRelationshipTuple where
  outside o tuples t ht := by
    rw [deleteRelationshipTuple, visible, List.filter_filter]
    refine List.filter_congr fun stored _ => ?_
    cases hsame : sameRelationshipTupleIdentity stored t with
    | false => rw [Bool.not_false, Bool.and_true]
    | true =>
      rw [ns_eq_of_sameIdentity hsame, beq_false_of_ne ht]
      rfl
  inside o tuples t _ := by
    rw [deleteRelationshipTuple, deleteRelationshipTuple, visible, visible, List.filter_filter,
      List.filter_filter]
    refine ⟨rfl, List.filter_congr fun stored _ => Bool.and_comm _ _⟩
  coherent o tuples t htuples _ t' ht' := htuples t' (List.mem_filter.mp ht').1

variable {h} {call : ω → List RelationshipTuple → RelationshipTuple →
  QidResult Unit × List RelationshipTuple}

variable (hcall : Local h call) (oracle : Nat → ω) (tuples ts : List RelationshipTuple)
include hcall oracle tuples ts

theorem Local.forEach_outside (hts : ∀ t ∈ ts, nsHead t.ns ≠ h) :
    visible h (forEachTuple call oracle tuples ts).2 = visible h tuples := by
  induction ts generalizing oracle tuples with
  | nil => rfl
  | cons t ts ih =>
    have hone := hcall.outside (oracle 0) tuples t (hts t List.mem_cons_self)
    rw [forEachTuple]
    split
    · exact hone
    · rw [ih _ _ fun t' ht' => hts t' (List.mem_cons_of_mem t ht'), hone]

theorem Local.forEach_inside (hts : ∀ t ∈ ts, nsHead t.ns = h) :
    (forEachTuple call oracle (visible h tuples) ts).2 =
      visible h (forEachTuple call oracle tuples ts).2 := by
  induction ts generalizing oracle tuples with
  | nil => rfl
  | cons t ts ih =>
    obtain ⟨hreply, hafter⟩ := hcall.inside (oracle 0) tuples t (hts t List.mem_cons_self)
    rw [forEachTuple, forEachTuple, hreply, hafter]
    split
    · rfl
    · exact ih _ _ fun t' ht' => hts t' (List.mem_cons_of_mem t ht')

theorem Local.forEach_coherent (htuples : ∀ t ∈ tuples, Coherent t) (hts : ∀ t ∈ ts, Coherent t) :
    ∀ t ∈ (forEachTuple call oracle tuples ts).2, Coherent t := by
  induction ts generalizing oracle tuples with
  | nil => exact htuples
  | cons t ts ih =>
    have hone := hcall.coherent (oracle 0) tuples t htuples (hts t List.mem_cons_self)
    rw [forEachTuple]
    split
    · exact hone
    · exact ih _ _ hone fun t' ht' => hts t' (List.mem_cons_of_mem t ht')

end

variable {tuples : List RelationshipTuple}

theorem mem_scopedTuples {P : RelationshipTuple → Prop}
    (hP : ∀ t, P (scopedTuple tenantId t)) : ∀ t ∈ scopedTuples tenantId tuples, P t := by
  intro t ht
  obtain ⟨t', -, rfl⟩ := List.mem_map.mp ht
  exact hP t'

theorem visible_tuplesHandler (h : List Char) (tuples : List RelationshipTuple)
    (r : TupleRequest) :
    visible h (tuplesHandler tuples (tenantId, r)).2 =
      if tenantHead tenantId = h then (tuplesHandler (visible h tuples) (tenantId, r)).2
      else visible h tuples := by
  have hts : ∀ ts, ∀ t ∈ scopedTuples tenantId ts, nsHead t.ns = tenantHead tenantId := fun ts =>
    mem_scopedTuples fun t => nsHead_scopedNamespace tenantId t.ns
  split
  · rename_i heq
    rw [heq] at hts
    cases r with
    | write new oracle => exact ((local_create h).forEach_inside oracle tuples _ (hts new)).symm
    | delete old oracle => exact ((local_delete h).forEach_inside oracle tuples _ (hts old)).symm
  · rename_i hne
    cases r with
    | write new oracle =>
      exact (local_create h).forEach_outside oracle tuples _ fun t ht => hts new t ht ▸ hne
    | delete old oracle =>
      exact (local_delete h).forEach_outside oracle tuples _ fun t ht => hts old t ht ▸ hne

theorem coherent_tuplesHandler (tuples : List RelationshipTuple) (r : String × TupleRequest)
    (htuples : ∀ t ∈ tuples, Coherent t) : ∀ t ∈ (tuplesHandler tuples r).2, Coherent t := by
  obtain ⟨tenantId, r⟩ := r
  have hts : ∀ ts, ∀ t ∈ scopedTuples tenantId ts, Coherent t := fun ts =>
    mem_scopedTuples fun t => (nsHead_scopedNamespace tenantId t.subjectNamespace).trans
      (nsHead_scopedNamespace tenantId t.ns).symm
  cases r with
  | write new oracle => exact (local_create []).forEach_coherent oracle tuples _ htuples (hts new)
  | delete old oracle => exact (local_delete []).forEach_coherent oracle tuples _ htuples (hts old)

/-- What is visible after some requests is what those of the same head alone make of it. -/
theorem visible_final (h : List Char) (tuples : List RelationshipTuple)
    (rs : List (String × TupleRequest)) :
    visible h (final tuplesHandler tuples rs) =
      final tuplesHandler (visible h tuples) (rs.filter fun r => tenantHead r.1 == h) := by
  induction rs generalizing tuples with
  | nil => rfl
  | cons r rs ih =>
    obtain ⟨tenantId, r⟩ := r
    rw [final_cons, ih, visible_tuplesHandler, List.filter_cons]
    by_cases heq : tenantHead tenantId = h
    · simp only [heq, beq_self_eq_true, if_true, final_cons]
    · simp only [heq, beq_iff_eq, if_false]

/-- A tenant's checks, expansions and reads have the same results over two lists of tuples. -/
structure SameAnswers (tenantId : String) (tuples tuples' : List RelationshipTuple) : Prop where
  check : ∀ ns objectId relation subjectNamespace subjectId,
    checkHandler tenantId tuples ns objectId relation subjectNamespace subjectId =
      checkHandler tenantId tuples' ns objectId relation subjectNamespace subjectId
  expand : ∀ ns objectId relation maxResponseBytes,
    expandHandler tenantId tuples ns objectId relation maxResponseBytes =
      expandHandler tenantId tuples' ns objectId relation maxResponseBytes
  read : ∀ ns objectId relation,
    readTuplesHandler tenantId tuples ns objectId relation =
      readTuplesHandler tenantId tuples' ns objectId relation

section

variable (tuples : List RelationshipTuple) {ns : String} {key : TupleGroupKey}

theorem nodes_congr {groups groups' : TupleGroups}
    (hlookup : ∀ key, groups.lookup key = groups'.lookup key) : nodes groups = nodes groups' := by
  funext remaining
  induction remaining with
  | zero =>
    funext key ancestry
    simp only [nodes, hlookup]
  | succ remaining ih =>
    funext key ancestry
    simp only [nodes, hlookup, ih]

theorem listRelationshipTuples_visible (hns : nsHead ns = h) (objectId : String)
    (relation : Option String) :
    listRelationshipTuples (visible h tuples) ns objectId relation =
      listRelationshipTuples tuples ns objectId relation := by
  have hfilter : ((visible h tuples).filter fun t => t.ns == ns && t.objectId == objectId) =
      tuples.filter fun t => t.ns == ns && t.objectId == objectId := by
    rw [visible, List.filter_filter]
    refine List.filter_congr fun t _ => ?_
    cases ht : t.ns == ns with
    | false => rfl
    | true => rw [beq_iff_eq.mp ht, hns, beq_self_eq_true, Bool.and_true]
  rw [listRelationshipTuples, listRelationshipTuples, hfilter]

theorem groupOf_visible (hkey : nsHead key.ns = h) :
    groupOf tuples key = groupOf (visible h tuples) key := by
  have hlist := listRelationshipTuples_visible tuples hkey key.objectId (some key.relation)
  rw [listRelationshipTuples_eq, listRelationshipTuples_eq, Except.ok.injEq] at hlist
  exact hlist.symm

theorem usersets_visible (hkey : nsHead key.ns = h) :
    usersets tuples key = usersets (visible h tuples) key := by
  rw [usersets, usersets, groupOf_visible tuples hkey]

variable {tuples} (hcoherent : ∀ t ∈ tuples, Coherent t)
include hcoherent

/-- What is reached from a node of the head has the head, and is reached over the visible
tuples. -/
theorem within_visible (root key : TupleGroupKey) (hroot : nsHead root.ns = h) {n : Nat} :
    (Within (UsersetEdge tuples) n root key ↔ Within (UsersetEdge (visible h tuples)) n root key) ∧
    (Within (UsersetEdge tuples) n root key → nsHead key.ns = h) := by
  have hedge : ∀ a b : TupleGroupKey, nsHead a.ns = h → b ∈ usersets tuples a →
      nsHead b.ns = h ∧ b ∈ usersets (visible h tuples) a := fun a b ha hb => by
    refine ⟨?_, usersets_visible tuples ha ▸ hb⟩
    -- the walk stays in its class
    obtain ⟨t, ht, rfl⟩ := List.mem_map.mp hb
    rw [List.mem_filter, mem_groupOf] at ht
    have hns : t.ns = a.ns := congrArg TupleGroupKey.ns ht.1.2
    exact (hcoherent t ht.1.1).trans (hns ▸ ha)
  have hback : ∀ a b : TupleGroupKey, nsHead a.ns = h → b ∈ usersets (visible h tuples) a →
      nsHead b.ns = h ∧ b ∈ usersets tuples a := fun a b ha hb => by
    rw [← usersets_visible tuples ha] at hb
    exact ⟨(hedge a b ha hb).1, hb⟩
  rw [← edge_usersets, ← edge_usersets]
  refine ⟨⟨?_, ?_⟩, ?_⟩
  · rintro ⟨k, hk, hw⟩
    exact ⟨k, hk, (hw.congr hedge hroot).2⟩
  · rintro ⟨k, hk, hw⟩
    exact ⟨k, hk, (hw.congr hback hroot).2⟩
  · rintro ⟨k, -, hw⟩
    exact (hw.congr hedge hroot).1

theorem check_visible (hns : nsHead ns = h)
    (objectId relation subjectNamespace subjectId : String) :
    check tuples ns objectId relation subjectNamespace subjectId =
      check (visible h tuples) ns objectId relation subjectNamespace subjectId := by
  obtain ⟨b, hb, hiff⟩ := checkLoop_answers tuples ns objectId relation subjectNamespace subjectId
  obtain ⟨b', hb', hiff'⟩ :=
    checkLoop_answers (visible h tuples) ns objectId relation subjectNamespace subjectId
  have hsame : b = b' := by
    rw [Bool.eq_iff_iff, hiff, hiff']
    refine exists_congr fun key => ?_
    obtain ⟨hwithin, hhead⟩ := within_visible hcoherent
      { ns := ns, objectId := objectId, relation := relation } key hns
    rw [← hwithin]
    refine and_congr_right fun hw => ?_
    rw [← hasDirect_iff, ← hasDirect_iff, hasDirect, hasDirect, groupOf_visible tuples (hhead hw)]
  rw [check, check, hb _ (Nat.le_refl _), hb' _ (Nat.le_refl _), hsame]

theorem expand_visible (hns : nsHead ns = h) (objectId relation : String) (maxResponseBytes : Nat) :
    expand tuples ns objectId relation maxResponseBytes =
      expand (visible h tuples) ns objectId relation maxResponseBytes := by
  obtain ⟨groups, hrun, hgroups⟩ := expandStep_collects tuples
    { ns := ns, objectId := objectId, relation := relation }
  obtain ⟨groups', hrun', hgroups'⟩ := expandStep_collects (visible h tuples)
    { ns := ns, objectId := objectId, relation := relation }
  have hlookup : ∀ key, groups.lookup key = groups'.lookup key := by
    refine fun key => Option.ext fun ts => ?_
    obtain ⟨hwithin, hhead⟩ := within_visible hcoherent
      { ns := ns, objectId := objectId, relation := relation } key hns
    rw [hgroups, hgroups', ← hwithin]
    refine and_congr_right fun hw => ?_
    rw [groupOf_visible tuples (hhead hw)]
  rw [expand, expand, expandLoop, expandLoop, hrun _ (Nat.le_refl _), hrun' _ (Nat.le_refl _)]
  dsimp only [branch]
  rw [nodes_congr hlookup]

/-- What a tenant is told depends on the tuples of its head only. -/
theorem answers_visible (tenantId : String) (htenant : tenantHead tenantId = h) :
    SameAnswers tenantId tuples (visible h tuples) where
  check ns objectId relation subjectNamespace subjectId :=
    check_visible hcoherent ((nsHead_scopedNamespace tenantId ns).trans htenant) _ _ _ _
  expand ns objectId relation maxResponseBytes :=
    expand_visible hcoherent ((nsHead_scopedNamespace tenantId ns).trans htenant) _ _ _
  read ns objectId relation := by
    rw [readTuplesHandler, readTuplesHandler, listRelationshipTuples_visible tuples
      ((nsHead_scopedNamespace tenantId ns).trans htenant)]

end

/-- Whatever requests are made, those of `second` do not show in what `first` is told: the
answers are those of the run without them. -/
def Isolated (first second : String) : Prop :=
  ∀ rs : List (String × TupleRequest),
    SameAnswers first (final tuplesHandler [] rs)
      (final tuplesHandler [] (rs.filter fun r => r.1 ≠ second))

theorem coherent_final (rs : List (String × TupleRequest)) :
    ∀ t ∈ final tuplesHandler [] rs, Coherent t :=
  final_invariant tuplesHandler coherent_tuplesHandler (fun t ht => by cases ht) rs

theorem isolated_of_head_ne (hne : tenantHead first ≠ tenantHead second) :
    Isolated first second := by
  intro rs
  have hfilter : (rs.filter fun r => r.1 ≠ second).filter
      (fun r => tenantHead r.1 == tenantHead first) =
      rs.filter fun r => tenantHead r.1 == tenantHead first := by
    rw [List.filter_filter]
    refine List.filter_congr fun r _ => ?_
    by_cases hr : r.1 = second
    · rw [hr, beq_false_of_ne hne.symm, Bool.false_and]
    · rw [decide_eq_true hr, Bool.and_true]
  have hvisible : visible (tenantHead first) (final tuplesHandler [] rs) =
      visible (tenantHead first) (final tuplesHandler [] (rs.filter fun r => r.1 ≠ second)) := by
    rw [visible_final, visible_final, hfilter]
  have hall := answers_visible (coherent_final rs) first rfl
  have hpurged := answers_visible (coherent_final (rs.filter fun r => r.1 ≠ second)) first rfl
  rw [hvisible] at hall
  exact ⟨fun _ _ _ _ _ => (hall.check _ _ _ _ _).trans (hpurged.check _ _ _ _ _).symm,
    fun _ _ _ _ => (hall.expand _ _ _ _).trans (hpurged.expand _ _ _ _).symm,
    fun _ _ _ => (hall.read _ _ _).trans (hpurged.read _ _ _).symm⟩

def writeOne (t : RelationshipTuple) : TupleRequest := .write [t] fun _ => (1, .done)

/-- From a document of the first tenant, through a group of the second, back to a user of the first.
The second tenant adds the link in the middle; the tenant with their common head, which reaches both
with the rests of their scopes, adds the other two. -/
def chain (common second restFirst restSecond : String) : List (String × TupleRequest) :=
  [(common, writeOne
      { ns := restFirst ++ "doc", objectId := "d", relation := "viewer",
        subjectNamespace := restSecond ++ "group", subjectId := "g", subjectRelation := "member",
        createdAtEpochSeconds := 1 }),
    (second, writeOne
      { ns := "group", objectId := "g", relation := "member", subjectNamespace := "group",
        subjectId := "k", subjectRelation := "member", createdAtEpochSeconds := 1 }),
    (common, writeOne
      { ns := restSecond ++ "group", objectId := "k", relation := "member",
        subjectNamespace := restFirst ++ "user", subjectId := "u", subjectRelation := "",
        createdAtEpochSeconds := 1 })]

def chainStart (first second : String) : RelationshipTuple :=
  { ns := scopedNamespace first "doc", objectId := "d", relation := "viewer",
    subjectNamespace := scopedNamespace second "group", subjectId := "g",
    subjectRelation := "member", createdAtEpochSeconds := 1 }

def chainMiddle (second : String) : RelationshipTuple :=
  { ns := scopedNamespace second "group", objectId := "g", relation := "member",
    subjectNamespace := scopedNamespace second "group", subjectId := "k",
    subjectRelation := "member", createdAtEpochSeconds := 1 }

def chainEnd (first second : String) : RelationshipTuple :=
  { ns := scopedNamespace second "group", objectId := "k", relation := "member",
    subjectNamespace := scopedNamespace first "user", subjectId := "u", subjectRelation := "",
    createdAtEpochSeconds := 1 }

theorem check_chain (first second : String) :
    checkHandler first [chainStart first second, chainMiddle second, chainEnd first second]
      "doc" "d" "viewer" "user" "u" = some (.ok true) := by
  have huserset : "member" ≠ "" := by decide
  rw [checkHandler, check_iff]
  refine ⟨(chainMiddle second).subjectKey, ⟨2, by decide, ?_⟩,
    chainEnd first second, by simp, rfl, rfl, rfl, rfl⟩
  refine (Walk.single (b := (chainStart first second).subjectKey) ?_).snoc ?_
  · exact ⟨chainStart first second, by simp, rfl, huserset, rfl⟩
  · exact ⟨chainMiddle second, by simp, rfl, huserset, rfl⟩

theorem check_broken_chain
    (htuples : ∀ t ∈ tuples, t = chainStart first second ∨ t = chainEnd first second) :
    checkHandler first tuples "doc" "d" "viewer" "user" "u" ≠ some (.ok true) := by
  have huserset : "member" ≠ "" := by decide
  have hd : "d" ≠ "k" := by decide
  have hg : "g" ≠ "k" := by decide
  rw [checkHandler, Ne, check_iff]
  rintro ⟨key, ⟨n, -, hwalk⟩, t, ht, hkey, hdirect, -⟩
  -- the only direct tuple belongs to `k`, and no edge leads there
  have hk : key.objectId = "k" := by
    rcases htuples t ht with rfl | rfl
    · exact absurd hdirect huserset
    · rw [← hkey]
      rfl
  cases hwalk with
  | nil => exact absurd hk hd
  | snoc _ hedge =>
    obtain ⟨t', ht', -, hrel, rfl⟩ := hedge
    rcases htuples t' ht' with rfl | rfl
    · exact absurd hk hg
    · exact absurd rfl hrel

theorem not_isolated_of_head_eq (heq : tenantHead first = tenantHead second) :
    ¬ Isolated first second := by
  intro hisolated
  obtain ⟨restFirst, hfirst⟩ := exists_scopedNamespace first
  obtain ⟨restSecond, hsecond⟩ := exists_scopedNamespace second
  rw [heq] at hfirst
  generalize String.ofList (tenantHead second) = common at hfirst hsecond
  have hchain : final tuplesHandler [] (chain common second restFirst restSecond) =
      [chainStart first second, chainMiddle second, chainEnd first second] := by
    simp [chain, writeOne, tuplesHandler, writeTuples, forEachTuple, createRelationshipTuple,
      stamped, sameRelationshipTupleIdentity, scopedTuples, scopedTuple, Persist.result,
      chainStart, chainMiddle, chainEnd, hfirst, hsecond]
  have hsame := (hisolated (chain common second restFirst restSecond)).check
    "doc" "d" "viewer" "user" "u"
  rw [hchain, check_chain] at hsame
  refine @check_broken_chain first second _ (fun t ht => ?_) hsame.symm
  -- without the second tenant's link, at most the two others are left
  by_cases hcommon : common = second
  · simp [chain, hcommon] at ht
  · simpa [chain, hcommon, writeOne, tuplesHandler, writeTuples, forEachTuple,
      createRelationshipTuple, stamped, sameRelationshipTupleIdentity, scopedTuples, scopedTuple,
      Persist.result, chainStart, chainEnd, hfirst, hsecond] using ht

/-- The requests of one tenant's administrators never show in what another is told, exactly for two
tenants whose scopes differ before their first `::`. -/
theorem isolated_iff (first second : String) :
    Isolated first second ↔ tenantHead first ≠ tenantHead second :=
  ⟨fun hisolated heq => not_isolated_of_head_eq heq hisolated, isolated_of_head_ne⟩

/-- The tenant `a::b` writes into the namespaces of the tenant `a` that begin with `b::`. -/
theorem tenants_share_namespace :
    let t : RelationshipTuple :=
      { ns := "doc", objectId := "d1", relation := "viewer", subjectNamespace := "user",
        subjectId := "mallory", subjectRelation := "", createdAtEpochSeconds := 1 }
    let rs := [("a::b", writeOne t)]
    "a" ≠ "a::b" ∧
    checkHandler "a" (final tuplesHandler [] rs) "b::doc" "d1" "viewer" "b::user" "mallory" =
      some (.ok true) ∧
    checkHandler "a" (final tuplesHandler [] (rs.filter fun r => r.1 ≠ "a::b"))
      "b::doc" "d1" "viewer" "b::user" "mallory" = some (.ok false) := by
  decide +kernel

/-- In every run, an answer is changed only by a request of a tenant with the same head: a write
grants, and a deletion revokes. -/
theorem changed_answer_accounted (rs : List (String × TupleRequest))
    (tenantId ns objectId relation subjectNamespace subjectId : String) :
    let granted tuples := checkHandler tenantId tuples ns objectId relation subjectNamespace
      subjectId = some (.ok true)
    ∀ e ∈ run tuplesHandler [] rs,
      (¬ granted e.before → granted e.after →
        tenantHead e.call.1 = tenantHead tenantId ∧ ∃ new oracle, e.call.2 = .write new oracle) ∧
      (granted e.before → ¬ granted e.after →
        tenantHead e.call.1 = tenantHead tenantId ∧
          ∃ old oracle, e.call.2 = .delete old oracle) := by
  intro granted e he
  obtain ⟨rs', ⟨sender, r⟩, -, rfl⟩ := of_mem_run tuplesHandler he
  have hbefore := coherent_final rs'
  have hafter := coherent_tuplesHandler _ (sender, r) hbefore
  dsimp only [eventOf]
  by_cases hhead : tenantHead sender = tenantHead tenantId
  · cases r with
    | write new oracle =>
      exact ⟨fun _ _ => ⟨hhead, _, _, rfl⟩, fun hgranted hrevoked =>
        absurd (check_mono prefix_writeTuples.subset hgranted) hrevoked⟩
    | delete old oracle =>
      exact ⟨fun hdenied hgranted => absurd (check_mono deleteTuples_subset hgranted) hdenied,
        fun _ _ => ⟨hhead, _, _, rfl⟩⟩
  · have hsame : granted (final tuplesHandler [] rs') ↔
        granted (tuplesHandler (final tuplesHandler [] rs') (sender, r)).2 := by
      dsimp only [granted]
      rw [(answers_visible hbefore tenantId rfl).check, (answers_visible hafter tenantId rfl).check,
        visible_tuplesHandler, if_neg hhead]
    exact ⟨fun hdenied hgranted => absurd (hsame.mpr hgranted) hdenied,
      fun hgranted hrevoked => absurd (hsame.mp hgranted) hrevoked⟩

end Qid.Rebac
