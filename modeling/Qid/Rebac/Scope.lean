/-
The tenant-scoped ReBAC API.

The admin API puts `{tenant_id}::` before every namespace it is given. `TenantScopedRebacEvaluator`,
which policy rules use, does the same unless the namespace already begins so.
-/
import Qid.Rebac.Check
import Qid.Storage.Persist

namespace Qid.Rebac

open Lib Storage

variable (tenantId : String)

/-- What is put before the namespaces of a tenant. -/
def tenantScope : String := tenantId ++ "::"

def scopedNamespace (tenantId ns : String) : String := tenantScope tenantId ++ ns

def unscopedNamespace (tenantId ns : String) : String :=
  (stripPrefix (tenantScope tenantId) ns).getD ns

def scopedTuple (t : RelationshipTuple) : RelationshipTuple :=
  { t with
    ns := scopedNamespace tenantId t.ns
    subjectNamespace := scopedNamespace tenantId t.subjectNamespace }

variable (tuples : List RelationshipTuple)

def scopedTuples : List RelationshipTuple := tuples.map (scopedTuple tenantId)

def unscopedTuples : List RelationshipTuple :=
  tuples.map fun t =>
    { t with
      ns := unscopedNamespace tenantId t.ns
      subjectNamespace := unscopedNamespace tenantId t.subjectNamespace }

section

variable (tenantId : String) (tuples : List RelationshipTuple)

def checkHandler (ns objectId relation subjectNamespace subjectId : String) :
    Option (QidResult Bool) :=
  check tuples (scopedNamespace tenantId ns) objectId relation
    (scopedNamespace tenantId subjectNamespace) subjectId

def expandHandler (ns objectId relation : String) (maxResponseBytes : Nat) :
    Option (Except ExpandError ExpandNode) :=
  expand tuples (scopedNamespace tenantId ns) objectId relation maxResponseBytes

def readTuplesHandler (ns objectId relation : String) : QidResult (List RelationshipTuple) := do
  let found ← listRelationshipTuples tuples (scopedNamespace tenantId ns) objectId
    (if relation.isEmpty then none else some relation)
  return unscopedTuples tenantId found

end

def sameRelationshipTupleIdentity (a b : RelationshipTuple) : Bool :=
  a.ns == b.ns && a.objectId == b.objectId && a.relation == b.relation &&
    a.subjectNamespace == b.subjectNamespace && a.subjectId == b.subjectId &&
    a.subjectRelation == b.subjectRelation

def createRelationshipTuple (persist : Persist) (tuples : List RelationshipTuple)
    (t : RelationshipTuple) : QidResult Unit × List RelationshipTuple :=
  if tuples.any fun stored => sameRelationshipTupleIdentity stored t then
    (.error (.conflict "relationship tuple already exists"), tuples)
  else (persist.result, tuples ++ [t])

def deleteRelationshipTuple (persist : Persist) (tuples : List RelationshipTuple)
    (t : RelationshipTuple) : QidResult Unit × List RelationshipTuple :=
  (persist.result, tuples.filter fun stored => !sameRelationshipTupleIdentity stored t)

/-- A tuple without a time gets the time of the write. -/
def stamped (now : Nat) (t : RelationshipTuple) : RelationshipTuple :=
  if t.createdAtEpochSeconds = 0 then { t with createdAtEpochSeconds := now } else t

/-- One call for each tuple, the `n`-th with the `n`-th outcome of its environment, up to the first
error. -/
def forEachTuple {ω : Type}
    (call : ω → List RelationshipTuple → RelationshipTuple →
      QidResult Unit × List RelationshipTuple) :
    (Nat → ω) → List RelationshipTuple → List RelationshipTuple →
      QidResult Unit × List RelationshipTuple
  | _, tuples, [] => (.ok (), tuples)
  | oracle, tuples, t :: ts =>
    let r := call (oracle 0) tuples t
    match r.1 with
    | .error e => (.error e, r.2)
    | .ok () => forEachTuple call (fun n => oracle (n + 1)) r.2 ts

def writeTuples (oracle : Nat → Nat × Persist) (tuples new : List RelationshipTuple) :
    QidResult Unit × List RelationshipTuple :=
  forEachTuple (fun o tuples t => createRelationshipTuple o.2 tuples (stamped o.1 t))
    oracle tuples new

def deleteTuples (oracle : Nat → Persist) (tuples old : List RelationshipTuple) :
    QidResult Unit × List RelationshipTuple :=
  forEachTuple deleteRelationshipTuple oracle tuples old

inductive TupleRequest where
  | write (tuples : List RelationshipTuple) (oracle : Nat → Nat × Persist)
  | delete (tuples : List RelationshipTuple) (oracle : Nat → Persist)

/-- `write_tuples_handler` and `delete_tuples_handler`, for the tenant of the admin session. -/
def tuplesHandler (tuples : List RelationshipTuple) :
    String × TupleRequest → QidResult Unit × List RelationshipTuple
  | (tenantId, .write new oracle) => writeTuples oracle tuples (scopedTuples tenantId new)
  | (tenantId, .delete old oracle) => deleteTuples oracle tuples (scopedTuples tenantId old)

namespace TenantScopedRebacEvaluator

/-- `scoped`, a reserved word here. -/
def toScoped (tenantId ns : String) : String :=
  if startsWith (tenantScope tenantId) ns then ns else tenantScope tenantId ++ ns

def check (tenantId : String) (tuples : List RelationshipTuple)
    (ns objectId relation subjectNamespace subjectId : String) : Option (QidResult Bool) :=
  Rebac.check tuples (toScoped tenantId ns) objectId relation (toScoped tenantId subjectNamespace)
    subjectId

end TenantScopedRebacEvaluator

open TenantScopedRebacEvaluator (toScoped)

theorem ne_scopedNamespace (tenantId ns : String) : ns ≠ scopedNamespace tenantId ns := by
  intro h
  have hlen := congrArg String.length h
  rw [scopedNamespace, tenantScope, String.length_append, String.length_append] at hlen
  have hsep : "::".length = 2 := rfl
  omega

theorem toScoped_eq_iff (tenantId ns : String) :
    toScoped tenantId ns = scopedNamespace tenantId ns ↔
      startsWith (tenantScope tenantId) ns = false := by
  rw [toScoped]
  cases startsWith (tenantScope tenantId) ns with
  | true => exact ⟨fun h => absurd h (ne_scopedNamespace tenantId ns), nofun⟩
  | false => exact ⟨fun _ => rfl, fun _ => rfl⟩

theorem check_singleton {t : RelationshipTuple} (ht : t.subjectRelation = "")
    (ns subjectNamespace : String) :
    Rebac.check [t] ns t.objectId t.relation subjectNamespace t.subjectId = some (.ok true) ↔
      t.ns = ns ∧ t.subjectNamespace = subjectNamespace := by
  rw [check_iff]
  constructor
  · rintro ⟨key, ⟨n, -, hwalk⟩, t', ht', hkey, -, hsubject, -⟩
    rw [List.mem_singleton] at ht'
    subst ht'
    cases hwalk with
    | nil => exact ⟨congrArg TupleGroupKey.ns hkey, hsubject⟩
    | snoc _ hedge =>
      -- a direct tuple is no edge
      obtain ⟨t', ht', -, hrel, -⟩ := hedge
      rw [List.mem_singleton.mp ht'] at hrel
      exact absurd ht hrel
  · rintro ⟨rfl, rfl⟩
    exact ⟨t.objectKey, ⟨0, Nat.zero_le _, Walk.nil⟩, t,
      List.mem_singleton_self t, rfl, ht, rfl, rfl⟩

/-- The evaluator scopes a namespace as the API does unless it begins with the scope of the tenant,
and for two such namespaces it sees every tuple written through the API exactly when the check
endpoint does. -/
theorem evaluator_check_agrees_iff (tenantId : String) :
    (∀ ns, toScoped tenantId ns = scopedNamespace tenantId ns ↔
      startsWith (tenantScope tenantId) ns = false) ∧
    ∀ ns subjectNamespace,
      (∀ others written objectId relation subjectId,
        TenantScopedRebacEvaluator.check tenantId (others ++ scopedTuples tenantId written)
            ns objectId relation subjectNamespace subjectId =
          checkHandler tenantId (others ++ scopedTuples tenantId written)
            ns objectId relation subjectNamespace subjectId) ↔
      startsWith (tenantScope tenantId) ns = false ∧
        startsWith (tenantScope tenantId) subjectNamespace = false := by
  refine ⟨toScoped_eq_iff tenantId, fun ns subjectNamespace => ⟨fun h => ?_, ?_⟩⟩
  · -- the tuple written under the two namespaces is the one that tells them apart
    let t : RelationshipTuple :=
      { ns := ns, objectId := "object", relation := "viewer", subjectNamespace := subjectNamespace,
        subjectId := "subject", subjectRelation := "", createdAtEpochSeconds := 0 }
    have hadmin := (check_singleton (t := scopedTuple tenantId t) rfl _ _).mpr ⟨rfl, rfl⟩
    have hsame := h [] [t] "object" "viewer" "subject"
    obtain ⟨hns, hsubject⟩ := (check_singleton rfl _ _).mp (hsame.trans hadmin)
    exact ⟨(toScoped_eq_iff tenantId ns).mp hns.symm,
      (toScoped_eq_iff tenantId subjectNamespace).mp hsubject.symm⟩
  · rintro ⟨hns, hsubject⟩ others written objectId relation subjectId
    rw [TenantScopedRebacEvaluator.check, (toScoped_eq_iff tenantId ns).mpr hns,
      (toScoped_eq_iff tenantId subjectNamespace).mpr hsubject]
    rfl

/-- A namespace that an administrator named after the tenant: the endpoint sees the tuple
written there, the evaluator does not. -/
theorem evaluator_misses_tuple :
    let t : RelationshipTuple :=
      { ns := "acme::doc", objectId := "d1", relation := "viewer", subjectNamespace := "user",
        subjectId := "alice", subjectRelation := "", createdAtEpochSeconds := 1 }
    let stored := (tuplesHandler [] ("acme", .write [t] fun _ => (1, .done))).2
    checkHandler "acme" stored "acme::doc" "d1" "viewer" "user" "alice" = some (.ok true) ∧
    TenantScopedRebacEvaluator.check "acme" stored "acme::doc" "d1" "viewer" "user" "alice" =
      some (.ok false) := by
  decide +kernel

variable {oracle : Nat → Nat × Persist} {tuples new : List RelationshipTuple} {e : QidError}

theorem same_stamped (a t : RelationshipTuple) (now : Nat) :
    sameRelationshipTupleIdentity a (stamped now t) = sameRelationshipTupleIdentity a t := by
  rw [stamped]
  split <;> rfl

/-- A batch keeps what is stored, whether or not it fails. -/
theorem prefix_writeTuples : tuples <+: (writeTuples oracle tuples new).2 := by
  induction new generalizing oracle tuples with
  | nil => exact List.prefix_refl _
  | cons t new ih =>
    have hstored : tuples <+:
        (createRelationshipTuple (oracle 0).2 tuples (stamped (oracle 0).1 t)).2 := by
      rw [createRelationshipTuple]
      split
      · exact List.prefix_refl _
      · exact List.prefix_append _ _
    rw [writeTuples, forEachTuple]
    split
    · exact hstored
    · exact hstored.trans ih

theorem deleteTuples_subset {persist : Nat → Persist} {old : List RelationshipTuple} :
    (deleteTuples persist tuples old).2 ⊆ tuples := by
  induction old generalizing persist tuples with
  | nil => exact List.Subset.refl _
  | cons t old ih =>
    have hstored : (deleteRelationshipTuple (persist 0) tuples t).2 ⊆ tuples :=
      List.filter_subset_self _
    rw [deleteTuples, forEachTuple]
    split
    · exact hstored
    · exact List.Subset.trans ih hstored

theorem check_mono {more : List RelationshipTuple}
    {ns objectId relation subjectNamespace subjectId : String} (h : tuples ⊆ more)
    (hcheck : check tuples ns objectId relation subjectNamespace subjectId = some (.ok true)) :
    check more ns objectId relation subjectNamespace subjectId = some (.ok true) := by
  rw [check_iff] at hcheck ⊢
  obtain ⟨key, ⟨n, hn, hwalk⟩, t, ht, hdirect⟩ := hcheck
  have hedge : ∀ a b, True → UsersetEdge tuples a b → True ∧ UsersetEdge more a b := by
    rintro a b - ⟨t, ht, hab⟩
    exact ⟨trivial, t, h ht, hab⟩
  exact ⟨key, ⟨n, hn, (hwalk.congr hedge trivial).2⟩, t, h ht, hdirect⟩

/-- A batch that fails leaves the tuples as they were exactly when its first tuple is stored
already. -/
theorem failed_write_unchanged_iff (h : (writeTuples oracle tuples new).1 = .error e) :
    (writeTuples oracle tuples new).2 = tuples ↔
      ∃ t ∈ new.head?, ∃ stored ∈ tuples, sameRelationshipTupleIdentity stored t = true := by
  cases new with
  | nil => cases h
  | cons t new =>
    simp only [List.head?_cons, Option.mem_def, Option.some.injEq, exists_eq_left',
      ← List.any_eq_true]
    rw [writeTuples, forEachTuple, createRelationshipTuple]
    simp only [same_stamped]
    by_cases hstored : (tuples.any fun stored => sameRelationshipTupleIdentity stored t) = true
    · simp [hstored]
    · -- the first tuple is stored, and stays
      have hgrown : ∀ {r : List RelationshipTuple},
          tuples ++ [stamped (oracle 0).1 t] <+: r → r ≠ tuples := by
        rintro r ⟨rest, rfl⟩ heq
        simp at heq
      rw [if_neg hstored, iff_false_right hstored]
      split
      · exact hgrown (List.prefix_refl _)
      · exact hgrown prefix_writeTuples

def sampleTuple (subjectId : String) (time : Nat) : RelationshipTuple :=
  ⟨"doc", "d", "viewer", "user", subjectId, "", time⟩

theorem failed_write_unchanged_iff_sample :
    (writeTuples (fun _ => (1, .done)) [sampleTuple "a" 1]
      [sampleTuple "a" 2, sampleTuple "b" 2]).2 = [sampleTuple "a" 1] :=
  (failed_write_unchanged_iff rfl).mpr ⟨_, rfl, _, List.mem_singleton_self _, rfl⟩

theorem failed_write_keeps_first :
    writeTuples (fun _ => (1, .done)) [sampleTuple "a" 1] [sampleTuple "b" 2, sampleTuple "a" 2] =
      (.error (.conflict "relationship tuple already exists"),
        [sampleTuple "a" 1, sampleTuple "b" 2]) := by
  decide +kernel

end Qid.Rebac
