/-
Relationship tuples, `check` and `expand`.

A translation of `qid-iga/src/rebac.rs` over the tuples of the file store. The two walks are while
loops, run here with as much fuel as there are tuples, and two more; `Qid.Rebac.Check` and
`Qid.Rebac.Agree` prove that no more is ever needed.
-/
import Qid.Core.Json
import Qid.Lib.Bfs
import Mathlib.Data.List.AList

namespace Qid.Rebac

open Lib Lib.Bfs

/-- An empty `subjectRelation` references the subject directly; otherwise the subject is itself a
userset. -/
structure RelationshipTuple where
  ns : String
  objectId : String
  relation : String
  subjectNamespace : String
  subjectId : String
  subjectRelation : String
  createdAtEpochSeconds : Nat
  deriving DecidableEq

structure TupleGroupKey where
  ns : String
  objectId : String
  relation : String
  deriving DecidableEq

namespace RelationshipTuple

variable (t : RelationshipTuple)

def objectKey : TupleGroupKey := { ns := t.ns, objectId := t.objectId, relation := t.relation }

def subjectKey : TupleGroupKey :=
  { ns := t.subjectNamespace, objectId := t.subjectId, relation := t.subjectRelation }

def isUserset : Bool := !t.subjectRelation.isEmpty

end RelationshipTuple

variable (tuples : List RelationshipTuple)

def listRelationshipTuples (ns objectId : String) (relation : Option String) :
    QidResult (List RelationshipTuple) :=
  let found := tuples.filter fun t => t.ns == ns && t.objectId == objectId
  let found := found.filter fun t => relation.all fun rel => t.relation == rel
  return found.mergeSort fun a b => a.createdAtEpochSeconds ≤ b.createdAtEpochSeconds

def maxDepth : Nat := 10

def checkStep (subjectNamespace subjectId : String) (s : PopState TupleGroupKey) :
    QidResult (Iter (PopState TupleGroupKey) Bool) :=
  match s.queue with
  | [] => return .done false
  | (key, depth) :: queue =>
    if depth > maxDepth then
      return .next { s with queue := queue }
    else if key ∈ s.visited then
      return .next { s with queue := queue }
    else do
      let found ← listRelationshipTuples tuples key.ns key.objectId (some key.relation)
      if found.any fun t => t.subjectNamespace == subjectNamespace && t.subjectId == subjectId &&
          t.subjectRelation.isEmpty then
        return .done true
      else
        return .next
          { visited := key :: s.visited
            queue := queue ++ ((found.filter fun t => t.isUserset).map fun t =>
              (t.subjectKey, depth + 1)) }

def checkLoop (fuel : Nat) (tuples : List RelationshipTuple)
    (ns objectId relation subjectNamespace subjectId : String) : Option (QidResult Bool) :=
  whileLoop (checkStep tuples subjectNamespace subjectId) fuel
    { visited := [], queue := [({ ns := ns, objectId := objectId, relation := relation }, 0)] }

def check (ns objectId relation subjectNamespace subjectId : String) : Option (QidResult Bool) :=
  checkLoop (tuples.length + 2) tuples ns objectId relation subjectNamespace subjectId

inductive ExpandNode where
  | leaf (ns subjectId : String) (subjectRelation : Option String)
  | branch (ns objectId relation : String) (children : List ExpandNode)

inductive ExpandError where
  | repository (e : QidError)
  | responseTooLarge (limitBytes : Nat)
  deriving DecidableEq

abbrev TupleGroups : Type := AList fun _ : TupleGroupKey => List RelationshipTuple

/-- It reads each group once. -/
def expandStep (s : PushState TupleGroupKey TupleGroups) :
    QidResult (Iter (PushState TupleGroupKey TupleGroups) TupleGroups) :=
  match s.queue with
  | [] => return .done s.acc
  | (key, depth) :: queue => do
    let found ← listRelationshipTuples tuples key.ns key.objectId (some key.relation)
    let r :=
      if depth < maxDepth then
        ((found.filter fun t => t.isUserset).map fun t => t.subjectKey).foldl
          (enqueue (depth + 1)) (s.seen, queue)
      else (s.seen, queue)
    return .next { seen := r.1, queue := r.2, acc := s.acc.insert key found }

def expandLeaf (t : RelationshipTuple) : ExpandNode :=
  .leaf t.subjectNamespace t.subjectId (if t.isUserset then some t.subjectRelation else none)

/-- The ancestry is kept with the last key first, and `remaining` is `MAX_DEPTH + 1 -
ancestry.len()`, so that a userset is expanded only while some depth remains. -/
def nodes (groups : TupleGroups) : Nat → TupleGroupKey → List TupleGroupKey → List ExpandNode
  | 0, key, _ => ((groups.lookup key).getD []).map expandLeaf
  | remaining + 1, key, ancestry =>
    ((groups.lookup key).getD []).map fun t =>
      if t.isUserset then
        match groups.lookup t.subjectKey with
        | some (_ :: _) =>
          if t.subjectKey ∈ ancestry then
            expandLeaf t
          else
            .branch t.subjectNamespace t.subjectId t.subjectRelation
              (nodes groups remaining t.subjectKey (t.subjectKey :: ancestry))
        | _ => expandLeaf t
      else
        expandLeaf t

def branch (groups : TupleGroups) (remaining : Nat) (key : TupleGroupKey)
    (ancestry : List TupleGroupKey) : ExpandNode :=
  .branch key.ns key.objectId key.relation (nodes groups remaining key ancestry)

open Json in
mutual

def ExpandNode.encode : ExpandNode → String
  | .leaf ns subjectId none =>
    encodeObject [("namespace", encodeString ns), ("subject_id", encodeString subjectId)]
  | .leaf ns subjectId (some relation) =>
    encodeObject [("namespace", encodeString ns), ("subject_id", encodeString subjectId),
      ("subject_relation", encodeString relation)]
  | .branch ns objectId relation children =>
    encodeObject [("namespace", encodeString ns), ("object_id", encodeString objectId),
      ("relation", encodeString relation), ("children", encodeArray (encodeAll children))]

def encodeAll : List ExpandNode → List String
  | [] => []
  | node :: nodes => node.encode :: encodeAll nodes

end

def encodeResponse (tree : ExpandNode) : String := Json.encodeObject [("tree", tree.encode)]

/-- The writer takes every byte of the text from the budget and fails on the first one that is not
there. -/
def withinBudget (budget : Nat) (text : String) : Bool := text.utf8ByteSize ≤ budget

def expandLoop (fuel : Nat) (tuples : List RelationshipTuple) (ns objectId relation : String)
    (maxResponseBytes : Nat) : Option (Except ExpandError ExpandNode) :=
  let rootKey : TupleGroupKey := { ns := ns, objectId := objectId, relation := relation }
  match whileLoop (expandStep tuples) fuel { seen := [rootKey], queue := [(rootKey, 0)], acc := ∅ }
  with
  | none => none
  | some (.error e) => some (.error (.repository e))
  | some (.ok groups) =>
    let tree := branch groups maxDepth rootKey [rootKey]
    if withinBudget maxResponseBytes (encodeResponse tree) then
      some (.ok tree)
    else
      some (.error (.responseTooLarge maxResponseBytes))

def expand (ns objectId relation : String) (maxResponseBytes : Nat) :
    Option (Except ExpandError ExpandNode) :=
  expandLoop (tuples.length + 2) tuples ns objectId relation maxResponseBytes

end Qid.Rebac
