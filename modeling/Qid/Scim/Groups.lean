/-
Writes of SCIM groups.

A translation of `inbound/groups.rs`. No write of a group touches a user.
-/
import Qid.Scim.Write

namespace Qid.Scim

open Lib Json Storage File

def replaceGroupValue (existing : ScimGroup) (req : CreateGroup) : QidResult ScimGroup := do
  validateGroupComplex req.members
  return {
    id := existing.id
    realmId := req.realm.getD defaultRealm
    displayName := req.displayName
    membersJson := req.members.getD existing.membersJson }

def asArrayOrDefault : Value → List Value
  | .array items => items
  | _ => []

def addedMembers : Option Value → QidResult (List Value)
  | some (.array values) => do
    forM values validateMember
    return values
  | some value => do
    validateMember value
    return [value]
  | none => .ok []

def applyGroupPatch (group : ScimGroup) (op : PatchOperation) : QidResult ScimGroup := do
  let opName := toAsciiLowercase op.op
  let path := op.path.getD ""
  if (opName = "add" ∨ opName = "replace") ∧ path = "displayName" then
    return { group with displayName := ← stringValue op.value "displayName" }
  else if opName = "add" ∧ path = "members" then
    let added ← addedMembers op.value
    return { group with membersJson := .array (asArrayOrDefault group.membersJson ++ added) }
  else if opName = "replace" ∧ path = "members" then
    let value := op.value.getD (.array [])
    validateMembers value
    return { group with membersJson := value }
  else if opName = "remove" ∧ path = "members" then
    return { group with membersJson := .array [] }
  else .error (unsupportedPatch op.op path)

section

variable (C : Codec) (persist : Persist) (s : Store) (id : String) (req : CreateGroup)

def newGroup : ScimGroup where
  id := id
  realmId := req.realm.getD defaultRealm
  displayName := req.displayName
  membersJson := req.members.getD (.array [])

def createGroupRecord : QidResult ScimGroup × Store :=
  match validateGroupComplex req.members with
  | .error e => (.error e, s)
  | .ok () =>
    let r := createScimGroup persist s (newGroup id req)
    (r.1.map fun _ => newGroup id req, r.2)

variable (expected : Option Condition) (realm : Option String)

def writeGroup (transform : ScimGroup → Bool → QidResult ScimGroup) :
    WriteResult ScimGroup × Store :=
  writeResource (groupType C) persist s id expected realm transform

def replaceGroupRecord : WriteResult ScimGroup × Store :=
  writeGroup C persist s id expected realm fun current conditional =>
    replaceGroupValue current
      (if conditional then { req with realm := some (req.realm.getD current.realmId) } else req)

def patchGroupRecord (operations : List PatchOperation) (expected : Option Condition)
    (realm : Option String) : WriteResult ScimGroup × Store :=
  writeGroup C persist s id expected realm fun current _ =>
    operations.foldlM applyGroupPatch current

def deleteGroupRecord : WriteResult Unit × Store :=
  match expected with
  | some condition =>
    let r := mutateScimGroup persist s id fun current =>
      .ok (if condition.isMetBy (groupType C) current then .delete else .reject)
    ((writeOutcome (groupType C) true r.1).map fun _ => (), r.2)
  | none =>
    let r := mutateScimGroup persist s id (deleteMutation (groupType C) realm)
    ((r.1.map fun _ => ()).mapError .other, r.2)

end

section

variable (C : Codec) (persist : Persist) (s : Store) (context : Option String)

def createGroup (ulid : String) (raw : Value) : Response ScimGroup × Store :=
  match parseCreateGroup C raw with
  | .error e => (.error e, s)
  | .ok req =>
    let r := createGroupRecord persist s ulid { req with realm := realmOpt context req.realm }
    (WriteResult.respond 201 (r.1.mapError .other), r.2)

variable (header : IfMatch)

/-- Unlike for a user, the body is read first. -/
def replaceGroup (id : String) (raw : Value) : Response ScimGroup × Store :=
  match parseCreateGroup C raw with
  | .error e => (.error e, s)
  | .ok req =>
    onResource (groupType C) s context header id fun existing expected =>
      let r := replaceGroupRecord C persist s id { req with realm := realmOpt context req.realm }
        expected (some existing.realmId)
      (WriteResult.respond 200 r.1, r.2)

def patchGroup (id : String) (raw : Value) : Response ScimGroup × Store :=
  match parseObject C patchOperations raw "patch request" with
  | .error e => (.error e, s)
  | .ok operations =>
    onResource (groupType C) s context header id fun existing expected =>
      let r := patchGroupRecord C persist s id operations expected (some existing.realmId)
      (WriteResult.respond 200 r.1, r.2)

def deleteGroup (id : String) : Response ScimGroup × Store :=
  onResource (groupType C) s context header id fun existing expected =>
    let r := deleteGroupRecord C persist s id expected (some existing.realmId)
    (match r.1 with
    | .ok () => .noContent
    | .error e => e.intoResponse, r.2)

end

variable {C : Codec} {persist : Persist} {s : Store} (id : String)

theorem createGroupRecord_users (req : CreateGroup) :
    (createGroupRecord persist s id req).2.scimUsers = s.scimUsers := by
  rw [createGroupRecord]
  split
  · rfl
  · rw [createScimGroup]
    split <;> rfl

theorem deleteGroupRecord_users (expected : Option Condition) (realm : Option String) :
    (deleteGroupRecord C persist s id expected realm).2.scimUsers = s.scimUsers := by
  cases expected with
  | _ => exact mutateScimGroup_users persist

end Qid.Scim
