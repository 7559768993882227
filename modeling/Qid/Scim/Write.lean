/-
Conditional writes of SCIM resources.

A translation of `inbound/write.rs` and of what `users.rs` and `groups.rs` have in common. A handler
first reads the resource; the write then evaluates the same condition again, under the lock of the
store.
-/
import Qid.File.Directory
import Qid.Scim.Request

namespace Qid.Scim

open Lib Json Storage File

inductive WriteError where
  | preconditionFailed
  | other (error : QidError)
  deriving DecidableEq

abbrev WriteResult : Type → Type := Except WriteError

def versionMismatch : String := "SCIM resource version mismatch"

def WriteError.statusCode : WriteError → Nat
  | preconditionFailed => 412
  | other error => error.statusCode

def WriteError.message : WriteError → String
  | preconditionFailed => versionMismatch
  | other error => error.message

inductive IfMatch where
  | absent
  | unreadable
  | text (value : String)
  deriving DecidableEq

def checkResourceVersion (value currentVersion : String) : Except String Unit :=
  ensure (((value.toList.splitOn ',').map fun candidate => trim (String.ofList candidate)).any
    (fun candidate => candidate == "*" || candidate == currentVersion) = true) versionMismatch

def checkIfMatch (header : IfMatch) (currentVersion : String) : Except String Unit :=
  match header with
  | .absent => .ok ()
  | .unreadable => .error "invalid If-Match header"
  | .text value => checkResourceVersion value currentVersion

/-- What the client expects of the stored resource. -/
structure Condition where
  realmId : String
  version : String
  deriving DecidableEq

/-- A header that cannot be read has been refused before. -/
def Condition.fromHeaders (realmId : String) : IfMatch → Option Condition
  | .text value => some ⟨realmId, value⟩
  | .absent | .unreadable => none

inductive Response (V : Type) where
  | resource (status : Nat) (value : V)
  | noContent
  | preconditionFailed (detail : String)
  | error (error : QidError)

def Response.succeeded {V : Type} : Response V → Bool
  | resource _ _ | noContent => true
  | preconditionFailed _ | error _ => false

def WriteError.intoResponse {V : Type} (e : WriteError) : Response V :=
  match e with
  | preconditionFailed => .preconditionFailed e.message
  | other error => .error error

def WriteResult.respond {V : Type} (status : Nat) : WriteResult V → Response V
  | .ok value => .resource status value
  | .error e => e.intoResponse

structure ResourceType (V : Type) where
  resource : String
  realmOf : V → String
  versionOf : V → String
  find : Store → String → Option V
  mutate : Persist → Store → String → (V → QidResult (ScimMutation V)) →
    QidResult (Option V) × Store

def userType (C : Codec) : ResourceType ScimUser where
  resource := "scim user"
  realmOf := (·.realmId)
  versionOf := scimUserVersion C
  find s := s.scimUsers.find
  mutate := mutateScimUser

def groupType (C : Codec) : ResourceType ScimGroup where
  resource := "scim group"
  realmOf := (·.realmId)
  versionOf := scimGroupVersion C
  find s := s.scimGroups.find
  mutate := mutateScimGroup

section

variable {V : Type} (R : ResourceType V)

/-- `matches_user` and `matches_group`. -/
def Condition.isMetBy (c : Condition) (v : V) : Bool :=
  c.realmId == R.realmOf v && (checkResourceVersion c.version (R.versionOf v)).isOk

/-- Visibility comes before the precondition. -/
def checkedResource (found : Option V) (realm : Option String) (header : IfMatch) :
    Except (Response V) V :=
  match found.filter fun v => realm.all (· == R.realmOf v) with
  | none => .error (.error (.notFound R.resource))
  | some v =>
    match checkIfMatch header (R.versionOf v) with
    | .error detail => .error (.preconditionFailed detail)
    | .ok () => .ok v

def writeMutation (expected : Option Condition) (realm : Option String)
    (transform : V → Bool → QidResult V) (current : V) : QidResult (ScimMutation V) :=
  if expected.any (fun c => !c.isMetBy R current) ||
      (expected.isNone && realm.any (· != R.realmOf current)) then .ok .reject
  else (transform current expected.isSome).map .replace

/-- A resource that was rejected is missing, or has changed. -/
def writeOutcome (conditional : Bool) : QidResult (Option V) → WriteResult V
  | .error e => .error (.other e)
  | .ok (some v) => .ok v
  | .ok none => .error (if conditional then .preconditionFailed else .other (.notFound R.resource))

/-- `write_user` and `write_group`. -/
def writeResource (persist : Persist) (s : Store) (id : String) (expected : Option Condition)
    (realm : Option String) (transform : V → Bool → QidResult V) : WriteResult V × Store :=
  let r := R.mutate persist s id (writeMutation R expected realm transform)
  (writeOutcome R expected.isSome r.1, r.2)

/-- `delete_scim_user` and `delete_scim_group` of the repository. -/
def deleteMutation (realm : Option String) (current : V) : QidResult (ScimMutation V) :=
  .ok (if realm.any (· != R.realmOf current) then .reject else .delete)

def onResource (s : Store) (context : Option String) (header : IfMatch) (id : String)
    (write : V → Option Condition → Response V × Store) : Response V × Store :=
  match checkedResource R (R.find s id) context header with
  | .error response => (response, s)
  | .ok existing => write existing (Condition.fromHeaders (R.realmOf existing) header)

end

variable {s : Store} {id : String} {mutation : ScimUser → QidResult (ScimMutation ScimUser)}

theorem mutateScimGroup_users {mutation : ScimGroup → QidResult (ScimMutation ScimGroup)}
    (persist : Persist) : (mutateScimGroup persist s id mutation).2.scimUsers = s.scimUsers := by
  rw [mutateScimGroup]
  split <;> rfl

theorem of_writeMutation {V : Type} {R : ResourceType V} {expected : Option Condition}
    {realm : Option String} {transform : V → Bool → QidResult V} {current : V}
    {m : ScimMutation V} (h : writeMutation R expected realm transform current = .ok m) :
    m = .reject ∨ ∃ v, transform current expected.isSome = .ok v ∧ m = .replace v := by
  rw [writeMutation] at h
  split at h
  · cases h
    exact Or.inl rfl
  · cases ht : transform current expected.isSome with
    | error =>
      rw [ht] at h
      cases h
    | ok v =>
      rw [ht] at h
      cases h
      exact Or.inr ⟨v, rfl, rfl⟩

end Qid.Scim
