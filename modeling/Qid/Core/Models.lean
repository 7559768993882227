/-
Records shared by the crates.

The user, client and session records of `qid-core/src/models`, with the fields that the modelled
functions read. Times are seconds since the epoch.
-/
import Qid.Core.Basic

namespace Qid.Models

structure User where
  id : String
  realmId : String
  email : Option String
  emailVerified : Bool
  displayName : Option String
  failedLoginAttempts : Nat
  lockedUntil : Option Nat
  org : Option String
  deriving DecidableEq

inductive ClientType where
  | confidential
  | isPublic
  deriving DecidableEq

structure Client where
  id : String
  realmId : String
  clientId : String
  clientType : ClientType
  redirectUris : List String
  sectorIdentifierUri : Option String
  subjectType : Option String
  deriving DecidableEq

structure Session where
  id : String
  realmId : String
  userId : String
  idleExpiresAt : Nat
  absoluteExpiresAt : Nat
  revoked : Bool
  deriving DecidableEq

/-- The deadlines of a session are inclusive. -/
def Session.isActive (s : Session) (now : Nat) : Bool :=
  !s.revoked && s.absoluteExpiresAt ≥ now && s.idleExpiresAt ≥ now

end Qid.Models
