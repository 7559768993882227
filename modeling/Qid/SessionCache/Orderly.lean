/-
Where a handler stands, and orderly steps.
-/
import Qid.SessionCache.Handlers

namespace Qid.SessionCache

open Lib Storage
open Models (Session)

def IssuePhase.session : IssuePhase → Option Session
  | .sharedSet session _ _ | .localPut session _ _ | .reading session _ _ => some session
  | _ => none

def SsoPhase.session : SsoPhase → Option Session
  | .user session _ => some session
  | _ => none

/-- The session a job has read and not yet answered for. -/
def Job.inHand : Job → Option (String × Session)
  | .issueAssertion _ id _ phase => phase.session.map fun session => (id, session)
  | .sso _ id _ phase => phase.session.map fun session => (id, session)
  | _ => none

/-- The session a job has found to be active, with the time it has looked at. -/
def Job.judged : Job → Option (Session × Nat)
  | .issueAssertion _ _ _ (.reading session now _) | .sso _ _ _ (.user session now) =>
    some (session, now)
  | _ => none

/-- With the time it has looked at. -/
def Job.honoured : Job → Option (String × Nat)
  | .issueAssertion _ id _ (.issued now) | .sso _ id _ (.signedOn now) => some (id, now)
  | _ => none

def Job.readsCache : Job → Option String
  | .issueAssertion _ id _ .start | .issueAssertion _ id _ (.sharedGet _) => some id
  | _ => none

def Job.beforeShared (id : String) : Job → Bool
  | .sessionRevoke _ id' .sharedDelete => id' == id
  | _ => false

def Job.beforeLocal (id : String) : Job → Bool
  | .sessionRevoke _ id' .sharedDelete | .sessionRevoke _ id' .localDelete => id' == id
  | _ => false

def Job.revokes : Job → Option (String × String)
  | .sessionRevoke realm id .write => some (realm, id)
  | .slo realm (.revoke index _ _) => some (realm, index)
  | .login realm _ (some id) .start => some (realm, id)
  | _ => none

def Job.clearsCache : Job → Bool
  | .sessionRevoke _ _ _ => true
  | _ => false

def Job.refreshes : Job → Option (String × String)
  | .sessionRefresh realm id .write => some (realm, id)
  | _ => none

def LogoutPhase.stopped : LogoutPhase → List String
  | .lookup _ revoked | .revoke _ _ revoked | .done revoked => revoked
  | .refused _ => []

def LoginPhase.ended : LoginPhase → Bool
  | .start => false
  | .create ended | .created ended _ | .refused ended _ => ended

def ChangePhase.hasWritten : ChangePhase → Bool
  | .sharedDelete | .localDelete | .done => true
  | _ => false

def Job.stopped : Job → List String
  | .sessionRevoke _ id phase => if phase.hasWritten then [id] else []
  | .slo _ phase => phase.stopped
  | .login _ _ old phase => if phase.ended then old.toList else []
  | _ => []

def Job.hasReturned : Job → Bool
  | .sessionRevoke _ _ .done | .slo _ (.done _) | .login _ _ _ (.created _ _)
  | .login _ _ _ (.refused _ _) => true
  | _ => false

/-- A session of the realm that single logout is about to revoke. -/
def Job.located : Job → Option (String × String)
  | .slo realm (.revoke index _ _) => some (realm, index)
  | _ => none

def Job.ends (s : Store) (job : Job) : Option String :=
  job.revokes.bind fun target =>
    ((s.inRealm target.2 target.1).filter fun session => !session.revoked).map fun _ => target.2

/-- A cache is read for a session only while no `session_revoke` has still to delete it; a session
is revoked only while no handler has it in hand, and, unless the caches are cleared afterwards, only
while no cache holds it; a refresh does not move the deadline back. -/
def Orderly (realms : Realms) (s : System) (env : Env) (job : Job) : Prop :=
  (∀ id ∈ job.readsCache, ∀ other ∈ s.jobs, other.beforeLocal id = false) ∧
  (∀ id ∈ job.ends s.store, ∀ other ∈ s.jobs, ∀ held ∈ other.inHand, held.1 ≠ id) ∧
  (∀ id ∈ job.ends s.store, (job.clearsCache = true ∧ env.persist = .done) ∨
    (s.store.localCache.peek id).isNone ∧ (s.store.sharedCache.lookup (sharedKey id)).isNone) ∧
  (∀ target ∈ job.refreshes, ∀ stored ∈ s.store.sessions.find target.2,
    stored.idleExpiresAt ≤ newIdle (realms target.1) env)

instance (realms : Realms) (s : System) (env : Env) (job : Job) :
    Decidable (Orderly realms s env job) :=
  inferInstanceAs (Decidable (_ ∧ _ ∧ _ ∧ _))

def OrderlyAct (realms : Realms) (s : System) : Act → Prop
  | .arrive _ => True
  | .advance i env => ∀ job ∈ s.jobs[i]?, Orderly realms s env job

instance (realms : Realms) (s : System) : (act : Act) → Decidable (OrderlyAct realms s act)
  | .arrive _ => inferInstanceAs (Decidable True)
  | .advance i env => inferInstanceAs (Decidable (∀ job ∈ s.jobs[i]?, Orderly realms s env job))

end Qid.SessionCache
