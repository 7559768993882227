/-
The push repository of the file store.

Each mutating call runs a closure on the push store under the write lock and persists the result.
`mutatePushValue` puts the old store back when the closure fails or the write does. The clock and
the users it reads inside the lock are arguments.
-/
import Qid.Lib.HashMap
import Qid.Push.Record
import Qid.Storage.Persist

namespace Qid.Push

open Lib Storage

structure PushStore where
  authenticators : HashMap PushAuthenticatorRecord
  logins : HashMap PushLoginChallenge
  /-- Kept when proof replaces the pending row. -/
  registrationIssuedAt : HashMap Nat
  loginIssuedAt : HashMap Nat

def PushStore.empty : PushStore :=
  { authenticators := ∅, logins := ∅, registrationIssuedAt := ∅, loginIssuedAt := ∅ }

/-- Issuance is sampled under the admission lock, not taken from challenge creation. -/
def registrationIssuedValid (row : PushAuthenticatorRecord) (issued : Nat) : Bool :=
  match row with
  | .pending c => c.authenticator.createdAt ≤ issued && issued < c.expiresAt
  | .enrolled a => issued != 0 && issued ≤ a.createdAt

def registrationIssued (s : PushStore) (id : String) (row : PushAuthenticatorRecord) :
    QidResult Nat :=
  match s.registrationIssuedAt.lookup id with
  | none => throw corrupt
  | some issued => if !registrationIssuedValid row issued then throw corrupt else return issued

def loginIssued (s : PushStore) (id : String) (c : PushLoginChallenge) : QidResult Nat :=
  match s.loginIssuedAt.lookup id with
  | none => throw corrupt
  | some issued => do
    validateLoginIssued c issued
    return issued

variable {s : PushStore} {issued : Nat} {id : String}

theorem registrationIssued_eq_ok {row : PushAuthenticatorRecord} :
    registrationIssued s id row = .ok issued ↔
      s.registrationIssuedAt.lookup id = some issued ∧
        registrationIssuedValid row issued = true := by
  unfold registrationIssued
  cases s.registrationIssuedAt.lookup id with
  | none => simp [throw_ne_ok]
  | some =>
    rw [guard_eq_ok, pure_eq_ok, Option.some.injEq, Bool.not_eq_true', Bool.not_eq_false]
    constructor
    · rintro ⟨hv, rfl⟩
      exact ⟨rfl, hv⟩
    · rintro ⟨rfl, hv⟩
      exact ⟨hv, rfl⟩

theorem loginIssued_eq_ok {c : PushLoginChallenge} :
    loginIssued s id c = .ok issued ↔
      s.loginIssuedAt.lookup id = some issued ∧ validateLoginIssued c issued = .ok () := by
  unfold loginIssued
  cases s.loginIssuedAt.lookup id with
  | none => simp [throw_ne_ok]
  | some =>
    rw [bind_eq_ok, Option.some.injEq]
    constructor
    · rintro ⟨⟨⟩, hv, h⟩
      rw [pure_eq_ok] at h
      subst h
      exact ⟨rfl, hv⟩
    · rintro ⟨rfl, hv⟩
      exact ⟨(), hv, rfl⟩

def keyLt (a b : Nat × String) : Bool := a.1 < b.1 || (a.1 == b.1 && a.2 < b.2)

/-- A `BinaryHeap` is kept as the ascending list of its keys, so that `push`
inserts in order, `peek` reads the last key and `pop` drops it. -/
def heapPush (key : Nat × String) : List (Nat × String) → List (Nat × String)
  | [] => [key]
  | k :: ks => if keyLt key k then key :: k :: ks else k :: heapPush key ks

def selectStep (limit : Nat) (selected : List (Nat × String)) (key : Nat × String) :
    List (Nat × String) :=
  if selected.length < limit then
    heapPush key selected
  else if selected.getLast?.any fun largest => keyLt key largest then
    heapPush key selected.dropLast
  else
    selected

def selectOldest (candidates : List (Nat × String)) (limit : Nat) : List String :=
  (candidates.foldl (selectStep limit) []).map Prod.snd

def pushPersist : Persist → QidResult Unit
  | .done => .ok ()
  | .unserializable _ => .error (.internal "push store serialization failed")
  | .failed fault => .error fault.error

def mutatePushValue {α : Type} (persist : Persist) (s : PushStore)
    (f : PushStore → QidResult (Bool × α × PushStore)) : QidResult α × PushStore :=
  match f s with
  | .error e => (.error e, s)
  | .ok (changed, value, s') =>
    if !changed then
      (.ok value, s')
    else
      match pushPersist persist with
      | .error e => (.error e, s)
      | .ok () => (.ok value, s')

variable (persist : Persist) (s : PushStore)

def mutatePush (f : PushStore → QidResult (Bool × PushStore)) : QidResult Bool × PushStore :=
  mutatePushValue persist s fun s => do
    let (changed, s') ← f s
    return (changed, changed, s')

variable (realm user id : String)

def getPushRegistration : QidResult (Option PushRegistrationChallenge) :=
  match s.authenticators.lookup id with
  | none => return none
  | some row => do
    let a ← authenticatorRecord row id
    if a.realmId ≠ realm ∨ a.userId ≠ user then
      return none
    else
      match row with
      | .pending c => return some c
      | .enrolled _ => return none

def getPushAuthenticator : QidResult (Option PushAuthenticator) :=
  match s.authenticators.lookup id with
  | none => return none
  | some row => do
    match ← enrolled row id with
    | none => return none
    | some a => if a.realmId ≠ realm ∨ a.userId ≠ user then return none else return some a

def listStep (realm user : String) (rows : List PushAuthenticator)
    (entry : String × PushAuthenticatorRecord) : QidResult (List PushAuthenticator) := do
  match ← enrolled entry.2 entry.1 with
  | none => return rows
  | some a => if a.realmId = realm ∧ a.userId = user then return rows ++ [a] else return rows

def listPushAuthenticators (realm user : String) : QidResult (List PushAuthenticator) := do
  let rows ← s.authenticators.pairs.foldlM (listStep realm user) []
  return rows.mergeSort fun a b => a.id ≤ b.id

def getPushLogin : QidResult (Option PushLoginChallenge) :=
  match s.logins.lookup id with
  | none => return none
  | some c => do
    validateLoginRecord c
    if c.id ≠ id then
      throw corrupt
    else do
      let _ ← loginIssued s id c
      if c.realmId ≠ realm ∨ c.userId ≠ user then return none else return some c

variable (users : HashMap User) (a : PushAuthenticator)

def foreignUser : Bool := (users.lookup a.userId).all fun u => u.realmId != a.realmId

def registrationCountStep (start count : Nat) (entry : String × PushAuthenticatorRecord) :
    QidResult Nat := do
  let _ ← authenticatorRecord entry.2 entry.1
  let r := entry.2.authenticator
  if r.realmId = a.realmId ∧ r.userId = a.userId then do
    let issued ← registrationIssued s entry.1 entry.2
    return if issued ≥ start then count + 1 else count
  else
    return count

def registrationCount (start : Nat) : QidResult Nat :=
  s.authenticators.pairs.foldlM (registrationCountStep s a start) 0

def issuePushRegistration (persist : Persist) (s : PushStore)
    (challenge : PushRegistrationChallenge) (maxIssuances windowSeconds clock : Nat) :
    QidResult Bool × PushStore :=
  match validateRegistration challenge with
  | .error e => (.error e, s)
  | .ok () => mutatePush persist s fun s => do
    let start ← quotaWindowStart challenge.authenticator.createdAt challenge.expiresAt clock
      maxIssuances windowSeconds
    let a := challenge.authenticator
    if foreignUser users a then
      throw conflict
    else if (s.authenticators.lookup a.id).isSome then
      throw conflict
    else do
      let count ← registrationCount s a start
      if count ≥ maxIssuances then
        return (false, s)
      else
        return (true, { s with
          authenticators := s.authenticators.insert a.id (.pending challenge)
          registrationIssuedAt := s.registrationIssuedAt.insert a.id clock })

def attemptPushRegistration (persist : Persist) (s : PushStore)
    (expected : PushRegistrationChallenge) (verified : Bool) (now : Nat) :
    QidResult Bool × PushStore :=
  mutatePush persist s fun s => do
    let a := expected.authenticator
    if foreignUser users a then
      return (false, s)
    else do
      validateRegistrationRecord expected
      match s.authenticators.lookup a.id with
      | none => return (false, s)
      | some row => do
        let _ ← authenticatorRecord row a.id
        let issued ← registrationIssued s a.id row
        if now < issued then
          return (false, s)
        else
          match registrationAttempt row expected verified now with
          | none => return (false, s)
          | some row' => do
            let _ ← authenticatorRecord row' a.id
            return (true, { s with authenticators := s.authenticators.insert a.id row' })

def revokePushAuthenticator (now : Nat) : QidResult Bool × PushStore :=
  mutatePush persist s fun s =>
    match s.authenticators.lookup id with
    | none => return (false, s)
    | some row => do
      let _ ← authenticatorRecord row id
      match row with
      | .pending _ => return (false, s)
      | .enrolled a =>
        if a.realmId ≠ realm ∨ a.userId ≠ user ∨ a.revokedAt.isSome ∨ now < a.createdAt then
          return (false, s)
        else do
          let a' := { a with revokedAt := some now }
          validateAuthenticatorRecord a'
          return (true, { s with
            authenticators := s.authenticators.insert id (.enrolled a') })

/-- One iteration of the login count. An issuance compares purposes by name and a
resend by value, so the comparison is an argument. -/
def loginCountStep (realm user : String) (samePurpose : PushPurpose → Bool) (start count : Nat)
    (entry : String × PushLoginChallenge) : QidResult Nat := do
  validateLoginRecord entry.2
  if entry.2.id ≠ entry.1 then
    throw corrupt
  else if entry.2.realmId = realm ∧ entry.2.userId = user ∧ samePurpose entry.2.purpose then do
    let issued ← loginIssued s entry.1 entry.2
    let sends ← sendCount entry.2 issued start
    return count + sends
  else
    return count

def loginCount (realm user : String) (samePurpose : PushPurpose → Bool) (start : Nat) :
    QidResult Nat :=
  s.logins.pairs.foldlM (loginCountStep s realm user samePurpose start) 0

/-- The authenticator a login is bound to, when it is enrolled and current. -/
def boundAuthenticator (c : PushLoginChallenge) : QidResult (Option PushAuthenticator) :=
  match s.authenticators.lookup c.authenticatorId with
  | none => return none
  | some row => do
    match ← enrolled row c.authenticatorId with
    | none => return none
    | some a => if current a c then return some a else return none

def issuePushLogin (challenge : PushLoginChallenge) (maxIssuances windowSeconds clock : Nat) :
    QidResult Bool × PushStore :=
  match validateLogin challenge with
  | .error e => (.error e, s)
  | .ok () => mutatePush persist s fun s => do
    let start ← quotaWindowStart challenge.createdAt challenge.expiresAt clock
      maxIssuances windowSeconds
    if (s.logins.lookup challenge.id).isSome then
      throw conflict
    else do
      match ← boundAuthenticator s challenge with
      | none => throw conflict
      | some _ => do
        let purpose := loginPurposeStr challenge.purpose
        let count ← loginCount s challenge.realmId challenge.userId
          (fun p => loginPurposeStr p == purpose) start
        if count ≥ maxIssuances then
          return (false, s)
        else
          return (true, { s with
            loginIssuedAt := s.loginIssuedAt.insert challenge.id clock
            logins := s.logins.insert challenge.id challenge })

/-- Checked as `attempt_push_login` and `redeem_push_login` check it before the transition. -/
def checkedLogin (id : String) : QidResult (Option PushLoginChallenge) :=
  match s.logins.lookup id with
  | none => return none
  | some row => do
    let _ ← loginIssued s id row
    validateLoginRecord row
    if row.id ≠ id then throw corrupt else return some row

variable (expected : PushLoginChallenge)

def attemptPushLogin (decision : Option PushDecision) (now : Nat) : QidResult Bool × PushStore :=
  mutatePush persist s fun s => do
    validateLoginRecord expected
    match ← boundAuthenticator s expected with
    | none => return (false, s)
    | some _ => do
      match ← checkedLogin s expected.id with
      | none => return (false, s)
      | some row =>
        match loginAttempt row expected decision now with
        | none => return (false, s)
        | some c => do
          validateLoginRecord c
          return (true, { s with logins := s.logins.insert expected.id c })

def redeemPushLogin (bindingVerifier : String) (now : Nat) : QidResult Bool × PushStore :=
  mutatePush persist s fun s => do
    validateLoginRecord expected
    if !verifier bindingVerifier then
      return (false, s)
    else do
      match ← boundAuthenticator s expected with
      | none => return (false, s)
      | some _ => do
        match ← checkedLogin s expected.id with
        | none => return (false, s)
        | some row =>
          match redeem row expected bindingVerifier now with
          | none => return (false, s)
          | some c => do
            validateLoginRecord c
            return (true, { s with logins := s.logins.insert expected.id c })

def resendPushLogin (bindingVerifier nonceVerifier : String)
    (maxIssuances windowSeconds cooldown clock : Nat) :
    QidResult (Option PushLoginChallenge) × PushStore :=
  match validateLoginRecord expected with
  | .error e => (.error e, s)
  | .ok () => mutatePushValue persist s fun s => do
    -- Expired or refused resends are not malformed initial issuances.
    if clock < expected.createdAt ∨ clock ≥ expected.expiresAt then
      return (false, none, s)
    else do
      let start ← quotaWindowStart expected.createdAt expected.expiresAt clock
        maxIssuances windowSeconds
      match ← boundAuthenticator s expected with
      | none => return (false, none, s)
      | some _ => do
        let count ← loginCount s expected.realmId expected.userId
          (fun p => p == expected.purpose) start
        if count ≥ maxIssuances then
          return (false, none, s)
        else
          match s.logins.lookup expected.id with
          | none => return (false, none, s)
          | some row => do
            let issued ← loginIssued s expected.id row
            match resend row expected bindingVerifier nonceVerifier issued cooldown clock with
            | none => return (false, none, s)
            | some c => do
              validateLoginRecord c
              return (true, some c, { s with logins := s.logins.insert expected.id c })

def validateRows : QidResult Unit := do
  forM s.authenticators.pairs fun entry => do
    let _ ← authenticatorRecord entry.2 entry.1
    let _ ← registrationIssued s entry.1 entry.2
  forM s.logins.pairs fun entry => do
    validateLoginRecord entry.2
    if entry.2.id ≠ entry.1 then
      throw corrupt
    else do
      let _ ← loginIssued s entry.1 entry.2

def expiredRegistrations (now cutoff : Nat) : List (Nat × String) :=
  s.authenticators.pairs.filterMap fun entry =>
    match entry.2, s.registrationIssuedAt.lookup entry.1 with
    | .pending c, some issued =>
      if c.expiresAt ≤ now ∧ issued < cutoff then some (issued, entry.1) else none
    | _, _ => none

def expiredLogins (cutoff : Nat) : List (Nat × String) :=
  s.logins.pairs.filterMap fun entry =>
    (s.loginIssuedAt.lookup entry.1).bind fun issued =>
      if entry.2.expiresAt < cutoff then some (issued, entry.1) else none

/-- `authenticators` with `registrationIssuedAt`, or `logins` with `loginIssuedAt`. -/
structure Rows (R : Type) where
  rows : HashMap R
  issuedAt : HashMap Nat

/-- Remove a selected row, keeping it with its metadata for a rollback. -/
def removeRow {R : Type} (acc : Rows R × List (String × R × Nat)) (id : String) :
    Rows R × List (String × R × Nat) :=
  match acc.1.rows.lookup id, acc.1.issuedAt.lookup id with
  | some row, some issued =>
    ({ rows := acc.1.rows.erase id, issuedAt := acc.1.issuedAt.erase id },
      acc.2 ++ [(id, row, issued)])
  -- `expect` never fails: the row was selected and its metadata validated.
  | _, _ => acc

def restoreRow {R : Type} (t : Rows R) (entry : String × R × Nat) : Rows R :=
  { issuedAt := t.issuedAt.insert entry.1 entry.2.2, rows := t.rows.insert entry.1 entry.2.1 }

def PushStore.ofRows (regs : Rows PushAuthenticatorRecord) (logins : Rows PushLoginChallenge) :
    PushStore :=
  { authenticators := regs.rows
    logins := logins.rows
    registrationIssuedAt := regs.issuedAt
    loginIssuedAt := logins.issuedAt }

def PushStore.registrationRows (s : PushStore) : Rows PushAuthenticatorRecord :=
  { rows := s.authenticators, issuedAt := s.registrationIssuedAt }

def PushStore.loginRows (s : PushStore) : Rows PushLoginChallenge :=
  { rows := s.logins, issuedAt := s.loginIssuedAt }

def cleanupExpiredPushRecords (now limit : Nat) : QidResult Nat × PushStore :=
  match cleanupCutoff now limit with
  | .error e => (.error e, s)
  | .ok cutoff =>
    match validateRows s with
    | .error e => (.error e, s)
    | .ok () =>
      let regs := selectOldest (expiredRegistrations s now cutoff) limit
      let remaining := limit - regs.length
      let logins := if remaining = 0 then [] else selectOldest (expiredLogins s cutoff) remaining
      let deleted := regs.length + logins.length
      if deleted = 0 then
        (.ok 0, s)
      else
        let r := regs.foldl removeRow (s.registrationRows, [])
        let l := logins.foldl removeRow (s.loginRows, [])
        match pushPersist persist with
        | .ok () => (.ok deleted, PushStore.ofRows r.1 l.1)
        | .error e =>
          (.error e, PushStore.ofRows (r.2.foldl restoreRow r.1) (l.2.foldl restoreRow l.1))

end Qid.Push
