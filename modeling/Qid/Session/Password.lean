/-
Password login.

A translation of `Authenticator::authenticate_password` of `qid-session/src/auth.rs`. Verifying
passwords is a field of the authenticator. What a run reads from the clock, and what the failure
budget of the realm answers, are part of the run. The failure counter is a `u32` and times are
`u64`; both wrap around, as in a release build.
-/
import Qid.Session.Store

namespace Qid.Session

open Lib Lib.Handler Storage

/-- As its validated configuration states it. -/
structure PasswordPolicy where
  maxFailedAttempts : Nat
  lockoutDurationSeconds : Nat
  attempts_pos : 0 < maxFailedAttempts
  attempts_lt : maxFailedAttempts < 2 ^ 32
  duration_pos : 0 < lockoutDurationSeconds

/-- `verify` says whether the password is right and whether its hash is outdated. -/
structure PasswordCredentials where
  verify : String → PasswordCredential → Bool × Bool
  hash : String → QidResult String
  hash_error : ∀ plaintext e, hash plaintext = .error e → e = .internal "password hashing failed"

structure Authenticator where
  policy : PasswordPolicy
  credentials : Option PasswordCredentials

def argon2idAlgorithm : String := "argon2id"

structure AuthResult where
  user : Models.User
  acr : String
  amr : List String
  sessionId : Option String
  deriving DecidableEq

structure LoginRun where
  realmId : String
  email : String
  password : String
  /-- What `failure_budget.exhausted` answers. -/
  budgetSpent : Bool
  now : Nat
  deriving DecidableEq

def getUserByEmail (realmId email : String) : Login (Option Models.User) :=
  Program.call (.getUserByEmail realmId email) Program.ret

def updateUser (user : Models.User) (realm : Option String) : Login Unit :=
  Program.call (.updateUser user realm) Program.ret

def getPasswordCredential (userId : String) : Login (Option PasswordCredential) :=
  Program.call (.getPasswordCredential userId) Program.ret

def updatePasswordCredentialInRealm (cred : PasswordCredential) (realm : String) : Login Unit :=
  Program.call (.updatePasswordCredentialInRealm cred realm) Program.ret

def cleared (user : Models.User) : Models.User :=
  { user with failedLoginAttempts := 0, lockedUntil := none }

def PasswordPolicy.failed (policy : PasswordPolicy) (now : Nat) (user : Models.User) :
    Models.User :=
  let attempts := (user.failedLoginAttempts + 1) % 2 ^ 32
  { user with
    failedLoginAttempts := attempts
    lockedUntil :=
      if policy.maxFailedAttempts ≤ attempts then
        some ((now + policy.lockoutDurationSeconds) % 2 ^ 64)
      else user.lockedUntil }

def PasswordCredentials.check (credentials : PasswordCredentials) (password : String)
    (found : Option PasswordCredential) : Option Bool :=
  found.bind fun cred =>
    let (valid, rehashRequired) := credentials.verify password cred
    if valid then some rehashRequired else none

section

variable (a : Authenticator) (credentials : PasswordCredentials) (q : LoginRun) (user : Models.User)

/-- A lock that is over is removed from the stored record. The copy of the caller keeps
it. -/
def releaseLock : Login Unit :=
  match user.lockedUntil with
  | none => pure ()
  | some lockedUntil => do
    check (ensure (lockedUntil ≤ q.now) (.tooManyRequests "account is temporarily locked"))
    updateUser (cleared user) (some q.realmId)

def recordFailedAttempt : Login Unit := updateUser (a.policy.failed q.now user) (some q.realmId)

def refusePassword : Login AuthResult := do
  recordFailedAttempt a q user
  check (.error (.unauthorized "invalid credentials"))

def rehashPassword : Bool → Login Unit
  | false => pure ()
  | true => do
    let hash ← check (credentials.hash q.password)
    updatePasswordCredentialInRealm
      { userId := user.id, hash := hash, algorithm := argon2idAlgorithm } q.realmId

def clearFailures : Login Unit :=
  if 0 < user.failedLoginAttempts ∨ user.lockedUntil.isSome then
    updateUser (cleared user) (some q.realmId)
  else pure ()

def acceptPassword (rehashRequired : Bool) : Login AuthResult := do
  rehashPassword credentials q user rehashRequired
  clearFailures q user
  return { user := user, acr := "urn:qid:acr:password", amr := ["pwd"], sessionId := none }

def concludeLogin : Option Bool → Login AuthResult
  | some rehashRequired => acceptPassword credentials q user rehashRequired
  | none => refusePassword a q user

def verifyPassword : Login AuthResult := do
  let found ← getPasswordCredential user.id
  concludeLogin a credentials q user (credentials.check q.password found)

def authenticatePassword : Login AuthResult := do
  let credentials ← check (okOr a.credentials
    (.config "configured password pepper requires a resolved credential context"))
  check (ensure (q.budgetSpent = false)
    (.attemptBudgetSpent "too many failed password attempts for this realm"))
  let found ← getUserByEmail q.realmId q.email
  let user ← check (okOr found (.unauthorized "invalid credentials"))
  releaseLock q user
  verifyPassword a credentials q user

def Call.ofLogin : Call → Bool
  | .getUserByEmail _ _ | .updateUser _ _ | .getPasswordCredential _
  | .updatePasswordCredentialInRealm _ _ => true
  | _ => false

theorem makes_releaseLock : Program.Makes (fun c => c.ofLogin = true) (releaseLock q user) := by
  rw [releaseLock]
  cases user.lockedUntil with
  | none => exact trivial
  | some => exact makes_check_bind fun _ => ⟨rfl, fun _ => trivial⟩

theorem makes_verifyPassword :
    Program.Makes (fun c => c.ofLogin = true) (verifyPassword a credentials q user) := by
  refine makes_call_bind rfl fun found => ?_
  cases credentials.check q.password found with
  | none => exact makes_call_bind rfl fun _ => trivial
  | some rehashRequired =>
    refine makes_bind ?_ fun _ => makes_bind ?_ fun _ => trivial
    · cases rehashRequired with
      | false => exact trivial
      | true => exact makes_check_bind fun _ => ⟨rfl, fun _ => trivial⟩
    · rw [clearFailures]
      split
      · exact ⟨rfl, fun _ => trivial⟩
      · exact trivial

theorem makes_authenticatePassword :
    Program.Makes (fun c => c.ofLogin = true) (authenticatePassword a q) := by
  refine makes_check_bind fun credentials => ?_
  refine makes_check_bind fun _ => ?_
  refine makes_call_bind rfl fun found => ?_
  refine makes_check_bind fun user => ?_
  exact makes_bind (makes_releaseLock q user) fun _ =>
    makes_verifyPassword a credentials q user

end

/-! ## A login alone

What a run does to an account when nothing else writes the store and every save succeeds. -/

def alone {α : Type} (s : Store) (x : Login α) : QidResult α × Store :=
  Program.exec answer (fun _ => Env.saved) s x

def released (user : Models.User) : Models.User :=
  if user.lockedUntil.isSome then cleared user else user

theorem released_same (u : Models.User) :
    (released u).id = u.id ∧ (released u).realmId = u.realmId ∧ (released u).email = u.email := by
  rw [released]
  split <;> exact ⟨rfl, rfl, rfl⟩

/-- Its reply, and the record it leaves. -/
inductive LoginStep (a : Authenticator) (credentials : PasswordCredentials) (q : LoginRun)
    (s : Store) (u : Models.User) : QidResult AuthResult → Models.User → Prop
  | locked {t : Nat} (hlocked : u.lockedUntil = some t) (ht : q.now < t) :
      LoginStep a credentials q s u (.error (.tooManyRequests "account is temporarily locked")) u
  | wrong (hfree : ∀ t, u.lockedUntil = some t → t ≤ q.now)
      (hcheck : credentials.check q.password (s.credentialsPassword.find u.id) = none) :
      LoginStep a credentials q s u (.error (.unauthorized "invalid credentials"))
        (a.policy.failed q.now u)
  | right (hfree : ∀ t, u.lockedUntil = some t → t ≤ q.now) (r : AuthResult) :
      LoginStep a credentials q s u (.ok r) (cleared u)
  | unhashed (hfree : ∀ t, u.lockedUntil = some t → t ≤ q.now) :
      LoginStep a credentials q s u (.error (.internal "password hashing failed")) (released u)

variable {credentials : PasswordCredentials} {r : QidResult AuthResult} {a : Authenticator}
  {q : LoginRun}

theorem LoginStep.realmId_eq {s : Store} {u v : Models.User}
    (h : LoginStep a credentials q s u r v) : v.realmId = u.realmId := by
  cases h with
  | locked hlocked ht | wrong hfree hcheck | right hfree r => rfl
  | unhashed => exact (released_same u).2.1

section

variable {credentials : PasswordCredentials} {s : Store} {email : String} {u v : Models.User}

theorem alone_updateUser (h : s.Account email u) (hrealm : u.realmId = q.realmId)
    (hid : v.id = u.id) (hrealm' : v.realmId = u.realmId) (hemail : v.email = u.email) :
    alone s (updateUser v (some q.realmId)) = (.ok (), { s with users := s.users.put v }) := by
  rw [← hrealm]
  exact h.updateUser .done hid hrealm' hemail

theorem alone_check {α : Type} (x : QidResult α) : alone s (check x) = (x, s) := rfl

/-- A lock that is over leaves the stored record, and only that. -/
theorem alone_releaseLock_free (h : s.Account email u) (hrealm : u.realmId = q.realmId)
    (hfree : ∀ t, u.lockedUntil = some t → t ≤ q.now) :
    ∃ s', alone s (releaseLock q u) = (.ok (), s') ∧ s'.Account email (released u) ∧
      s'.credentialsPassword = s.credentialsPassword := by
  rw [releaseLock, released]
  cases hlocked : u.lockedUntil with
  | none => exact ⟨s, rfl, h, rfl⟩
  | some t =>
    have hover : alone s (check (ensure (t ≤ q.now)
        (.tooManyRequests "account is temporarily locked"))) = (.ok (), s) := by
      rw [alone_check, ensure_eq_ok.mpr (hfree t hlocked)]
    have hrelease := alone_updateUser (v := cleared u) h hrealm rfl rfl rfl
    exact ⟨_, (exec_bind_ok hover).trans hrelease, h.put rfl rfl rfl, rfl⟩

variable (credentials) in
/-- The hash of a right password is replaced if it is outdated; the user stays as it is. -/
theorem alone_rehashPassword (h : s.Account email v) (hrealm : v.realmId = q.realmId)
    (hid : v.id = u.id) (hcred : s.credentialsPassword.find u.id ≠ none) (rehashRequired : Bool) :
    (∃ s', alone s (rehashPassword credentials q u rehashRequired) = (.ok (), s') ∧
        s'.Account email v) ∨
      alone s (rehashPassword credentials q u rehashRequired) =
        (.error (.internal "password hashing failed"), s) := by
  cases rehashRequired with
  | false => exact Or.inl ⟨s, rfl, h⟩
  | true =>
    rw [rehashPassword]
    cases hhash : credentials.hash q.password with
    | error e =>
      rw [credentials.hash_error _ e hhash]
      exact Or.inr rfl
    | ok hash =>
      have hwrite : s.updatePasswordCredentialInRealm .done
          { userId := u.id, hash := hash, algorithm := argon2idAlgorithm } q.realmId =
            (.ok (), { s with
              credentialsPassword := s.credentialsPassword.put
                { userId := u.id, hash := hash, algorithm := argon2idAlgorithm } }) := by
        rw [Store.updatePasswordCredentialInRealm, ← hid, h.stored, hid, if_neg]
        · rfl
        · simp [hrealm, hcred]
      exact Or.inl ⟨_, (exec_bind_ok (alone_check _)).trans hwrite, h.stored, h.named, h.only⟩

theorem alone_clearFailures (h : s.Account email (released u)) (hrealm : u.realmId = q.realmId) :
    ∃ s', alone s (clearFailures q u) = (.ok (), s') ∧ s'.Account email (cleared u) := by
  obtain ⟨hid, hsame, hemail⟩ := released_same u
  rw [clearFailures]
  split_ifs with hc
  · refine ⟨_, alone_updateUser h (hsame.trans hrealm) hid.symm hsame.symm hemail.symm, ?_⟩
    exact h.put hid.symm hsame.symm hemail.symm
  · have hnone : u.lockedUntil = none := by
      rw [← Option.not_isSome_iff_eq_none]
      exact fun hsome => hc (Or.inr hsome)
    have hzero : u.failedLoginAttempts = 0 := by omega
    have hsame : released u = cleared u := by
      obtain ⟨⟩ := u
      cases hzero
      cases hnone
      rfl
    exact ⟨s, rfl, hsame ▸ h⟩

variable (a credentials) in
theorem alone_verifyPassword (h : s.Account email (released u)) (hrealm : u.realmId = q.realmId)
    (hfree : ∀ t, u.lockedUntil = some t → t ≤ q.now) :
    ∃ r s' v, alone s (verifyPassword a credentials q u) = (r, s') ∧ s'.Account email v ∧
      LoginStep a credentials q s u r v := by
  obtain ⟨hid, hsame, hemail⟩ := released_same u
  have hread : alone s (getPasswordCredential u.id) =
    (.ok (s.credentialsPassword.find u.id), s) := rfl
  cases hcheck : credentials.check q.password (s.credentialsPassword.find u.id) with
  | none =>
    have hwrite := alone_updateUser (v := a.policy.failed q.now u) h (hsame.trans hrealm)
      hid.symm hsame.symm hemail.symm
    refine ⟨_, _, _, (exec_bind_ok hread).trans ?_,
      h.put (v := a.policy.failed q.now u) hid.symm hsame.symm hemail.symm, .wrong hfree hcheck⟩
    rw [hcheck]
    exact exec_bind_ok hwrite
  | some rehashRequired =>
    have hstored : s.credentialsPassword.find u.id ≠ none := by
      intro hnone
      rw [hnone] at hcheck
      cases hcheck
    rcases alone_rehashPassword credentials h (hsame.trans hrealm) hid hstored rehashRequired with
      ⟨s₁, hs₁, h₁⟩ | hfail
    · obtain ⟨s', hs', hacc⟩ := alone_clearFailures h₁ hrealm
      obtain ⟨r, haccept⟩ : ∃ r, alone s (acceptPassword credentials q u rehashRequired) =
          (.ok r, s') := ⟨_, (exec_bind_ok hs₁).trans (exec_bind_ok hs')⟩
      refine ⟨_, s', _, (exec_bind_ok hread).trans ?_, hacc, .right hfree r⟩
      rw [hcheck]
      exact haccept
    · refine ⟨_, s, _, (exec_bind_ok hread).trans ?_, h, .unhashed hfree⟩
      rw [hcheck]
      exact exec_bind_error hfail

theorem alone_authenticatePassword (hcred : a.credentials = some credentials)
    (hbudget : q.budgetSpent = false) (h : s.Account q.email u) (hrealm : u.realmId = q.realmId) :
    ∃ r s' v, alone s (authenticatePassword a q) = (r, s') ∧ s'.Account q.email v ∧
      LoginStep a credentials q s u r v := by
  have hfound : alone s (getUserByEmail q.realmId q.email) = (.ok (some u), s) := by
    show (s.getUserByEmail q.realmId q.email, s) = _
    rw [Store.getUserByEmail_eq_some.mpr ⟨h, hrealm⟩]
  have hstart : alone s (authenticatePassword a q) = alone s (do
      releaseLock q u
      verifyPassword a credentials q u) := by
    rw [authenticatePassword, hcred, hbudget]
    exact exec_bind_ok hfound
  rw [hstart]
  by_cases hlock : ∃ t, u.lockedUntil = some t ∧ q.now < t
  · obtain ⟨t, hlocked, ht⟩ := hlock
    refine ⟨_, s, u, exec_bind_error ?_, h, .locked hlocked ht⟩
    rw [releaseLock, hlocked]
    refine exec_bind_error ((alone_check _).trans ?_)
    rw [ensure, if_neg (Nat.not_le_of_lt ht)]
  · have hfree : ∀ t, u.lockedUntil = some t → t ≤ q.now := by
      intro t ht
      by_contra hlt
      exact hlock ⟨t, ht, Nat.lt_of_not_le hlt⟩
    obtain ⟨s₁, hs₁, h₁, hpasswords⟩ := alone_releaseLock_free h hrealm hfree
    obtain ⟨r, s', v, hs', hacc, hstep⟩ := alone_verifyPassword a credentials h₁ hrealm hfree
    refine ⟨r, s', v, (exec_bind_ok hs₁).trans hs', hacc, ?_⟩
    cases hstep with
    | locked hlocked ht => exact .locked hlocked ht
    | wrong hfree hcheck => exact .wrong hfree (hpasswords ▸ hcheck)
    | right hfree r => exact .right hfree r
    | unhashed hfree => exact .unhashed hfree

end

/-! ## One account

Three failures lock the account for ten seconds. -/

def sampleCredentials : PasswordCredentials where
  verify password cred := (password == cred.hash, false)
  hash password := .ok password
  hash_error _ _ h := by cases h

def sampleAuthenticator : Authenticator where
  policy :=
    { maxFailedAttempts := 3, lockoutDurationSeconds := 10
      attempts_pos := by decide, attempts_lt := by decide, duration_pos := by decide }
  credentials := some sampleCredentials

def sampleUser : Models.User :=
  { id := "u1", realmId := "main", email := some "alice@example", emailVerified := false
    displayName := none, failedLoginAttempts := 0, lockedUntil := none, org := none }

def sampleStore : Store where
  users := Table.empty.put sampleUser
  credentialsPassword :=
    Table.empty.put { userId := "u1", hash := "secret", algorithm := argon2idAlgorithm }
  totpCredentials := .empty
  sessions := .empty

def sampleLogin (now : Nat) (password : String) : LoginRun :=
  { realmId := "main", email := "alice@example", password := password, budgetSpent := false
    now := now }

end Qid.Session
