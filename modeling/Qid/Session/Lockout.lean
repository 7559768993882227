/-
Account lockout.

The policy is a statement about the history of an account: `Streak` counts the wrong passwords since
the last right one and since the last lock was over.
-/
import Qid.Session.Password

namespace Qid.Session

open Lib Storage

inductive Outcome where
  | refused
  | wrong
  | right
  | other
  deriving DecidableEq

structure Attempt where
  time : Nat
  outcome : Outcome
  deriving DecidableEq

/-- Wrong passwords before `since` do not count: a lock was set, and it is over at `since`. -/
structure Streak where
  count : Nat
  since : Nat
  deriving DecidableEq

section

variable (policy : PasswordPolicy)

def Streak.next (k : Streak) (x : Attempt) : Streak :=
  match x.outcome with
  | .right => { k with count := 0 }
  | .wrong =>
    if x.time < k.since then k
    else if k.count + 1 = policy.maxFailedAttempts then
      { count := 0, since := x.time + policy.lockoutDurationSeconds }
    else { k with count := k.count + 1 }
  | _ => k

variable (h : List Attempt)

def streak : Streak := h.foldl (Streak.next policy) { count := 0, since := 0 }

/-- The attempt is the last wrong password in a row that the policy allows. -/
def Locks (x : Attempt) : Prop :=
  x.outcome = .wrong ∧ (streak policy h).since ≤ x.time ∧
    (streak policy h).count + 1 = policy.maxFailedAttempts

def LockedAt (t : Nat) : Prop :=
  ∃ earlier x later, h = earlier ++ x :: later ∧ Locks policy earlier x ∧ x.time ≤ t ∧
    t < x.time + policy.lockoutDurationSeconds

variable {policy} {h : List Attempt} {x : Attempt} {t : Nat}

theorem streak_append_singleton : streak policy (h ++ [x]) = (streak policy h).next policy x := by
  rw [streak, List.foldl_append]
  rfl

theorem streak_of_locks (hx : Locks policy h x) :
    streak policy (h ++ [x]) = { count := 0, since := x.time + policy.lockoutDurationSeconds } := by
  obtain ⟨houtcome, hsince, hcount⟩ := hx
  rw [streak_append_singleton, Streak.next, houtcome]
  simp [Nat.not_lt.mpr hsince, hcount]

theorem since_of_not_locks (hx : ¬ Locks policy h x) :
    (streak policy (h ++ [x])).since = (streak policy h).since := by
  rw [streak_append_singleton, Streak.next]
  cases houtcome : x.outcome with
  | refused | right | other => rfl
  | wrong =>
    by_cases hsince : x.time < (streak policy h).since
    · simp only [hsince, if_true]
    · have hcount : ¬ (streak policy h).count + 1 = policy.maxFailedAttempts :=
        fun hcount => hx ⟨houtcome, Nat.le_of_not_lt hsince, hcount⟩
      simp only [hsince, hcount, if_false]

theorem lockedAt_append_singleton :
    LockedAt policy (h ++ [x]) t ↔ LockedAt policy h t ∨
      (Locks policy h x ∧ x.time ≤ t ∧ t < x.time + policy.lockoutDurationSeconds) := by
  constructor
  · intro hlocked
    obtain ⟨earlier, y, later, heq, hy⟩ := hlocked
    rcases List.eq_nil_or_concat' later with rfl | ⟨later', z, rfl⟩
    · obtain ⟨rfl, hxy⟩ := List.append_inj' heq rfl
      cases hxy
      exact Or.inr hy
    · rw [← List.cons_append, ← List.append_assoc] at heq
      obtain ⟨rfl, -⟩ := List.append_inj' heq rfl
      exact Or.inl ⟨earlier, y, later', rfl, hy⟩
  · intro hlocked
    rcases hlocked with ⟨earlier, y, later, rfl, hy⟩ | hx
    · exact ⟨earlier, y, later ++ [x], by rw [List.append_assoc, List.cons_append], hy⟩
    · exact ⟨h, x, [], rfl, hx⟩

/-- After attempts that are all in the past, the account is locked until `since`. -/
theorem lockedAt_iff (hpast : ∀ y ∈ h, y.time ≤ t) :
    LockedAt policy h t ↔ t < (streak policy h).since := by
  induction h using List.reverseRecOn with
  | nil =>
    constructor
    · intro hlocked
      obtain ⟨earlier, y, later, heq, -⟩ := hlocked
      cases earlier <;> cases heq
    · intro ht
      exact absurd ht (Nat.not_lt_zero t)
  | append_singleton h x ih =>
    have hx : x.time ≤ t := hpast x (List.mem_append_right h List.mem_cons_self)
    have ih := ih fun y hy => hpast y (List.mem_append_left _ hy)
    rw [lockedAt_append_singleton, ih]
    by_cases hlocks : Locks policy h x
    · rw [streak_of_locks hlocks]
      have hsince := hlocks.2.1
      constructor
      · intro hlocked
        rcases hlocked with hold | hnew
        · omega
        · exact hnew.2.2
      · intro ht
        exact Or.inr ⟨hlocks, hx, ht⟩
    · rw [since_of_not_locks hlocks]
      exact ⟨fun hlocked => hlocked.resolve_right fun hnew => hlocks hnew.1, Or.inl⟩

end

/-- With what befalls each of its calls of the repository. -/
structure LoginCall where
  run : LoginRun
  envs : Nat → Env

def login (a : Authenticator) (s : Store) (k : LoginCall) : QidResult AuthResult × Store :=
  Program.exec answer k.envs s (authenticatePassword a k.run)

def outcome : QidResult AuthResult → Outcome
  | .ok _ => .right
  | .error (.tooManyRequests _) => .refused
  | .error (.unauthorized _) => .wrong
  | .error _ => .other

variable (e : Event Store LoginCall (QidResult AuthResult))

def attempt : Attempt := { time := e.call.run.now, outcome := outcome e.reply }

def Refused : Prop := e.reply = .error (.tooManyRequests "account is temporarily locked")

/-- Calls refuse a login as locked exactly when the policy locks the account. -/
def FollowsPolicy (a : Authenticator) (s : Store) (calls : List LoginCall) : Prop :=
  ∀ earlier e later, run (login a) s calls = earlier ++ e :: later →
    (Refused e ↔ LockedAt a.policy (earlier.map attempt) e.call.run.now)

/-- One after the other, on one account that has just been created, with a clock that does not run
backwards and a budget that is not spent. -/
structure Sequential (s : Store) (realmId email : String) (calls : List LoginCall) : Prop where
  created : ∃ u, s.getUserByEmail realmId email = .ok (some u) ∧ u.failedLoginAttempts = 0 ∧
    u.lockedUntil = none
  account : ∀ k ∈ calls, k.run.realmId = realmId ∧ k.run.email = email
  budget : ∀ k ∈ calls, k.run.budgetSpent = false
  clock : calls.Pairwise fun k l => k.run.now ≤ l.run.now

def LoginRun.reads (q : LoginRun) (s : Store) : Option Models.User :=
  (s.getUserByEmail q.realmId q.email).toOption.join

/-- A wrong password for a record that holds a lock which is over. -/
def MeetsOldLock (credentials : PasswordCredentials) (s : Store) (q : LoginRun)
    (u : Models.User) : Prop :=
  (∃ t ∈ u.lockedUntil, t ≤ q.now) ∧
    credentials.check q.password (s.credentialsPassword.find u.id) = none

instance (credentials : PasswordCredentials) (s : Store) (q : LoginRun) (u : Models.User) :
    Decidable (MeetsOldLock credentials s q u) := inferInstanceAs (Decidable (_ ∧ _))

/-- No wrong password meets a lock that is over, unless a single failure locks anyway; the sums do
not overflow and the saves succeed. -/
structure Orderly (a : Authenticator) (credentials : PasswordCredentials) (s : Store)
    (k : LoginCall) : Prop where
  saved : ∀ n, (k.envs n).persist = .done
  time_fits : k.run.now + a.policy.lockoutDurationSeconds < 2 ^ 64
  count_fits : ∀ u ∈ k.run.reads s, u.failedLoginAttempts + 1 < 2 ^ 32
  fresh : ∀ u ∈ k.run.reads s, a.policy.maxFailedAttempts = 1 ∨ ¬ MeetsOldLock credentials s k.run u

structure Agrees (policy : PasswordPolicy) (h : List Attempt) (u : Models.User) : Prop where
  locked : ∀ t, u.lockedUntil = some t → t = (streak policy h).since ∧ (streak policy h).count = 0
  free : u.lockedUntil = none → u.failedLoginAttempts = (streak policy h).count ∧
    (streak policy h).count < policy.maxFailedAttempts ∧
    ∀ t, (∀ x ∈ h, x.time ≤ t) → (streak policy h).since ≤ t

variable {a : Authenticator} {credentials : PasswordCredentials} {s : Store}

section

variable {q : LoginRun} {u v : Models.User} {r : QidResult AuthResult} {h : List Attempt}

theorem agrees_of_free (hv : v.lockedUntil = none) {h' : List Attempt} {x : Attempt}
    (hx : x ∈ h') (hcount : v.failedLoginAttempts = (streak a.policy h').count)
    (hlt : (streak a.policy h').count < a.policy.maxFailedAttempts)
    (hsince : (streak a.policy h').since ≤ x.time) : Agrees a.policy h' v := by
  refine ⟨fun t ht => ?_, fun _ => ⟨hcount, hlt, fun t ht => ?_⟩⟩
  · rw [hv] at ht
    cases ht
  · exact Nat.le_trans hsince (ht x hx)

variable (hu : Agrees a.policy h u) (hpast : ∀ x ∈ h, x.time ≤ q.now)
include hu hpast

/-- At a login that finds no lock in force, the policy has none in force either. -/
theorem Agrees.since_le (hfree : ∀ t, u.lockedUntil = some t → t ≤ q.now) :
    (streak a.policy h).since ≤ q.now := by
  cases hlocked : u.lockedUntil with
  | none => exact (hu.free hlocked).2.2 q.now hpast
  | some t =>
    rw [← (hu.locked t hlocked).1]
    exact hfree t hlocked

theorem refused_iff (hstep : LoginStep a credentials q s u r v) :
    r = .error (.tooManyRequests "account is temporarily locked") ↔ LockedAt a.policy h q.now := by
  rw [lockedAt_iff hpast]
  have hnot : ∀ {r' : QidResult AuthResult}, (∀ t, u.lockedUntil = some t → t ≤ q.now) →
      r' ≠ .error (.tooManyRequests "account is temporarily locked") →
      (r' = .error (.tooManyRequests "account is temporarily locked") ↔
        q.now < (streak a.policy h).since) := by
    intro r' hfree hr'
    have hsince := hu.since_le hpast hfree
    exact ⟨fun h => absurd h hr', fun h => absurd h (Nat.not_lt.mpr hsince)⟩
  cases hstep with
  | locked hlocked ht =>
    rw [← (hu.locked _ hlocked).1]
    exact ⟨fun _ => ht, fun _ => rfl⟩
  | wrong hfree => exact hnot hfree (by decide)
  | right hfree => exact hnot hfree (by simp)
  | unhashed hfree => exact hnot hfree (by decide)

/-- One more wrong password: the counter and the streak grow together. -/
theorem Agrees.wrong (hfree : ∀ t, u.lockedUntil = some t → t ≤ q.now)
    (htime : q.now + a.policy.lockoutDurationSeconds < 2 ^ 64)
    (hfits : u.failedLoginAttempts + 1 < 2 ^ 32)
    (hfresh : a.policy.maxFailedAttempts = 1 ∨ u.lockedUntil = none) :
    Agrees a.policy (h ++ [{ time := q.now, outcome := .wrong }]) (a.policy.failed q.now u) := by
  have hsince := hu.since_le hpast hfree
  have hattempts : (a.policy.failed q.now u).failedLoginAttempts = u.failedLoginAttempts + 1 :=
    Nat.mod_eq_of_lt hfits
  have huntil : (a.policy.failed q.now u).lockedUntil =
      if a.policy.maxFailedAttempts ≤ u.failedLoginAttempts + 1 then
        some (q.now + a.policy.lockoutDurationSeconds)
      else u.lockedUntil := by
    rw [PasswordPolicy.failed, Nat.mod_eq_of_lt hfits, Nat.mod_eq_of_lt htime]
  by_cases hlocks : Locks a.policy h { time := q.now, outcome := .wrong }
  · -- the streak is complete: both the policy and the record lock the account
    have hcount := hlocks.2.2
    have hreached : a.policy.maxFailedAttempts ≤ u.failedLoginAttempts + 1 := by
      cases hlocked : u.lockedUntil with
      | none =>
        have := (hu.free hlocked).1
        omega
      | some t =>
        have := (hu.locked t hlocked).2
        omega
    rw [if_pos hreached] at huntil
    refine ⟨fun t ht => ?_, fun hnone => ?_⟩
    · rw [huntil, Option.some.injEq] at ht
      rw [streak_of_locks hlocks]
      exact ⟨ht.symm, rfl⟩
    · rw [huntil] at hnone
      cases hnone
  · have hcount : ¬ (streak a.policy h).count + 1 = a.policy.maxFailedAttempts :=
      fun hcount => hlocks ⟨rfl, hsince, hcount⟩
    have hnone : u.lockedUntil = none := by
      cases hlocked : u.lockedUntil with
      | none => rfl
      | some t =>
        have hzero := (hu.locked t hlocked).2
        rcases hfresh with hone | hnone
        · omega
        · rw [hlocked] at hnone
          cases hnone
    obtain ⟨hfailed, hlt, -⟩ := hu.free hnone
    have hnext : streak a.policy (h ++ [{ time := q.now, outcome := .wrong }]) =
        { count := (streak a.policy h).count + 1, since := (streak a.policy h).since } := by
      rw [streak_append_singleton, Streak.next]
      simp only [Nat.not_lt.mpr hsince, hcount, if_false]
    rw [if_neg (by omega), hnone] at huntil
    refine agrees_of_free huntil (List.mem_append_right h List.mem_cons_self) ?_ ?_ ?_
    · rw [hnext, hattempts, hfailed]
    · rw [hnext]
      show (streak a.policy h).count + 1 < _
      omega
    · rw [hnext]
      exact hsince

theorem Agrees.login (htime : q.now + a.policy.lockoutDurationSeconds < 2 ^ 64)
    (hfits : u.failedLoginAttempts + 1 < 2 ^ 32)
    (hfresh : a.policy.maxFailedAttempts = 1 ∨ ¬ MeetsOldLock credentials s q u)
    (hstep : LoginStep a credentials q s u r v) :
    Agrees a.policy (h ++ [{ time := q.now, outcome := outcome r }]) v := by
  have hpos := a.policy.attempts_pos
  have hmem : ∀ {o : Outcome}, (⟨q.now, o⟩ : Attempt) ∈ h ++ [⟨q.now, o⟩] :=
    List.mem_append_right h List.mem_cons_self
  cases hstep with
  | locked hlocked =>
    have hsame : streak a.policy (h ++ [{ time := q.now, outcome := .refused }]) =
      streak a.policy h := streak_append_singleton
    refine ⟨fun t ht' => hsame ▸ hu.locked t ht', fun hnone => ?_⟩
    rw [hlocked] at hnone
    cases hnone
  | wrong hfree hcheck =>
    refine hu.wrong hpast hfree htime hfits (hfresh.imp_right fun hold => ?_)
    cases hlocked : u.lockedUntil with
    | none => rfl
    | some t => exact absurd ⟨⟨t, hlocked, hfree t hlocked⟩, hcheck⟩ hold
  | right hfree =>
    have hsame : streak a.policy (h ++ [{ time := q.now, outcome := .right }]) =
      { count := 0, since := (streak a.policy h).since } := streak_append_singleton
    refine agrees_of_free rfl hmem ?_ ?_ ?_
    · exact congrArg Streak.count hsame.symm
    · exact hsame ▸ hpos
    · exact hsame ▸ hu.since_le hpast hfree
  | unhashed hfree =>
    have hsame : streak a.policy (h ++ [{ time := q.now, outcome := .other }]) =
      streak a.policy h := streak_append_singleton
    have hsince := hsame ▸ hu.since_le hpast hfree
    show Agrees a.policy (h ++ [{ time := q.now, outcome := .other }]) _
    rw [released]
    cases hlocked : u.lockedUntil with
    | none =>
      obtain ⟨hfailed, hlt, -⟩ := hu.free hlocked
      exact agrees_of_free hlocked hmem (hsame ▸ hfailed) (hsame ▸ hlt) hsince
    | some t =>
      obtain ⟨-, hzero⟩ := hu.locked t hlocked
      refine agrees_of_free rfl hmem ?_ ?_ hsince
      · rw [hsame]
        exact hzero.symm
      · rw [hsame, hzero]
        exact hpos

end

theorem answer_congr {env env' : Env} (h : env.persist = env'.persist) (s : Store) {c : Call}
    (hc : c.ofLogin = true) : answer env s c = answer env' s c := by
  cases c with
  | getUserByEmail realmId email | getPasswordCredential userId => rfl
  | updateUser user realm => exact congrArg (s.updateUser · user realm) h
  | updatePasswordCredentialInRealm cred realm =>
    exact congrArg (s.updatePasswordCredentialInRealm · cred realm) h
  | _ => cases hc

variable {k : LoginCall} {realmId email : String} {ks ls : List LoginCall}

def Kept (policy : PasswordPolicy) (realmId email : String) (h : List Attempt) (s : Store) : Prop :=
  ∃ u, s.Account email u ∧ u.realmId = realmId ∧ Agrees policy h u

theorem Sequential.left (h : Sequential s realmId email (ks ++ ls)) :
    Sequential s realmId email ks where
  created := h.created
  account k hk := h.account k (List.mem_append_left ls hk)
  budget k hk := h.budget k (List.mem_append_left ls hk)
  clock := (List.pairwise_append.mp h.clock).1

section

variable (hcred : a.credentials = some credentials)
include hcred

/-- A login answers as the policy says, and leaves a record that agrees with it. -/
theorem Kept.login
    (hkept : Kept a.policy realmId email ((run (login a) s ks).map attempt) (final (login a) s ks))
    (hcalls : Sequential s realmId email (ks ++ k :: ls))
    (hk : Orderly a credentials (final (login a) s ks) k) :
    (Refused (eventOf (login a) (final (login a) s ks) k) ↔
      LockedAt a.policy ((run (login a) s ks).map attempt) k.run.now) ∧
    Kept a.policy realmId email ((run (login a) s (ks ++ [k])).map attempt)
      (final (login a) s (ks ++ [k])) := by
  obtain ⟨u, hu, hrealm, hagrees⟩ := hkept
  have hmem : k ∈ ks ++ k :: ls := List.mem_append_cons_self
  obtain ⟨rfl, rfl⟩ := hcalls.account k hmem
  have hpast : ∀ x ∈ (run (Session.login a) s ks).map attempt, x.time ≤ k.run.now := by
    intro x hx
    obtain ⟨e, he, rfl⟩ := List.mem_map.mp hx
    exact (List.pairwise_append.mp hcalls.clock).2.2 _ (call_mem_of_mem_run _ he) k
      List.mem_cons_self
  rw [run_append, final_append, List.map_append]
  generalize final (Session.login a) s ks = s, (run (Session.login a) s ks).map attempt = h at *
  have hfound : k.run.reads s = some u := by
    rw [LoginRun.reads, Store.getUserByEmail_eq_some.mpr ⟨hu, hrealm⟩]
    rfl
  obtain ⟨r, s', v, hs', hv, hstep⟩ :=
    alone_authenticatePassword hcred (hcalls.budget k hmem) hu hrealm
  have hlogin : Session.login a s k = (r, s') :=
    (Program.exec_congr (fun n s _ hc => answer_congr (hk.saved n) s hc)
      (makes_authenticatePassword a k.run) s).trans hs'
  have hnext := hagrees.login hpast hk.time_fits (hk.count_fits u hfound) (hk.fresh u hfound) hstep
  simp only [run_cons, run_nil, final_cons, List.map_cons, eventOf, hlogin]
  exact ⟨refused_iff hagrees hpast hstep, v, hv, hstep.realmId_eq.trans hrealm, hnext⟩

theorem kept_run (hcalls : Sequential s realmId email ks)
    (horderly : ∀ e ∈ run (login a) s ks, Orderly a credentials e.before e.call) :
    Kept a.policy realmId email ((run (login a) s ks).map attempt) (final (login a) s ks) := by
  induction ks using List.reverseRecOn with
  | nil =>
    obtain ⟨u, hu, hfailed, hlocked⟩ := hcalls.created
    obtain ⟨hacc, hrealm⟩ := Store.getUserByEmail_eq_some.mp hu
    refine ⟨u, hacc, hrealm, fun t ht => ?_,
      fun _ => ⟨hfailed, a.policy.attempts_pos, fun t _ => Nat.zero_le t⟩⟩
    rw [hlocked] at ht
    cases ht
  | append_singleton ks k ih =>
    rw [run_append, List.forall_mem_append] at horderly
    exact ((ih hcalls.left horderly.1).login hcred hcalls
      (horderly.2 _ (List.mem_singleton_self _))).2

end

/-- Lockout follows the policy in every run of logins in which no wrong password meets a lock
that is over. -/
theorem lockout_follows_policy {a : Authenticator} {credentials : PasswordCredentials}
    (hcred : a.credentials = some credentials) {s : Store} {realmId email : String}
    {calls : List LoginCall} (hcalls : Sequential s realmId email calls)
    (horderly : ∀ e ∈ run (login a) s calls, Orderly a credentials e.before e.call) :
    FollowsPolicy a s calls := by
  intro earlier e later hrun
  rw [hrun, List.forall_mem_append] at horderly
  obtain ⟨ks, k, ls, rfl, rfl, rfl, -⟩ := run_eq_append_cons (login a) hrun
  exact ((kept_run hcred hcalls.left horderly.1).login hcred hcalls
    (horderly.2 _ List.mem_cons_self)).1

def sampleCalls (logins : List (Nat × String)) : List LoginCall :=
  logins.map fun x => { run := sampleLogin x.1 x.2, envs := fun _ => Env.saved }

theorem sequential_sampleCalls {logins : List (Nat × String)}
    (hclock : logins.Pairwise fun x y => x.1 ≤ y.1) :
    Sequential sampleStore "main" "alice@example" (sampleCalls logins) := by
  refine ⟨⟨sampleUser, rfl, rfl, rfl⟩, ?_, ?_, ?_⟩
  · intro k hk
    obtain ⟨x, -, rfl⟩ := List.mem_map.mp hk
    exact ⟨rfl, rfl⟩
  · intro k hk
    obtain ⟨x, -, rfl⟩ := List.mem_map.mp hk
    rfl
  · rw [sampleCalls, List.pairwise_map]
    exact hclock

/-- The third failure locks the account, the right password is refused until the lock is over and
accepted then, and a failure after that counts as the first. -/
def lockedOnce : List LoginCall :=
  sampleCalls [(1, "guess"), (2, "guess"), (3, "guess"), (5, "secret"), (13, "secret"),
    (14, "guess")]

theorem orderly_lockedOnce : ∀ e ∈ run (login sampleAuthenticator) sampleStore lockedOnce,
    Orderly sampleAuthenticator sampleCredentials e.before e.call := by
  have hrecords : ∀ e ∈ run (login sampleAuthenticator) sampleStore lockedOnce,
      e.call.run.now + sampleAuthenticator.policy.lockoutDurationSeconds < 2 ^ 64 ∧
      (∀ u ∈ e.call.run.reads e.before, u.failedLoginAttempts + 1 < 2 ^ 32) ∧
      ∀ u ∈ e.call.run.reads e.before, sampleAuthenticator.policy.maxFailedAttempts = 1 ∨
        ¬ MeetsOldLock sampleCredentials e.before e.call.run u := by
    decide +kernel
  intro e he
  obtain ⟨htime, hcount, hfresh⟩ := hrecords e he
  obtain ⟨x, -, hx⟩ := List.mem_map.mp (call_mem_of_mem_run _ he)
  exact ⟨fun n => hx ▸ rfl, htime, hcount, hfresh⟩

theorem lockout_follows_policy_lockedOnce :
    Sequential sampleStore "main" "alice@example" lockedOnce ∧
      FollowsPolicy sampleAuthenticator sampleStore lockedOnce := by
  have hcalls : Sequential sampleStore "main" "alice@example" lockedOnce :=
    sequential_sampleCalls (by decide)
  exact ⟨hcalls, lockout_follows_policy rfl hcalls orderly_lockedOnce⟩

/-- The lock of the third failure is over at 13. The wrong password at 13 is the first after it, and
yet the right one at 14 is refused. -/
theorem lock_renewed_by_one_failure :
    Sequential sampleStore "main" "alice@example"
        (sampleCalls [(1, "guess"), (2, "guess"), (3, "guess"), (13, "guess"), (14, "secret")]) ∧
      ¬ FollowsPolicy sampleAuthenticator sampleStore
        (sampleCalls
          [(1, "guess"), (2, "guess"), (3, "guess"), (13, "guess"), (14, "secret")]) := by
  refine ⟨sequential_sampleCalls (by decide), fun hfollows => ?_⟩
  have hrun := run_append (login sampleAuthenticator) sampleStore
    (sampleCalls [(1, "guess"), (2, "guess"), (3, "guess"), (13, "guess")])
    (sampleCalls [(14, "secret")])
  have hlocked := (hfollows _ _ [] hrun).mp rfl
  rw [lockedAt_iff (by decide +kernel)] at hlocked
  exact absurd hlocked (by decide +kernel)

end Qid.Session
