/-
The trail of password logins.

What a run of the login endpoints shows of the logins of a user, and what stands behind the phase of
each.
-/
import Qid.Session.LoginProtocol

namespace Qid.Session

open Lib Lib.Service Storage

variable {u : Models.User} {i : Nat} {persist : Persist} {v : Models.User} {realm : Option String}
  {error e : QidError} {s : Store} {q : LoginRun} {ph : LoginPhase}

def readOf : Act → Option ((c : Call) × c.Answer) → Option (Nat × Models.User)
  | .advance i _, some ⟨.getUserByEmail _ _, .ok (some u)⟩ => some (i, u)
  | _, _ => none

def checkOf : Act → Option ((c : Call) × c.Answer) → Option (Nat × String)
  | .advance i _, some ⟨.getPasswordCredential id, .ok _⟩ => some (i, id)
  | _, _ => none

def writeOf : Act → Option ((c : Call) × c.Answer) → Option (Nat × String)
  | .advance i _, some ⟨.updateUser v _, _⟩ => some (i, v.id)
  | _, _ => none

def editOf : Act → Option Models.User
  | .outside (.updateUser v _) _ => some v
  | _ => none

variable (h : List StoreEvent)

def ReadBy (i : Nat) (u : Models.User) : Prop := ∃ e ∈ h, readOf e.call e.reply = some (i, u)

def CheckedBy (i : Nat) (id : String) : Prop := ∃ e ∈ h, checkOf e.call e.reply = some (i, id)

/-- The login of the user has ended with a wrong password. -/
def WrongLogin (w : Endpoint) (h : List StoreEvent) (id : String) (i : Nat) : Prop :=
  w.threads[i]? = some (.ret (.error (.unauthorized "invalid credentials"))) ∧ CheckedBy h i id

def NoSuccess (w : Endpoint) (id : String) : Prop :=
  ∀ (i : Nat) (r : AuthResult),
    w.threads[i]? = some (.ret (.ok (.authenticated r))) → r.user.id ≠ id

def Unlocked (s : Store) (id : String) : Prop := ∀ u ∈ s.users.find id, u.lockedUntil = none

instance (s : Store) (id : String) : Decidable (Unlocked s id) :=
  inferInstanceAs (Decidable (∀ u ∈ s.users.find id, u.lockedUntil = none))

def NoLock (s : Store) (h : List StoreEvent) (id : String) : Prop :=
  Unlocked s id ∧ ∀ e ∈ h, Unlocked e.after id

def Saved : Act → Prop
  | .arrive _ => True
  | .advance _ env | .outside _ env => env.persist = .done

instance : DecidablePred Saved
  | .arrive _ => isTrue trivial
  | .advance _ env | .outside _ env => inferInstanceAs (Decidable (env.persist = .done))

/-- Updates from elsewhere change other fields of the user. -/
def EditsOtherFields (id : String) : Prop :=
  ∀ e ∈ h, ∀ v ∈ editOf e.call, v.id = id → ∀ u ∈ e.before.users.find id,
    v.failedLoginAttempts = u.failedLoginAttempts ∧ v.lockedUntil = u.lockedUntil

/-- The stored record is the copy, or the copy without a lock that was over. -/
def IsCurrent (s : Store) (u : Models.User) : Prop :=
  s.users.find u.id = some u ∨ u.lockedUntil ≠ none ∧ s.users.find u.id = some (cleared u)

instance (s : Store) (u : Models.User) : Decidable (IsCurrent s u) :=
  inferInstanceAs (Decidable (_ ∨ _ ∧ _))

/-- A login that writes the user finds the record it has read. -/
def Undisturbed (id : String) : Prop :=
  ∀ e ∈ h, ∀ i u, writeOf e.call e.reply = some (i, id) → ReadBy h i u → IsCurrent e.before u

structure Regular (h : List StoreEvent) (id : String) : Prop where
  saved : ∀ e ∈ h, Saved e.call
  edits : EditsOtherFields h id
  undisturbed : Undisturbed h id

variable {h : List StoreEvent} {id : String}

section

variable {e : StoreEvent}

theorem ReadBy.mono (hr : ReadBy h i u) : ReadBy (h ++ [e]) i u := by
  obtain ⟨e', he', hread⟩ := hr
  exact ⟨e', List.mem_append_left _ he', hread⟩

theorem NoLock.of_append (hl : NoLock s (h ++ [e]) id) : NoLock s h id :=
  ⟨hl.1, fun e' he' => hl.2 e' (List.mem_append_left _ he')⟩

theorem NoLock.last (hl : NoLock s (h ++ [e]) id) : Unlocked e.after id :=
  hl.2 e (List.mem_append_right h List.mem_cons_self)

theorem Regular.of_append (ho : Regular (h ++ [e]) id) : Regular h id := by
  refine ⟨fun e' he' => ho.saved e' (List.mem_append_left _ he'), ?_, ?_⟩
  · intro e' he'
    exact ho.edits e' (List.mem_append_left _ he')
  · intro e' he' i u hwrite hread
    exact ho.undisturbed e' (List.mem_append_left _ he') i u hwrite hread.mono

end

section

variable {a : Authenticator} {q : LoginRun} {c : Call}

theorem write_of_copy (hcall : LoginCalls a q ph (.updateUser v realm)) :
    ∃ u n t, ph.copy = some u ∧ v = { u with failedLoginAttempts := n, lockedUntil := t } := by
  cases hcall with
  | _ => exact ⟨_, _, _, rfl, rfl⟩

variable (a q) in
theorem copy_afterCheck (u : Models.User) (found : Option PasswordCredential) :
    (afterCheck a q u found).copy = some u := by
  rw [afterCheck]
  split <;> rfl

variable (a q) in
theorem checked_afterCheck (u : Models.User) (found : Option PasswordCredential) :
    (afterCheck a q u found).checked = some u.id := by
  rw [afterCheck]
  split <;> rfl

variable {r : c.Answer} {ph' : LoginPhase}

theorem copy_of_move (hmove : LoginMove a q ph c r ph') (hph : ph ≠ .start)
    (hcopy : ph'.copy = some u) : ph.copy = some u := by
  cases hmove with
  | read => exact absurd rfl hph
  | release => exact hcopy
  | @check ph u' hfound found =>
    rw [copy_afterCheck] at hcopy
    rcases hfound with rfl | rfl <;> exact hcopy
  | rehash => exact hcopy
  | _ => cases hcopy

theorem checked_of_move (hmove : LoginMove a q ph c r ph') (hchecked : ph.checked = some id) :
    ph'.checked = some id := by
  cases hmove with
  | read u | release u => cases hchecked
  | @check ph u hfound found => rcases hfound with rfl | rfl <;> cases hchecked
  | refuse hph =>
    rw [hph] at hchecked
    cases hchecked
  | _ => exact hchecked

/-- A failure is stored for the user whose password was wrong. -/
theorem wrong_of_move (hmove : LoginMove a q ph c r (.recorded u)) : ph = .wrong u := by
  generalize hph' : LoginPhase.recorded u = ph' at hmove
  cases hmove with
  | record =>
    cases hph'
    rfl
  | @check ph u' hfound found =>
    have hcopy := copy_afterCheck a q u' found
    rw [← hph'] at hcopy
    cases hcopy
  | _ => cases hph'

end

theorem persist_error (he : persist.result = .error e) (message : String) :
    e ≠ .unauthorized message := by
  cases persist with
  | done => cases he
  | unserializable =>
    cases he
    exact QidError.noConfusion
  | failed fault =>
    cases he
    cases fault <;> exact QidError.noConfusion

theorem updateUser_error (he : (s.updateUser persist v realm).1 = .error e) (message : String) :
    e ≠ .unauthorized message := by
  rcases s.updateUser_cases persist v realm with ⟨e', hrefused, hne⟩ | hwrite
  · rw [hrefused] at he
    cases he
    exact hne message
  · rw [hwrite] at he
    exact persist_error he message

theorem broken_next {a : Authenticator} {c : Call} {env : Env} (hcall : LoginCalls a q ph c)
    (hnext : .broken u error = loginNext a q ph c (answer env s c).1) (message : String) :
    error ≠ .unauthorized message := by
  have hmove := loginMove hcall (answer env s c).1
  rw [← hnext] at hmove
  generalize hr : (answer env s c).1 = r at hmove
  generalize hph' : LoginPhase.broken u error = ph' at hmove
  cases hmove with
  | notRecorded u' e | notCleared u' e =>
    cases hph'
    exact updateUser_error hr message
  | notRehashed =>
    cases hph'
    change (s.updatePasswordCredentialInRealm _ _ _).1 = _ at hr
    rw [Store.updatePasswordCredentialInRealm] at hr
    split at hr
    · cases hr
      exact QidError.noConfusion
    · exact persist_error hr message
  | @check ph u' hfound found =>
    have hcopy := copy_afterCheck a q u' found
    rw [← hph'] at hcopy
    cases hcopy
  | _ => cases hph'

variable (st : SharedState) (s : Store) (id : String) (u₀ : Models.User)

structure HeldCopy (h : List StoreEvent) (i : Nat) (q : LoginRun) (u : Models.User) : Prop where
  read : ReadBy h i u
  realm : u.realmId = q.realmId
  unlocked : NoLock s h id → u.id = id → u.lockedUntil = none
  account : u.id = id → u.realmId = u₀.realmId

structure LoginTrail (h : List StoreEvent) (m : Served Store Request LoginPhase) : Prop where
  stored : ∃ u, m.shared.users.find id = some u ∧ u.realmId = u₀.realmId
  current : NoLock s h id → Unlocked m.shared id
  copies : ∀ (i : Nat) (q : LoginRun) (ph : LoginPhase) (u : Models.User),
    m.jobs[i]? = some (.login q, ph) → ph.copy = some u → HeldCopy s id u₀ h i q u
  checked : ∀ (i : Nat) (id' : String), CheckedBy h i id' →
    ∃ q ph, m.jobs[i]? = some (.login q, ph) ∧ ph.checked = some id'
  broken : ∀ (i : Nat) (q : LoginRun) (u : Models.User) (e : QidError),
    m.jobs[i]? = some (.login q, .broken u e) → ∀ message, e ≠ .unauthorized message

variable {st s id u₀} {m m' : Served Store Request LoginPhase} {e : StoreEvent}

theorem HeldCopy.mono (hu : HeldCopy s id u₀ h i q u) (e : StoreEvent) :
    HeldCopy s id u₀ (h ++ [e]) i q u :=
  ⟨hu.read.mono, hu.realm, fun hl => hu.unlocked hl.of_append, hu.account⟩

theorem LoginTrail.stored_moved (hm : LoginTrail s id u₀ h m)
    (hmoved : Moved (loginProtocol st) loginStart answer m e m') :
    ∃ u, m'.shared.users.find id = some u ∧ u.realmId = u₀.realmId := by
  obtain ⟨u, hu, hrealm⟩ := hm.stored
  have hanswer : ∀ env c, ∃ u, (answer env m.shared c).2.users.find id = some u ∧
      u.realmId = u₀.realmId := by
    intro env c
    rcases find_answer env hu c with hsame | ⟨v, realm, -, -, -, hwrite⟩
    · exact ⟨u, hsame, hrealm⟩
    · exact ⟨_, hwrite, hrealm⟩
  cases hmoved with
  | arrive q | idle i env => exact ⟨u, hu, hrealm⟩
  | outside c env | advance i env q ph c => exact hanswer env c

variable (hm : LoginTrail s id u₀ h m) (hmoved : Moved (loginProtocol st) loginStart answer m e m')
include hm hmoved

theorem LoginTrail.copies_moved (hjob : m'.jobs[i]? = some (.login q, ph))
    (hcopy : ph.copy = some u) : HeldCopy s id u₀ (h ++ [e]) i q u := by
  rcases hmoved.of_job hjob with hold | ⟨hnew, -⟩ | ⟨ph₀, env, c, hold, hcall, he, hnext⟩
  · exact (hm.copies i q ph u hold hcopy).mono e
  · rw [hnew] at hcopy
    cases hcopy
  · rw [hnext] at hcopy
    by_cases hph : ph₀ = .start
    · subst hph
      cases hcall with
      | read =>
        change (loginNext _ q .start (.getUserByEmail q.realmId q.email)
          (m.shared.getUserByEmail q.realmId q.email)).copy = some u at hcopy
        cases hread : m.shared.getUserByEmail q.realmId q.email with
        | error =>
          rw [hread] at hcopy
          cases hcopy
        | ok found =>
          rw [hread] at hcopy
          cases found with
          | none => cases hcopy
          | some =>
            cases hcopy
            obtain ⟨hacc, hrealm⟩ := Store.getUserByEmail_eq_some.mp hread
            refine ⟨⟨e, List.mem_append_right h List.mem_cons_self, ?_⟩, hrealm,
              fun hl hid => hm.current hl.of_append u (hid ▸ hacc.stored), fun hid => ?_⟩
            · rw [he]
              show readOf (.advance i env) (some ⟨.getUserByEmail q.realmId q.email,
                m.shared.getUserByEmail q.realmId q.email⟩) = _
              rw [hread]
              rfl
            · obtain ⟨u', hu', hrealm'⟩ := hm.stored
              rw [Option.some.inj (hacc.stored.symm.trans (hid ▸ hu'))]
              exact hrealm'
    · exact (hm.copies i q ph₀ u hold (copy_of_move (loginMove hcall _) hph hcopy)).mono e

theorem LoginTrail.checked_moved {id' : String} (hchecked : CheckedBy (h ++ [e]) i id') :
    ∃ q ph, m'.jobs[i]? = some (.login q, ph) ∧ ph.checked = some id' := by
  obtain ⟨e', he', hcheck⟩ := hchecked
  rcases List.mem_append.mp he' with hold | hnew
  · obtain ⟨q, ph, hjob, hph⟩ := hm.checked i id' ⟨e', hold, hcheck⟩
    rcases hmoved.job hjob with hjob' | ⟨env', c, hcall, -, hjob'⟩
    · exact ⟨q, ph, hjob', hph⟩
    · exact ⟨q, _, hjob', checked_of_move (loginMove hcall _) hph⟩
  · rw [List.mem_singleton.mp hnew] at hcheck
    cases hmoved with
    | arrive q | idle j env' | outside c env' => cases hcheck
    | advance j env' req ph c hjob hcall =>
      cases c with
      | getPasswordCredential =>
        cases hcheck
        cases req with
        | login q =>
          have hlt : i < m.jobs.length := (List.getElem?_eq_some_iff.mp hjob).1
          refine ⟨q, _, List.getElem?_set_self hlt, ?_⟩
          cases hcall with
          | @check u | @checkReleased u => exact checked_afterCheck _ q u _
        | _ => cases hcall
      | _ => cases hcheck

theorem LoginTrail.broken_moved (hjob : m'.jobs[i]? = some (.login q, .broken u error))
    (message : String) : error ≠ .unauthorized message := by
  rcases hmoved.of_job hjob with hold | ⟨hnew, -⟩ | ⟨ph, env, c, hold, hcall, -, hnext⟩
  · exact hm.broken i q u error hold message
  · cases hnew
  · exact broken_next hcall hnext message

theorem LoginTrail.moved : LoginTrail s id u₀ (h ++ [e]) m' := by
  refine ⟨hm.stored_moved hmoved, fun hl => ?_, fun i q ph u => hm.copies_moved hmoved,
    fun i id' => hm.checked_moved hmoved, fun i q u error => hm.broken_moved hmoved⟩
  rw [← hmoved.after]
  exact hl.last

end Qid.Session
