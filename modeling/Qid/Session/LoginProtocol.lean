/-
The protocol of a password login.

`authenticate_password` as an automaton over its calls. A login reads the user once and keeps the
copy; every record it writes is made from that copy, whatever has been stored in the meantime.
-/
import Qid.Session.Endpoint

namespace Qid.Session

open Lib Lib.Service Storage

variable {c : Call} {u : Models.User} {id : String} {s : Store}

inductive LoginPhase where
  | start
  | found (u : Models.User)
  /-- A lock that is over has been removed from the stored record. -/
  | released (u : Models.User)
  | wrong (u : Models.User)
  | right (u : Models.User)
  | recorded (u : Models.User)
  | cleared (u : Models.User)
  /-- A write after the password was checked has failed. -/
  | broken (u : Models.User) (e : QidError)
  | refused
  /-- Any request that is not a password login. -/
  | other

def LoginPhase.copy : LoginPhase → Option Models.User
  | .found u | .released u | .wrong u | .right u => some u
  | _ => none

def LoginPhase.checked : LoginPhase → Option String
  | .wrong u | .right u | .recorded u | .cleared u | .broken u _ => some u.id
  | _ => none

section

variable (a : Authenticator) (q : LoginRun) {ph : LoginPhase} {credentials : PasswordCredentials}

def passwordVerdict (found : Option PasswordCredential) : Option Bool :=
  a.credentials.bind fun credentials => credentials.check q.password found

def afterCheck (u : Models.User) (found : Option PasswordCredential) : LoginPhase :=
  if (passwordVerdict a q found).isSome then .right u else .wrong u

inductive LoginCalls : LoginPhase → Call → Prop
  | read : LoginCalls .start (.getUserByEmail q.realmId q.email)
  | release {u : Models.User} {t : Nat} (hlocked : u.lockedUntil = some t) (hover : t ≤ q.now) :
      LoginCalls (.found u) (.updateUser (cleared u) (some q.realmId))
  | check {u : Models.User} : LoginCalls (.found u) (.getPasswordCredential u.id)
  | checkReleased {u : Models.User} : LoginCalls (.released u) (.getPasswordCredential u.id)
  | record {u : Models.User} :
      LoginCalls (.wrong u) (.updateUser (a.policy.failed q.now u) (some q.realmId))
  | rehash {u : Models.User} (cred : PasswordCredential) :
      LoginCalls (.right u) (.updatePasswordCredentialInRealm cred q.realmId)
  | clear {u : Models.User} : LoginCalls (.right u) (.updateUser (cleared u) (some q.realmId))

def loginNext : LoginPhase → (c : Call) → c.Answer → LoginPhase
  | .start, .getUserByEmail _ _, .ok (some u) => .found u
  | .found u, .updateUser _ _, .ok () => .released u
  | .found u, .getPasswordCredential _, .ok found
  | .released u, .getPasswordCredential _, .ok found => afterCheck a q u found
  | .wrong u, .updateUser _ _, .ok () => .recorded u
  | .wrong u, .updateUser _ _, .error e => .broken u e
  | .right u, .updatePasswordCredentialInRealm _ _, .ok () => .right u
  | .right u, .updatePasswordCredentialInRealm _ _, .error e => .broken u e
  | .right u, .updateUser _ _, .ok () => .cleared u
  | .right u, .updateUser _ _, .error e => .broken u e
  | _, _, _ => .refused

inductive LoginMove : LoginPhase → (c : Call) → c.Answer → LoginPhase → Prop
  | read (u : Models.User) :
      LoginMove .start (.getUserByEmail q.realmId q.email) (.ok (some u)) (.found u)
  | release (u : Models.User) :
      LoginMove (.found u) (.updateUser (cleared u) (some q.realmId)) (.ok ()) (.released u)
  | check {ph : LoginPhase} {u : Models.User} (hph : ph = .found u ∨ ph = .released u)
      (found : Option PasswordCredential) :
      LoginMove ph (.getPasswordCredential u.id) (.ok found) (afterCheck a q u found)
  | record (u : Models.User) :
      LoginMove (.wrong u) (.updateUser (a.policy.failed q.now u) (some q.realmId)) (.ok ())
        (.recorded u)
  | notRecorded (u : Models.User) (e : QidError) :
      LoginMove (.wrong u) (.updateUser (a.policy.failed q.now u) (some q.realmId)) (.error e)
        (.broken u e)
  | rehash (u : Models.User) (cred : PasswordCredential) :
      LoginMove (.right u) (.updatePasswordCredentialInRealm cred q.realmId) (.ok ()) (.right u)
  | notRehashed (u : Models.User) (cred : PasswordCredential) (e : QidError) :
      LoginMove (.right u) (.updatePasswordCredentialInRealm cred q.realmId) (.error e)
        (.broken u e)
  | clear (u : Models.User) :
      LoginMove (.right u) (.updateUser (cleared u) (some q.realmId)) (.ok ()) (.cleared u)
  | notCleared (u : Models.User) (e : QidError) :
      LoginMove (.right u) (.updateUser (cleared u) (some q.realmId)) (.error e) (.broken u e)
  | refuse {ph : LoginPhase} {c : Call} {r : c.Answer} (hph : ph.checked = none) :
      LoginMove ph c r .refused

variable {a q} in
theorem loginMove (hcall : LoginCalls a q ph c) (r : c.Answer) :
    LoginMove a q ph c r (loginNext a q ph c r) := by
  cases hcall with
  | read =>
    cases r with
    | error => exact .refuse rfl
    | ok found =>
      cases found with
      | none => exact .refuse rfl
      | some u => exact .read u
  | release =>
    cases r with
    | ok _ => exact .release _
    | error e => exact .refuse rfl
  | check =>
    cases r with
    | ok found => exact .check (Or.inl rfl) found
    | error e => exact .refuse rfl
  | checkReleased =>
    cases r with
    | ok found => exact .check (Or.inr rfl) found
    | error e => exact .refuse rfl
  | record =>
    cases r with
    | ok _ => exact .record _
    | error e => exact .notRecorded _ e
  | rehash cred =>
    cases r with
    | ok _ => exact .rehash _ cred
    | error e => exact .notRehashed _ cred e
  | clear =>
    cases r with
    | ok _ => exact .clear _
    | error e => exact .notCleared _ e

def loginReturns : LoginPhase → QidResult AuthResult → Prop
  | .right _, .error e => e = .internal "password hashing failed"
  | .right u, .ok r => r.user = u
  | .cleared u, r => ∃ x, r = .ok x ∧ x.user = u
  | .broken _ e, r => r = .error e
  | .wrong _, _ | _, .ok _ => False
  | _, .error _ => True

def passwordLogin : Protocol LoginPhase Call Call.Answer :=
  { calls := LoginCalls a q, next := loginNext a q }

variable {a q}

theorem leads_acceptPassword (u : Models.User) (rehashRequired : Bool) :
    (passwordLogin a q).Leads loginReturns (.right u)
      (acceptPassword credentials q u rehashRequired) := by
  have hfinish : (passwordLogin a q).Leads loginReturns (.right u) (do
      clearFailures q u
      return { user := u, acr := "urn:qid:acr:password", amr := ["pwd"], sessionId := none } :
        Login AuthResult) := by
    rw [clearFailures]
    split
    · refine ⟨.clear, fun r => ?_⟩
      cases r with
      | ok _ => exact ⟨_, rfl, rfl⟩
      | error => exact rfl
    · exact rfl
  rw [acceptPassword, Protocol.leads_bind]
  cases rehashRequired with
  | false => exact hfinish
  | true =>
    refine Protocol.leads_check_bind (fun e he => credentials.hash_error _ e he) fun hash _ => ?_
    refine ⟨.rehash _, fun r => ?_⟩
    cases r with
    | ok => exact hfinish
    | error => exact rfl

theorem leads_verifyPassword (hcred : a.credentials = some credentials)
    (hcall : LoginCalls a q ph (.getPasswordCredential u.id))
    (hnext : ∀ found, loginNext a q ph (.getPasswordCredential u.id) (.ok found) =
      afterCheck a q u found)
    (herror : ∀ e, loginNext a q ph (.getPasswordCredential u.id) (.error e) = .refused) :
    (passwordLogin a q).Leads loginReturns ph (verifyPassword a credentials q u) := by
  refine ⟨hcall, fun r => ?_⟩
  cases r with
  | error e =>
    show loginReturns (loginNext a q ph (.getPasswordCredential u.id) (.error e)) _
    rw [herror]
    exact trivial
  | ok found =>
    have hverdict : passwordVerdict a q found = credentials.check q.password found := by
      rw [passwordVerdict, hcred]
      rfl
    show (passwordLogin a q).Leads loginReturns
      (loginNext a q ph (.getPasswordCredential u.id) (.ok found))
      (concludeLogin a credentials q u (credentials.check q.password found))
    rw [hnext, afterCheck, hverdict]
    cases credentials.check q.password found with
    | some rehashRequired => exact leads_acceptPassword u rehashRequired
    | none =>
      show (passwordLogin a q).Leads loginReturns (.wrong u) (refusePassword a q u)
      refine ⟨.record, fun r => ?_⟩
      cases r with
      | ok => exact trivial
      | error => exact rfl

theorem leads_authenticatePassword :
    (passwordLogin a q).Leads loginReturns .start (authenticatePassword a q) := by
  refine Protocol.leads_check_bind (fun e _ => trivial) fun credentials hcred => ?_
  have hcred : a.credentials = some credentials := okOr_eq_ok.mp hcred
  refine Protocol.leads_check_bind (fun e _ => trivial) fun _ _ => ?_
  refine ⟨.read, fun r => ?_⟩
  cases r with
  | error => exact trivial
  | ok found =>
    cases found with
    | none => exact trivial
    | some u =>
      show (passwordLogin a q).Leads loginReturns (.found u) (do
        releaseLock q u
        verifyPassword a credentials q u : Login AuthResult)
      rw [Protocol.leads_bind, releaseLock]
      cases hlocked : u.lockedUntil with
      | none => exact leads_verifyPassword hcred .check (fun _ => rfl) fun _ => rfl
      | some t =>
        refine Protocol.leads_check_bind (fun e _ => trivial) fun _ hover => ?_
        refine ⟨.release hlocked (ensure_eq_ok.mp hover), fun r => ?_⟩
        cases r with
        | error => exact trivial
        | ok _ => exact leads_verifyPassword hcred .checkReleased (fun _ => rfl) fun _ => rfl

end

section

variable (st : SharedState)

/-- A login follows its protocol; no other request makes a call of a login. -/
def loginProtocol : Request → Protocol LoginPhase Call Call.Answer
  | .login q => passwordLogin (st.authenticator q.realmId) q
  | _ => { calls := fun _ c => c.ofLogin = false, next := fun s _ _ => s }

def loginStart : Request → LoginPhase
  | .login _ => .start
  | _ => .other

def requestReturns : Request → LoginPhase → QidResult Response → Prop
  | .login _, ph, .ok (.authenticated r) => loginReturns ph (.ok r)
  | .login _, ph, .error e => loginReturns ph (.error e)
  | .login _, _, .ok _ => False
  | _, ph, _ => ph = .other

theorem login_serve (q : Request) :
    (loginProtocol st q).Leads (requestReturns q) (loginStart q) (serve st q) := by
  cases q with
  | login =>
    rw [serve, Protocol.leads_bind]
    refine leads_authenticatePassword.mono fun ph r hr => ?_
    cases r with
    | _ => exact hr
  | totpVerify q =>
    have hmakes : Program.Makes (fun c => c.ofLogin = false) (serve st (.totpVerify q)) :=
      Handler.makes_bind (makes_totpVerify st q) fun _ => trivial
    exact hmakes.leads (fun c hc => hc) fun _ _ _ => rfl
  | totpAuthenticate q =>
    have hmakes : Program.Makes (fun c => c.ofLogin = false) (serve st (.totpAuthenticate q)) :=
      Handler.makes_bind (makes_totpAuthenticate st (fun c hc _ => hc) q) fun _ => trivial
    exact hmakes.leads (fun c hc => hc) fun _ _ _ => rfl

end

def Call.updatesUser : Call → Bool
  | .updateUser _ _ => true
  | _ => false

theorem users_answer (env : Env) (s : Store) (hc : c.updatesUser = false) :
    (answer env s c).2.users = s.users := by
  cases c with
  | updateUser => cases hc
  | updatePasswordCredentialInRealm cred realm =>
    show (s.updatePasswordCredentialInRealm env.persist cred realm).2.users = s.users
    rw [Store.updatePasswordCredentialInRealm]
    split <;> rfl
  | storeTotpCredential cred =>
    show (s.storeTotpCredential env.persist cred).2.users = s.users
    rw [Store.storeTotpCredential]
    split
    · rfl
    · split <;> rfl
  | consumeTotpStep cred step =>
    show (s.consumeTotpStep env.persist cred step).2.users = s.users
    rw [Store.consumeTotpStep]
    split
    · rfl
    · split <;> rfl
  | createSession session =>
    show (s.createSession env.persist session).2.users = s.users
    rw [Store.createSession]
    split <;> rfl
  | revokeSession id realm =>
    show (s.revokeSession env.persist id realm).2.users = s.users
    rw [Store.revokeSession]
    split
    · rfl
    · split <;> rfl
  | _ => rfl

/-- An update is refused, or the record is replaced by another one in the same realm, if it is the
one that is updated. -/
theorem find_updateUser (persist : Persist) (hu : s.users.find id = some u) (v : Models.User)
    (realm : Option String) :
    (∃ e, s.updateUser persist v realm = (.error e, s) ∧ ∀ message, e ≠ .unauthorized message) ∨
      (s.updateUser persist v realm).1 = persist.result ∧
      (s.updateUser persist v realm).2.users.find id =
        if v.id = id then some { v with realmId := u.realmId } else some u := by
  rcases s.updateUser_cases persist v realm with hrefused | hwrite
  · exact Or.inl hrefused
  · rw [hwrite]
    refine Or.inr ⟨rfl, ?_⟩
    rw [Table.find_put, Store.inIncumbentRealm]
    by_cases hid : v.id = id
    · subst hid
      rw [if_pos rfl, if_pos rfl, hu]
      rfl
    · rw [if_neg hid, if_neg (fun h => hid h.symm)]
      exact hu

theorem find_answer (env : Env) (hu : s.users.find id = some u) (c : Call) :
    (answer env s c).2.users.find id = some u ∨
      ∃ v realm, c = .updateUser v realm ∧ v.id = id ∧
        (s.updateUser env.persist v realm).1 = env.persist.result ∧
        (answer env s c).2.users.find id = some { v with realmId := u.realmId } := by
  cases hc : c.updatesUser with
  | false =>
    rw [users_answer env s hc]
    exact Or.inl hu
  | true =>
    cases c with
    | updateUser v realm =>
      show (s.updateUser env.persist v realm).2.users.find id = _ ∨ _
      rcases find_updateUser env.persist hu v realm with ⟨e, hrefused, -⟩ | ⟨hresult, hwrite⟩
      · rw [hrefused]
        exact Or.inl hu
      · split_ifs at hwrite with hid
        · exact Or.inr ⟨v, realm, rfl, hid, hresult, hwrite⟩
        · exact Or.inl hwrite
    | _ => cases hc

end Qid.Session
