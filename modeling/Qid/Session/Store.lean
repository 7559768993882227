/-
The repository of the login endpoints.

The users, the password and TOTP credentials and the sessions that `qid-session` reads and writes,
and the calls of the file repository on them (`qid-storage/src/file`: `user.rs`, `credential.rs`,
`session.rs`), each atomic under the store lock. A write that cannot be saved leaves the change in
memory. Deleting a user or a realm is not modelled.
-/
import Qid.OAuth.Store

namespace Qid.Session

open Lib Storage

structure PasswordCredential where
  userId : String
  hash : String
  algorithm : String
  deriving DecidableEq

structure TotpCredential where
  id : String
  userId : String
  secret : String
  algorithm : String
  digits : Nat
  period : Nat
  enabled : Bool
  lastUsedStep : Option Nat
  createdAt : Nat
  deriving DecidableEq

/-- The step never moves backward: `None` is before every step. -/
def TotpCredential.replacePreservingLastUsedStep (stored replacement : TotpCredential) :
    TotpCredential :=
  { replacement with lastUsedStep := max stored.lastUsedStep replacement.lastUsedStep }

structure LoginSession extends Models.Session where
  authTime : Nat
  acr : Option String
  amr : List String
  createdAt : Nat
  deriving DecidableEq

structure Store where
  users : Table Models.User (·.id)
  credentialsPassword : Table PasswordCredential (·.userId)
  totpCredentials : Table TotpCredential (·.id)
  sessions : Table LoginSession (·.id)

inductive Call where
  | getUserById (id : String)
  | getUserByEmail (realmId email : String)
  | updateUser (user : Models.User) (realm : Option String)
  | getPasswordCredential (userId : String)
  | updatePasswordCredentialInRealm (cred : PasswordCredential) (realm : String)
  | getTotpCredential (userId : String)
  | storeTotpCredential (cred : TotpCredential)
  | consumeTotpStep (cred : TotpCredential) (step : Nat)
  | getSession (id : String)
  | createSession (session : LoginSession)
  | revokeSession (id : String) (realm : Option String)

def Call.Answer : Call → Type
  | .getUserById _ | .getUserByEmail _ _ => QidResult (Option Models.User)
  | .getPasswordCredential _ => QidResult (Option PasswordCredential)
  | .getTotpCredential _ => QidResult (Option TotpCredential)
  | .consumeTotpStep _ _ => QidResult Bool
  | .getSession _ => QidResult (Option LoginSession)
  | .revokeSession _ _ => QidResult Bool
  | _ => QidResult Unit

/-- How a save ends, and which of several matching entries a loop over a map meets first. -/
structure Env where
  persist : Persist
  first : Nat
  deriving DecidableEq

def Env.saved : Env := { persist := .done, first := 0 }

namespace Store

def getUserByEmail (s : Store) (realmId email : String) : QidResult (Option Models.User) :=
  OAuth.Store.uniqueMatch
    (s.users.values.filter fun u => u.realmId = realmId ∧ u.email = some email)
    "ambiguous user realm/email identity"

def emailHeldByAnother (s : Store) (user : Models.User) : Option String :=
  user.email.filter fun email => s.users.values.any fun stored =>
    stored.id != user.id && stored.realmId == user.realmId && stored.email == some email

def userEmailConflict (email realmId : String) : QidError :=
  .conflict ("user email " ++ email ++ " already exists in realm " ++ realmId)

/-- The realm stays that of the incumbent. -/
def inIncumbentRealm (s : Store) (user : Models.User) : Models.User :=
  { user with realmId := (s.users.find user.id).elim user.realmId (·.realmId) }

variable (persist : Persist) (s : Store)

def updateUser (user : Models.User) (realm : Option String) : QidResult Unit × Store :=
  if realm.any fun realm => (s.users.find user.id).all fun stored => stored.realmId != realm then
    (.error (.notFound ("user " ++ user.id)), s)
  else
    match s.emailHeldByAnother (s.inIncumbentRealm user) with
    | some email => (.error (userEmailConflict email (s.inIncumbentRealm user).realmId), s)
    | none => (persist.result, { s with users := s.users.put (s.inIncumbentRealm user) })

def updatePasswordCredentialInRealm (cred : PasswordCredential) (realm : String) :
    QidResult Unit × Store :=
  if (s.users.find cred.userId).all (fun user => user.realmId != realm) ||
      (s.credentialsPassword.find cred.userId).isNone then
    (.error (.notFound ("password credential " ++ cred.userId)), s)
  else (persist.result, { s with credentialsPassword := s.credentialsPassword.put cred })

/-- One of the credentials of the user, the one the loop meets first. -/
def getTotpCredential (first : Nat) (s : Store) (userId : String) : Option TotpCredential :=
  let found := s.totpCredentials.values.filter fun c => c.userId = userId
  found[first % found.length]?

def storeTotpCredential (cred : TotpCredential) : QidResult Unit × Store :=
  match s.totpCredentials.find cred.id with
  | none => (persist.result, { s with totpCredentials := s.totpCredentials.put cred })
  | some stored =>
    if stored.userId = cred.userId then
      (persist.result,
        { s with
          totpCredentials := s.totpCredentials.put (stored.replacePreservingLastUsedStep cred) })
    else
      (.error (.conflict ("TOTP credential ID " ++ cred.id ++ " belongs to another user")), s)

def consumeTotpStep (cred : TotpCredential) (step : Nat) : QidResult Bool × Store :=
  match s.totpCredentials.find cred.id with
  | none => (.ok false, s)
  | some stored =>
    if stored.userId ≠ cred.userId ∨ stored.lastUsedStep.any (step ≤ ·) then (.ok false, s)
    else
      (persist.result.map fun _ => true,
        { s with
          totpCredentials := s.totpCredentials.put { stored with lastUsedStep := some step } })

def createSession (session : LoginSession) : QidResult Unit × Store :=
  match s.sessions.find session.id with
  | some existing => (.error (.badRequest ("session " ++ existing.id ++ " already exists")), s)
  | none => (persist.result, { s with sessions := s.sessions.put session })

def revokeSession (id : String) (realm : Option String) : QidResult Bool × Store :=
  match (s.sessions.find id).filter fun session => realm.all fun r => session.realmId == r with
  | none => (.ok false, s)
  | some session =>
    if session.revoked then (.ok false, s)
    else
      (persist.result.map fun _ => true,
        { s with sessions := s.sessions.put { session with revoked := true } })

end Store

def answer (env : Env) (s : Store) : (c : Call) → c.Answer × Store
  | .getUserById id => (.ok (s.users.find id), s)
  | .getUserByEmail realmId email => (s.getUserByEmail realmId email, s)
  | .updateUser user realm => s.updateUser env.persist user realm
  | .getPasswordCredential userId => (.ok (s.credentialsPassword.find userId), s)
  | .updatePasswordCredentialInRealm cred realm =>
    s.updatePasswordCredentialInRealm env.persist cred realm
  | .getTotpCredential userId => (.ok (s.getTotpCredential env.first userId), s)
  | .storeTotpCredential cred => s.storeTotpCredential env.persist cred
  | .consumeTotpStep cred step => s.consumeTotpStep env.persist cred step
  | .getSession id => (.ok (s.sessions.find id), s)
  | .createSession session => s.createSession env.persist session
  | .revokeSession id realm => s.revokeSession env.persist id realm

namespace Store

structure Account (s : Store) (email : String) (u : Models.User) : Prop where
  stored : s.users.find u.id = some u
  named : u.email = some email
  only : ∀ w, s.users.find w.id = some w → w.realmId = u.realmId → w.email = some email → w = u

variable {s : Store} {realmId email : String} {u v : Models.User}

theorem getUserByEmail_eq_some :
    s.getUserByEmail realmId email = .ok (some u) ↔ s.Account email u ∧ u.realmId = realmId := by
  constructor
  · intro h
    obtain ⟨hstored, hfor, hsole⟩ := OAuth.Store.of_uniqueMatch h
    obtain ⟨hrealm, hemail⟩ := of_decide_eq_true hfor
    refine ⟨⟨hstored, hemail, fun w hw hwr hwe => ?_⟩, hrealm⟩
    exact hsole w hw (decide_eq_true ⟨hwr.trans hrealm, hwe⟩)
  · intro h
    obtain ⟨hacc, rfl⟩ := h
    rw [getUserByEmail, Table.filter_values_eq_singleton hacc.stored]
    · rfl
    · exact decide_eq_true ⟨rfl, hacc.named⟩
    · intro w hw hp
      have hp := of_decide_eq_true hp
      exact hacc.only w hw hp.1 hp.2

theorem updateUser_cases (persist : Persist) (s : Store) (v : Models.User)
    (realm : Option String) :
    (∃ e, s.updateUser persist v realm = (.error e, s) ∧ ∀ message, e ≠ .unauthorized message) ∨
      s.updateUser persist v realm =
        (persist.result, { s with users := s.users.put (s.inIncumbentRealm v) }) := by
  rw [updateUser]
  split
  · exact Or.inl ⟨_, rfl, fun message => QidError.noConfusion⟩
  · cases s.emailHeldByAnother (s.inIncumbentRealm v) with
    | some => exact Or.inl ⟨_, rfl, fun message => QidError.noConfusion⟩
    | none => exact Or.inr rfl

theorem Account.updateUser (h : s.Account email u) (persist : Persist) (hid : v.id = u.id)
    (hrealm : v.realmId = u.realmId) (hemail : v.email = u.email) :
    s.updateUser persist v (some u.realmId) =
      (persist.result, { s with users := s.users.put v }) := by
  have hfind : s.users.find v.id = some u := hid ▸ h.stored
  have hsame : s.inIncumbentRealm v = v := by
    rw [inIncumbentRealm, hfind, Option.elim_some, ← hrealm]
  have hfree : s.emailHeldByAnother v = none := by
    rw [emailHeldByAnother, hemail, h.named, Option.filter_eq_none_iff]
    intro e he
    cases he
    rw [Bool.not_eq_true, List.any_eq_false]
    intro w hw hheld
    rw [Bool.and_eq_true, Bool.and_eq_true, bne_iff_ne, beq_iff_eq, beq_iff_eq] at hheld
    have hw := h.only w (Table.mem_values.mp hw) (hheld.1.2.trans hrealm) hheld.2
    exact hheld.1.1 (hw ▸ hid.symm)
  rw [Store.updateUser, hfind, hsame, hfree]
  simp

theorem Account.put (h : s.Account email u) (hid : v.id = u.id) (hrealm : v.realmId = u.realmId)
    (hemail : v.email = u.email) : ({ s with users := s.users.put v } : Store).Account email v := by
  refine ⟨s.users.find_put_self v, hemail.trans h.named, fun w hw hwr hwe => ?_⟩
  by_cases hwid : w.id = v.id
  · have hput : (s.users.put v).find w.id = some v := by
      rw [hwid]
      exact s.users.find_put_self v
    exact Option.some.inj (hw.symm.trans hput)
  · have hw : s.users.find w.id = some w := (s.users.find_put_of_ne hwid).symm.trans hw
    have hwu := h.only w hw (hwr.trans hrealm) hwe
    exact absurd (hwu ▸ hid.symm) hwid

end Store

abbrev Login : Type → Type := Handler Call Call.Answer QidError

end Qid.Session
