/-
Users, clients, SCIM resources and device grants of the file repository.

A translation of `file/insert.rs`, `file/user.rs`, `file/client.rs`, `file/scim.rs` and the device
grants of `file/token.rs`. A call is atomic under the store lock; a failed save leaves the change in
memory.
-/
import Mathlib.Data.List.Sort
import Qid.File.Store

namespace Qid.File

open Lib Storage Scim

/-- The id of a record is its key. -/
structure InsertIdentity (V : Type) where
  record : String
  identityName : String
  globalIdentity : Bool := false
  identity : V → Option (String × String)

def userIdentity : InsertIdentity Models.User where
  record := "user"
  identityName := "user email"
  identity u := u.email.map fun email => (u.realmId, email)

def scimUserIdentity : InsertIdentity ScimUser where
  record := "SCIM user"
  identityName := "user name"
  identity u := some (u.realmId, u.userName)

theorem scimUserIdentity_eq_some {u : ScimUser} {i : String × String} :
    scimUserIdentity.identity u = some i ↔ u.realmId = i.1 ∧ u.userName = i.2 := by
  simp only [scimUserIdentity, Option.some.injEq, Prod.ext_iff]

def scimGroupIdentity : InsertIdentity ScimGroup where
  record := "SCIM group"
  identityName := "display name"
  identity g := some (g.realmId, g.displayName)

def clientIdentity : InsertIdentity Models.Client where
  record := "client"
  identityName := "client id"
  identity c := some (c.realmId, c.clientId)

/-- The user code is globally unique, so every grant shares one scope. -/
def deviceGrantIdentity : InsertIdentity OAuth.DeviceAuthorizationGrant where
  record := "device authorization grant"
  identityName := "device user code"
  globalIdentity := true
  identity g := some ("", g.userCode)

section

variable {V : Type} {key : V → String} (I : InsertIdentity V) {t t' : Table V key} {v : V}
  {id : String}

def identityTaken (identity owner : String) : QidError :=
  .conflict (if I.globalIdentity then
      I.identityName ++ " " ++ identity ++ " already exists globally"
    else I.identityName ++ " " ++ identity ++ " already exists in realm " ++ owner)

/-- An absent identity is not unique. -/
def insertNew (t : Table V key) (v : V) : QidResult (Table V key) :=
  if (t.find (key v)).isSome then
    .error (.conflict (I.record ++ " record ID " ++ key v ++ " already exists"))
  else
    match I.identity v with
    | none => .ok (t.put v)
    | some (owner, identity) =>
      if t.values.any fun stored => I.identity stored == some (owner, identity) then
        .error (identityTaken I identity owner)
      else .ok (t.put v)

inductive ScimMutation (V : Type) where
  | reject
  | replace (replacement : V)
  | delete

def mutateResource (t : Table V key) (id : String) (mutation : V → QidResult (ScimMutation V)) :
    QidResult (Option (V × Table V key)) :=
  match t.find id with
  | none => .ok none
  | some current => do
    match ← mutation current with
    | .reject => return none
    | .replace replacement =>
      if key current ≠ key replacement ∨
          (I.identity current).map Prod.fst ≠ (I.identity replacement).map Prod.fst then
        .error (.badRequest "serialized mutation cannot change resource identity")
      else if t.values.any fun stored =>
          key stored != id && I.identity stored == I.identity replacement then
        .error (.storage (I.identityName ++ " already exists in realm"))
      else return some (replacement, t.put replacement)
    | .delete => return some (current, t.erase id)

variable {I}

theorem of_insertNew (h : insertNew I t v = .ok t') :
    t' = t.put v ∧ t.find (key v) = none ∧ t.Free I.identity v := by
  obtain ⟨hnew, h⟩ := guard_eq_ok.mp h
  rw [Option.not_isSome_iff_eq_none] at hnew
  split at h
  · rename_i hident
    cases h
    refine ⟨rfl, hnew, fun w _ _ i hi => ?_⟩
    rw [hident] at hi
    cases hi
  · rename_i owner identity hident
    obtain ⟨hfree, h⟩ := guard_eq_ok.mp h
    cases h
    refine ⟨rfl, hnew, fun w hw _ i hi hi' => hfree (List.any_eq_true.mpr ⟨w, ?_, ?_⟩)⟩
    · exact Table.mem_values.mpr hw
    · rw [hi', ← hi, hident, beq_self_eq_true]

theorem distinct_insertNew (hd : t.Distinct I.identity) (h : insertNew I t v = .ok t') :
    t'.Distinct I.identity := by
  obtain ⟨rfl, -, hfree⟩ := of_insertNew h
  exact hd.put hfree

variable {mutation : V → QidResult (ScimMutation V)}

theorem of_mutateResource (h : mutateResource I t id mutation = .ok (some (v, t'))) :
    ∃ current, t.find id = some current ∧
      (mutation current = .ok (.replace v) ∧ key v = key current ∧
          (I.identity v).map Prod.fst = (I.identity current).map Prod.fst ∧
          t.Free I.identity v ∧ t' = t.put v ∨
        mutation current = .ok .delete ∧ v = current ∧ t' = t.erase id) := by
  rw [mutateResource] at h
  split at h
  · cases h
  · rename_i current hcurrent
    refine ⟨current, hcurrent, ?_⟩
    cases hm : mutation current with
    | error =>
      rw [hm] at h
      cases h
    | ok m =>
      rw [hm] at h
      cases m with
      | reject => cases h
      | replace =>
        obtain ⟨hsame, h⟩ := guard_eq_ok.mp h
        obtain ⟨hfree, h⟩ := guard_eq_ok.mp h
        cases h
        rw [not_or, not_not, not_not] at hsame
        refine Or.inl ⟨rfl, hsame.1.symm, hsame.2.symm, fun w hw hne i hi hi' => ?_, rfl⟩
        refine hfree (List.any_eq_true.mpr ⟨w, Table.mem_values.mpr hw, ?_⟩)
        rw [← hsame.1, Table.key_of_find hcurrent] at hne
        rw [Bool.and_eq_true, bne_iff_ne, beq_iff_eq]
        exact ⟨hne, hi'.trans hi.symm⟩
      | delete =>
        cases h
        exact Or.inr ⟨rfl, rfl, rfl⟩

theorem distinct_mutateResource (hd : t.Distinct I.identity)
    (h : mutateResource I t id mutation = .ok (some (v, t'))) : t'.Distinct I.identity := by
  obtain ⟨current, -, ⟨-, -, -, hfree, rfl⟩ | ⟨-, -, rfl⟩⟩ := of_mutateResource h
  · exact hd.put hfree
  · exact hd.erase id

theorem insertNew_eq_ok (hnew : t.find (key v) = none) (hfree : t.Free I.identity v) :
    insertNew I t v = .ok (t.put v) := by
  rw [insertNew, hnew, Option.isSome_none, if_neg Bool.false_ne_true]
  split
  · rfl
  · rename_i owner identity hident
    rw [if_neg]
    intro hany
    obtain ⟨w, hw, hsame⟩ := List.any_eq_true.mp hany
    rw [beq_iff_eq] at hsame
    have hstored := Table.mem_values.mp hw
    refine hfree w hstored (fun hkey => ?_) _ hident hsame
    rw [hkey, hnew] at hstored
    cases hstored

theorem mutateResource_replace {current : V} (hfind : t.find (key v) = some current)
    (howner : (I.identity current).map Prod.fst = (I.identity v).map Prod.fst)
    (hident : (I.identity v).isSome = true) (hfree : t.Free I.identity v) :
    mutateResource I t (key v) (fun _ => .ok (.replace v)) = .ok (some (v, t.put v)) := by
  have hkey : key current = key v := Table.key_of_find hfind
  rw [mutateResource, hfind]
  change (if _ then _ else _) = _
  rw [if_neg, if_neg]
  · rfl
  · intro hany
    obtain ⟨w, hw, hsame⟩ := List.any_eq_true.mp hany
    rw [Bool.and_eq_true, bne_iff_ne, beq_iff_eq] at hsame
    obtain ⟨i, hi⟩ := Option.isSome_iff_exists.mp hident
    exact hfree w (Table.mem_values.mp hw) hsame.1 i hi (hsame.2.trans hi)
  · rw [not_or, not_not, not_not]
    exact ⟨hkey, howner⟩

end

variable (persist : Persist) (s : Store) (user : Models.User)

def createUser : QidResult Unit × Store :=
  match insertNew userIdentity s.users user with
  | .error e => (.error e, s)
  | .ok users => (persist.result, { s with users := users })

def getUserByEmail (realmId email : String) : QidResult (Option Models.User) :=
  OAuth.Store.uniqueMatch
    (s.users.values.filter fun u => userIdentity.identity u = some (realmId, email))
    "ambiguous user realm/email identity"

def emailHeldByAnother : Option String :=
  user.email.filter fun email => s.users.values.any fun stored =>
    stored.id != user.id && stored.realmId == user.realmId && stored.email == some email

/-- The realm stays that of the incumbent. -/
def updateUser (realm : Option String) : QidResult Unit × Store :=
  let incumbent := s.users.find user.id
  if realm.any fun realm => incumbent.all fun stored => stored.realmId != realm then
    (.error (.notFound ("user " ++ user.id)), s)
  else
    let user := { user with realmId := incumbent.elim user.realmId (·.realmId) }
    match emailHeldByAnother s user with
    | some email => (.error (Session.Store.userEmailConflict email user.realmId), s)
    | none => (persist.result, { s with users := s.users.put user })

/-- The change that a confirmed email challenge makes, put back if the store cannot be written. -/
def verifyEmail (id : String) : QidResult Unit × Store :=
  match s.users.find id, persist.result with
  | none, r => (r, s)
  | some _, .error e => (.error e, s)
  | some user, .ok () =>
    (.ok (), { s with users := s.users.put { user with emailVerified := true } })

def createClient (client : Models.Client) : QidResult Unit × Store :=
  match insertNew clientIdentity s.clients client with
  | .error e => (.error e, s)
  | .ok clients => (persist.result, { s with clients := clients })

/-- An id that is not stored is bound to nothing. -/
def ensureSameBinding {α : Type} [DecidableEq α] (incumbent : Option α) (incoming : α)
    (message : String) : QidResult Unit :=
  if incumbent.any (· ≠ incoming) then .error (.conflict message) else .ok ()

def updateClient (client : Models.Client) : QidResult Unit × Store :=
  match ensureSameBinding ((s.clients.find client.id).map fun c => (c.realmId, c.clientId))
    (client.realmId, client.clientId) "client ID belongs to another identity" with
  | .error e => (.error e, s)
  | .ok () => (persist.result, { s with clients := s.clients.put client })

def getClientByClientId (realmId clientId : String) : Option Models.Client :=
  s.clients.values.find? fun c => clientIdentity.identity c = some (realmId, clientId)

def deleteClient (realmId id : String) : QidResult Unit × Store :=
  (persist.result,
    if (s.clients.find id).any fun client => client.realmId == realmId then
      { s with clients := s.clients.erase id }
    else s)

def createScimUser (user : ScimUser) : QidResult Unit × Store :=
  match insertNew scimUserIdentity s.scimUsers user with
  | .error e => (.error e, s)
  | .ok users => (persist.result, { s with scimUsers := users })

def mutateScimUser (id : String) (mutation : ScimUser → QidResult (ScimMutation ScimUser)) :
    QidResult (Option ScimUser) × Store :=
  match mutateResource scimUserIdentity s.scimUsers id mutation with
  | .error e => (.error e, s)
  | .ok none => (.ok none, s)
  | .ok (some (user, users)) =>
    (persist.result.map fun _ => some user, { s with scimUsers := users })

def updateScimUser (user : ScimUser) : QidResult Unit × Store :=
  let r := mutateScimUser persist s user.id fun _ => .ok (.replace user)
  (r.1.map fun _ => (), r.2)

section

variable {persist} {s} {user : ScimUser}
variable {current : ScimUser}

theorem of_createScimUser_ok (h : (createScimUser persist s user).1 = .ok ()) :
    s.scimUsers.find user.id = none ∧ s.scimUsers.Free scimUserIdentity.identity user ∧
      (createScimUser persist s user).2 = { s with scimUsers := s.scimUsers.put user } := by
  rw [createScimUser] at h ⊢
  split
  · rename_i e hnew
    rw [hnew] at h
    cases h
  · rename_i users hnew
    obtain ⟨rfl, hnone, hfree⟩ := of_insertNew hnew
    exact ⟨hnone, hfree, rfl⟩

theorem of_updateScimUser_ok (hfind : s.scimUsers.find user.id = some current)
    (h : (updateScimUser persist s user).1 = .ok ()) :
    s.scimUsers.Free scimUserIdentity.identity user ∧
      (updateScimUser persist s user).2 = { s with scimUsers := s.scimUsers.put user } := by
  simp only [updateScimUser, mutateScimUser] at h ⊢
  split
  · rename_i e hmutated
    rw [hmutated] at h
    cases h
  · rename_i hmutated
    -- the user is stored, and its replacement is not rejected
    rw [mutateResource, hfind] at hmutated
    change (if _ then _ else _) = _ at hmutated
    split at hmutated
    · cases hmutated
    · split at hmutated <;> cases hmutated
  · rename_i u users hmutated
    obtain ⟨w, -, ⟨hreplace, -, -, hfree, rfl⟩ | ⟨hdelete, -, -⟩⟩ := of_mutateResource hmutated
    · cases hreplace
      exact ⟨hfree, rfl⟩
    · cases hdelete

theorem updateScimUser_eq_ok (hfind : s.scimUsers.find user.id = some current)
    (hrealm : current.realmId = user.realmId)
    (hfree : s.scimUsers.Free scimUserIdentity.identity user) (hsaved : persist.result = .ok ()) :
    updateScimUser persist s user = (.ok (), { s with scimUsers := s.scimUsers.put user }) := by
  have hmutated := mutateResource_replace (I := scimUserIdentity) hfind (congrArg some hrealm) rfl
    hfree
  simp only [updateScimUser, mutateScimUser, hmutated, hsaved]
  rfl

end

def listScimUsers (realmId : String) : List ScimUser :=
  (s.scimUsers.values.filter fun u => u.realmId == realmId).insertionSort fun a b => a.id ≤ b.id

def createScimGroup (group : ScimGroup) : QidResult Unit × Store :=
  match insertNew scimGroupIdentity s.scimGroups group with
  | .error e => (.error e, s)
  | .ok groups => (persist.result, { s with scimGroups := groups })

def mutateScimGroup (id : String) (mutation : ScimGroup → QidResult (ScimMutation ScimGroup)) :
    QidResult (Option ScimGroup) × Store :=
  match mutateResource scimGroupIdentity s.scimGroups id mutation with
  | .error e => (.error e, s)
  | .ok none => (.ok none, s)
  | .ok (some (group, groups)) =>
    (persist.result.map fun _ => some group, { s with scimGroups := groups })

def storeDeviceAuthorizationGrant (grant : OAuth.DeviceAuthorizationGrant) :
    QidResult Unit × Store :=
  match insertNew deviceGrantIdentity s.deviceAuthorizationGrants grant with
  | .error e => (.error e, s)
  | .ok grants => (persist.result, { s with deviceAuthorizationGrants := grants })

def getDeviceAuthorizationGrantByUserCode (userCode : String) :
    QidResult (Option OAuth.DeviceAuthorizationGrant) :=
  OAuth.Store.uniqueMatch
    (s.deviceAuthorizationGrants.values.filter fun g =>
      deviceGrantIdentity.identity g = some ("", userCode))
    "ambiguous device user code"

def approveDeviceAuthorizationGrant (userCode userId : String) (approvedAt : Nat) :
    QidResult Unit × Store :=
  match getDeviceAuthorizationGrantByUserCode s userCode with
  | .error e => (.error e, s)
  | .ok none => (.error (.notFound "device authorization grant"), s)
  | .ok (some grant) =>
    (persist.result,
      { s with
        deviceAuthorizationGrants := s.deviceAuthorizationGrants.put
          { grant with userId := some userId, approvedAt := some approvedAt } })

def recordDeviceAuthorizationPoll (deviceCodeHash : String) (polledAt interval : Nat) :
    QidResult Unit × Store :=
  match s.deviceAuthorizationGrants.find deviceCodeHash with
  | none => (persist.result, s)
  | some grant =>
    (persist.result,
      { s with
        deviceAuthorizationGrants := s.deviceAuthorizationGrants.put
          { grant with lastPollAt := some polledAt, pollIntervalSeconds := interval } })

def consumeDeviceAuthorizationGrant (deviceCodeHash : String) : QidResult Unit × Store :=
  match s.deviceAuthorizationGrants.find deviceCodeHash with
  | none => (.error (.notFound ("device authorization grant " ++ deviceCodeHash)), s)
  | some grant =>
    if grant.consumed then
      (.error (.conflict "device authorization grant already consumed"), s)
    else
      (persist.result,
        { s with
          deviceAuthorizationGrants := s.deviceAuthorizationGrants.put
            { grant with consumed := true } })

end Qid.File
