/-
Identities are unique in the file store.

Creation, mutation and import check the identity they write. `update_client` does not: it writes a
client under an id that is not stored whatever its client id is.
-/
import Qid.File.Delete
import Qid.File.HrImport

namespace Qid.File
namespace Uniqueness

open Lib Storage Scim

variable {user : Models.User} {client : Models.Client} {grant : OAuth.DeviceAuthorizationGrant}
  {userCode : String}

/-- No identity is shared. -/
structure Unique (s : Store) : Prop where
  users : s.users.Distinct userIdentity.identity
  clients : s.clients.Distinct clientIdentity.identity
  scimUsers : s.scimUsers.Distinct scimUserIdentity.identity
  scimGroups : s.scimGroups.Distinct scimGroupIdentity.identity
  deviceGrants : s.deviceAuthorizationGrants.Distinct deviceGrantIdentity.identity

theorem unique_empty : Unique {} :=
  ⟨Table.distinct_empty, Table.distinct_empty, Table.distinct_empty, Table.distinct_empty,
    Table.distinct_empty⟩

inductive Call where
  | createUser (user : Models.User)
  | updateUser (user : Models.User) (realm : Option String)
  | verifyEmail (id : String)
  | deleteUser (id : String) (realm : Option String)
  | createClient (client : Models.Client)
  | updateClient (client : Models.Client)
  | deleteClient (realmId id : String)
  | createScimUser (user : ScimUser)
  | mutateScimUser (id : String) (mutation : ScimUser → QidResult (ScimMutation ScimUser))
  | createScimGroup (group : ScimGroup)
  | mutateScimGroup (id : String) (mutation : ScimGroup → QidResult (ScimMutation ScimGroup))
  | storeDeviceAuthorizationGrant (grant : OAuth.DeviceAuthorizationGrant)
  | approveDeviceAuthorizationGrant (userCode userId : String) (approvedAt : Nat)
  | recordDeviceAuthorizationPoll (deviceCodeHash : String) (polledAt interval : Nat)
  | consumeDeviceAuthorizationGrant (deviceCodeHash : String)
  | applyHrBatch (synced : Bool) (batch : HrBatch)
  | createRealm (tenant realmId issuer : String)
  | deleteRealm (id expectedTenant : String)

def step (s : Store) (k : Persist × Call) : QidResult Unit × Store :=
  match k.2 with
  | .createUser user => createUser k.1 s user
  | .updateUser user realm => updateUser k.1 s user realm
  | .verifyEmail id => verifyEmail k.1 s id
  | .deleteUser id realm => deleteUser k.1 s id realm
  | .createClient client => createClient k.1 s client
  | .updateClient client => updateClient k.1 s client
  | .deleteClient realmId id => deleteClient k.1 s realmId id
  | .createScimUser user => createScimUser k.1 s user
  | .mutateScimUser id mutation =>
    let r := mutateScimUser k.1 s id mutation
    (r.1.map fun _ => (), r.2)
  | .createScimGroup group => createScimGroup k.1 s group
  | .mutateScimGroup id mutation =>
    let r := mutateScimGroup k.1 s id mutation
    (r.1.map fun _ => (), r.2)
  | .storeDeviceAuthorizationGrant grant => storeDeviceAuthorizationGrant k.1 s grant
  | .approveDeviceAuthorizationGrant userCode userId approvedAt =>
    approveDeviceAuthorizationGrant k.1 s userCode userId approvedAt
  | .recordDeviceAuthorizationPoll hash polledAt interval =>
    recordDeviceAuthorizationPoll k.1 s hash polledAt interval
  | .consumeDeviceAuthorizationGrant hash => consumeDeviceAuthorizationGrant k.1 s hash
  | .applyHrBatch synced batch =>
    let r := applyHrBatch k.1 synced s batch
    (r.1.map fun _ => (), r.2)
  | .createRealm tenant realmId issuer => createRealm k.1 s tenant realmId issuer
  | .deleteRealm id expectedTenant => deleteRealm k.1 s id expectedTenant

/-- A client is updated under the id it has, or no other client has its client id. -/
def Call.Bound (s : Store) : Call → Prop
  | .updateClient client =>
    (s.clients.find client.id).isSome = true ∨ s.clients.Free clientIdentity.identity client
  | _ => True

section

variable {s : Store} (persist : Persist)

theorem unique_createUser (h : Unique s) (user : Models.User) :
    Unique (createUser persist s user).2 := by
  rw [createUser]
  split
  · exact h
  · rename_i users hnew
    exact { h with users := distinct_insertNew h.users hnew }

theorem of_emailHeldByAnother (h : emailHeldByAnother s user = none) :
    s.users.Free userIdentity.identity user := by
  intro w hw hne i hi hi'
  simp only [userIdentity, Option.map_eq_some_iff] at hi hi'
  obtain ⟨email, hemail, rfl⟩ := hi
  obtain ⟨email', hemail', hpair⟩ := hi'
  obtain ⟨hrealm, rfl⟩ := Prod.mk.inj hpair
  rw [emailHeldByAnother, hemail, Option.filter_some] at h
  split at h
  · cases h
  · rename_i hheld
    refine hheld (List.any_eq_true.mpr ⟨w, Table.mem_values.mpr hw, ?_⟩)
    simp only [hrealm, hemail', Bool.and_eq_true, bne_iff_ne, beq_iff_eq, and_true]
    exact hne

section

variable (h : Unique s)
include h

theorem unique_updateUser (user : Models.User) (realm : Option String) :
    Unique (updateUser persist s user realm).2 := by
  simp only [updateUser]
  split
  · exact h
  · split
    · exact h
    · rename_i hheld
      exact { h with users := h.users.put (of_emailHeldByAnother hheld) }

theorem unique_verifyEmail (id : String) : Unique (verifyEmail persist s id).2 := by
  rw [verifyEmail]
  split
  · exact h
  · exact h
  · rename_i user hfind _
    exact { h with
      users := h.users.put (h.users.free_of_same (Table.find_key hfind) rfl rfl) }

theorem unique_removeAuthState (users : List String) (realm : Option String) :
    Unique (s.removeAuthState users realm) :=
  { h with
    users := h.users.retain _
    deviceGrants := h.deviceGrants.retain _ }

theorem unique_removeRealm (realm : String) : Unique (s.removeRealm realm) := by
  have hauth := unique_removeAuthState h (s.usersOf realm) (some realm)
  exact { hauth with
    clients := hauth.clients.retain _
    scimUsers := hauth.scimUsers.retain _
    scimGroups := hauth.scimGroups.retain _ }

theorem unique_createClient (client : Models.Client) :
    Unique (createClient persist s client).2 := by
  rw [createClient]
  split
  · exact h
  · rename_i clients hnew
    exact { h with clients := distinct_insertNew h.clients hnew }

theorem free_of_ensureSameBinding {message : String}
    (hsame : ensureSameBinding ((s.clients.find client.id).map fun c => (c.realmId, c.clientId))
      (client.realmId, client.clientId) message = .ok ())
    (hbound : (s.clients.find client.id).isSome = true ∨ s.clients.Free clientIdentity.identity
      client) : s.clients.Free clientIdentity.identity client := by
  rcases hbound with hstored | hfree
  · obtain ⟨stored, hfind⟩ := Option.isSome_iff_exists.mp hstored
    rw [ensureSameBinding, hfind, Option.map_some] at hsame
    split at hsame
    · cases hsame
    · rename_i hkept
      rw [Option.any_some, decide_eq_true_eq, not_not] at hkept
      exact h.clients.free_of_same (Table.find_key hfind) (Table.key_of_find hfind).symm
        (congrArg some hkept.symm)
  · exact hfree

theorem unique_updateClient (client : Models.Client) (hbound : (Call.updateClient client).Bound s) :
    Unique (updateClient persist s client).2 := by
  rw [updateClient]
  split
  · exact h
  · rename_i hsame
    exact { h with clients := h.clients.put (free_of_ensureSameBinding h hsame hbound) }

theorem unique_deleteClient (realmId id : String) :
    Unique (deleteClient persist s realmId id).2 := by
  rw [deleteClient]
  split
  · exact { h with clients := h.clients.erase id }
  · exact h

theorem unique_createScimUser (user : ScimUser) : Unique (createScimUser persist s user).2 := by
  rw [createScimUser]
  split
  · exact h
  · rename_i users hnew
    exact { h with scimUsers := distinct_insertNew h.scimUsers hnew }

theorem unique_mutateScimUser (id : String)
    (mutation : ScimUser → QidResult (ScimMutation ScimUser)) :
    Unique (mutateScimUser persist s id mutation).2 := by
  rw [mutateScimUser]
  split
  · exact h
  · exact h
  · rename_i user users hmutated
    exact { h with scimUsers := distinct_mutateResource h.scimUsers hmutated }

theorem unique_createScimGroup (group : ScimGroup) :
    Unique (createScimGroup persist s group).2 := by
  rw [createScimGroup]
  split
  · exact h
  · rename_i groups hnew
    exact { h with scimGroups := distinct_insertNew h.scimGroups hnew }

theorem unique_mutateScimGroup (id : String)
    (mutation : ScimGroup → QidResult (ScimMutation ScimGroup)) :
    Unique (mutateScimGroup persist s id mutation).2 := by
  rw [mutateScimGroup]
  split
  · exact h
  · exact h
  · rename_i group groups hmutated
    exact { h with scimGroups := distinct_mutateResource h.scimGroups hmutated }

theorem unique_storeDeviceAuthorizationGrant (grant : OAuth.DeviceAuthorizationGrant) :
    Unique (storeDeviceAuthorizationGrant persist s grant).2 := by
  rw [storeDeviceAuthorizationGrant]
  split
  · exact h
  · rename_i grants hnew
    exact { h with deviceGrants := distinct_insertNew h.deviceGrants hnew }

/-- A grant that is changed keeps its codes. -/
theorem unique_putGrant {grant' : OAuth.DeviceAuthorizationGrant}
    (hfind : s.deviceAuthorizationGrants.find grant.deviceCodeHash = some grant)
    (hhash : grant'.deviceCodeHash = grant.deviceCodeHash)
    (hcode : grant'.userCode = grant.userCode) :
    Unique { s with deviceAuthorizationGrants := s.deviceAuthorizationGrants.put grant' } := by
  have hident : deviceGrantIdentity.identity grant' = deviceGrantIdentity.identity grant := by
    simp only [deviceGrantIdentity, hcode]
  exact { h with
    deviceGrants := h.deviceGrants.put (h.deviceGrants.free_of_same hfind hhash hident) }

end

variable (h : Unique s)
include h

theorem unique_approveDeviceAuthorizationGrant (userCode userId : String) (approvedAt : Nat) :
    Unique (approveDeviceAuthorizationGrant persist s userCode userId approvedAt).2 := by
  rw [approveDeviceAuthorizationGrant]
  split
  · exact h
  · exact h
  · rename_i grant hfound
    exact unique_putGrant h (OAuth.Store.of_uniqueMatch hfound).1 rfl rfl

theorem unique_recordDeviceAuthorizationPoll (hash : String) (polledAt interval : Nat) :
    Unique (recordDeviceAuthorizationPoll persist s hash polledAt interval).2 := by
  rw [recordDeviceAuthorizationPoll]
  split
  · exact h
  · rename_i grant hfind
    exact unique_putGrant h (Table.find_key hfind) rfl rfl

theorem unique_consumeDeviceAuthorizationGrant (hash : String) :
    Unique (consumeDeviceAuthorizationGrant persist s hash).2 := by
  rw [consumeDeviceAuthorizationGrant]
  split
  · exact h
  · rename_i grant hfind
    split
    · exact h
    · exact unique_putGrant h (Table.find_key hfind) rfl rfl

theorem unique_applyHrBatch (synced : Bool) (batch : HrBatch) :
    Unique (applyHrBatch persist synced s batch).2 := by
  have hcommitted := committed persist synced s batch
  rw [applyHrBatch]
  generalize commitHrInner persist synced s batch = c at hcommitted ⊢
  cases hcommitted with
  | refused e | replayed result horder => exact h
  | applied changes horder hvalid =>
    exact { h with scimUsers := distinct_applyHr h.scimUsers hvalid }

theorem unique_createRealm (tenant realmId issuer : String) :
    Unique (createRealm persist s tenant realmId issuer).2 := by
  have hremoved := unique_removeRealm h realmId
  simp only [createRealm]
  split
  · exact h
  · split
    · exact h
    · exact { hremoved with users := hremoved.users }

theorem unique_deleteRealm (id expectedTenant : String) :
    Unique (deleteRealm persist s id expectedTenant).2 := by
  rw [deleteRealm]
  split
  · exact h
  · split
    · exact h
    · exact unique_removeRealm h id

theorem Unique.step (k : Persist × Call) (hbound : k.2.Bound s) : Unique (step s k).2 := by
  obtain ⟨persist, call⟩ := k
  cases call with
  | createUser user => exact unique_createUser persist h user
  | updateUser user realm => exact unique_updateUser persist h user realm
  | verifyEmail id => exact unique_verifyEmail persist h id
  | deleteUser id realm =>
    show Unique (deleteUser persist s id realm).2
    rw [deleteUser]
    split
    · exact h
    · exact unique_removeAuthState h [id] none
  | createClient client => exact unique_createClient persist h client
  | updateClient client => exact unique_updateClient persist h client hbound
  | deleteClient realmId id => exact unique_deleteClient persist h realmId id
  | createScimUser user => exact unique_createScimUser persist h user
  | mutateScimUser id mutation => exact unique_mutateScimUser persist h id mutation
  | createScimGroup group => exact unique_createScimGroup persist h group
  | mutateScimGroup id mutation => exact unique_mutateScimGroup persist h id mutation
  | storeDeviceAuthorizationGrant grant =>
    exact unique_storeDeviceAuthorizationGrant persist h grant
  | approveDeviceAuthorizationGrant userCode userId approvedAt =>
    exact unique_approveDeviceAuthorizationGrant persist h userCode userId approvedAt
  | recordDeviceAuthorizationPoll hash polledAt interval =>
    exact unique_recordDeviceAuthorizationPoll persist h hash polledAt interval
  | consumeDeviceAuthorizationGrant hash =>
    exact unique_consumeDeviceAuthorizationGrant persist h hash
  | applyHrBatch synced batch => exact unique_applyHrBatch persist h synced batch
  | createRealm tenant realmId issuer => exact unique_createRealm persist h tenant realmId issuer
  | deleteRealm id expectedTenant => exact unique_deleteRealm persist h id expectedTenant

end

/-- A lookup by a unique identity is not ambiguous. -/
theorem uniqueMatch_filter {V I : Type} [DecidableEq I] {key : V → String} {ident : V → Option I}
    {t : Table V key} (h : t.Distinct ident) (i : I) (message : String) :
    OAuth.Store.uniqueMatch (t.values.filter fun v => ident v = some i) message =
      .ok (t.values.filter fun v => ident v = some i).head? := by
  rcases h.filter_values i with hnil | ⟨v, -, -, hone⟩
  · rw [hnil]
    rfl
  · rw [hone]
    rfl

/-- From the empty store, and as long as every update of a client is of a stored id or of an
identity that no client has, no two records share an identity, and a lookup by identity finds the
record that has it, whatever the order of the map. -/
theorem identities_unique (calls : List (Persist × Call))
    (hbound : ∀ e ∈ run step {} calls, e.call.2.Bound e.before) (s : Store)
    (hs : s = final step {} calls) :
    Unique s ∧
    (∀ realmId email, ∃ found, getUserByEmail s realmId email = .ok found ∧
      ∀ user, found = some user ↔ s.users.find user.id = some user ∧ user.realmId = realmId ∧
        user.email = some email) ∧
    (∀ realmId clientId client, getClientByClientId s realmId clientId = some client ↔
      s.clients.find client.id = some client ∧ client.realmId = realmId ∧
        client.clientId = clientId) ∧
    (∀ userCode, ∃ found, getDeviceAuthorizationGrantByUserCode s userCode = .ok found ∧
      ∀ grant, found = some grant ↔
        s.deviceAuthorizationGrants.find grant.deviceCodeHash = some grant ∧
          grant.userCode = userCode) := by
  have hunique : Unique s := by
    rw [hs]
    exact (run_invariant step (fun _ k h hk => h.step k hk) unique_empty hbound).2
  refine ⟨hunique, fun realmId email => ?_, fun realmId clientId client => ?_, fun userCode => ?_⟩
  · refine ⟨_, uniqueMatch_filter hunique.users (realmId, email) _, fun user => ?_⟩
    rw [hunique.users.head?_filter]
    refine and_congr_right fun _ => ?_
    simp only [userIdentity, Option.map_eq_some_iff, Prod.mk.injEq]
    constructor
    · rintro ⟨e, he, hrealm, rfl⟩
      exact ⟨hrealm, he⟩
    · intro hu
      exact ⟨email, hu.2, hu.1, rfl⟩
  · rw [getClientByClientId, ← List.head?_filter, hunique.clients.head?_filter]
    simp only [clientIdentity, Option.some.injEq, Prod.mk.injEq]
  · refine ⟨_, uniqueMatch_filter hunique.deviceGrants ("", userCode) _, fun grant => ?_⟩
    rw [hunique.deviceGrants.head?_filter]
    simp only [deviceGrantIdentity, Option.some.injEq, Prod.mk.injEq, true_and]

def sampleClient (id clientId : String) : Models.Client :=
  { id := id, realmId := "r", clientId := clientId, clientType := .isPublic, redirectUris := []
    sectorIdentifierUri := none, subjectType := none }

theorem identities_unique_sample :
    getClientByClientId
      (final step {} [(.done, .createClient (sampleClient "c1" "app")),
        (.done, .updateClient (sampleClient "c2" "web"))]) "r" "app" =
      some (sampleClient "c1" "app") := by
  have hbound : ∀ e ∈ run step {} [(.done, Call.createClient (sampleClient "c1" "app")),
      (.done, .updateClient (sampleClient "c2" "web"))], e.call.2.Bound e.before := by
    intro e he
    rw [run_cons, run_cons, run_nil, List.mem_cons, List.mem_singleton] at he
    rcases he with rfl | rfl
    · trivial
    · refine Or.inr fun w hw hne i hi hi' => ?_
      have hmem : w ∈ [sampleClient "c1" "app"] := Table.mem_values.mpr hw
      rw [List.mem_singleton] at hmem
      rw [hmem, ← hi] at hi'
      exact absurd hi' (by decide)
  exact ((identities_unique _ hbound _ rfl).2.2.1 "r" "app" (sampleClient "c1" "app")).mpr
    ⟨by decide +kernel, rfl, rfl⟩

def duplicateCalls : List (Persist × Call) :=
  [(.done, .createClient (sampleClient "c1" "app")),
    (.done, .updateClient (sampleClient "c2" "app"))]

/-- The update makes a second client with the identity of the first, and which one a lookup finds
depends on the order of the map. -/
theorem update_client_duplicates_identity :
    (run step {} duplicateCalls).map (·.reply) = [.ok (), .ok ()] ∧
    (final step {} duplicateCalls).clients.find "c1" = some (sampleClient "c1" "app") ∧
    (final step {} duplicateCalls).clients.find "c2" = some (sampleClient "c2" "app") ∧
    ¬ Unique (final step {} duplicateCalls) ∧
    ((final step {} duplicateCalls).clients.values.find? fun c =>
      clientIdentity.identity c = some ("r", "app")) ≠
    ((final step {} duplicateCalls).clients.values.reverse.find? fun c =>
      clientIdentity.identity c = some ("r", "app")) := by
  have hfirst : (final step {} duplicateCalls).clients.find "c1" =
      some (sampleClient "c1" "app") := by decide +kernel
  have hsecond : (final step {} duplicateCalls).clients.find "c2" =
      some (sampleClient "c2" "app") := by decide +kernel
  refine ⟨by decide +kernel, hfirst, hsecond, fun h => ?_, by decide +kernel⟩
  have hsame := h.clients (sampleClient "c1" "app") (sampleClient "c2" "app") hfirst hsecond
    ("r", "app") rfl rfl
  exact absurd (congrArg Models.Client.id hsame) (by decide)

end Uniqueness
end Qid.File
