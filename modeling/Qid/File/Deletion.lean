/-
What a deletion removes.

`Owner` is who a record belongs to: a realm, a user, and through a session or a token family the
owners of those. Two collections are exceptions: no deletion removes a continuation, and the
receipts of security events are removed by the text of their key, which a separator inside a realm
id makes ambiguous.
-/
import Qid.File.Delete

namespace Qid.File

open Lib Storage Scim

variable {id r : String} {V : Type}

/-- The collections of which the owners alone are read. -/
inductive RealmTable where
  | serviceAccounts | policyBundles | vcCredentialStatuses | parRequests | scimDevices
  | scimEventSubscriptions | fedcmIdentities | workloadIdentities | workloadCertificates
  | customDomains | ciamBrands | appCatalogEntries | ssfStreams

def Store.realmTable (s : Store) : RealmTable → Table RealmRecord (·.id)
  | .serviceAccounts => s.serviceAccounts
  | .policyBundles => s.policyBundles
  | .vcCredentialStatuses => s.vcCredentialStatuses
  | .parRequests => s.parRequests
  | .scimDevices => s.scimDevices
  | .scimEventSubscriptions => s.scimEventSubscriptions
  | .fedcmIdentities => s.fedcmIdentities
  | .workloadIdentities => s.workloadIdentities
  | .workloadCertificates => s.workloadCertificates
  | .customDomains => s.customDomains
  | .ciamBrands => s.ciamBrands
  | .appCatalogEntries => s.appCatalogEntries
  | .ssfStreams => s.ssfStreams

inductive UserTable where
  | devices | ciamConsentGrants | ciamVerificationChallenges | ciamIdentityLinks
  | passwordResetTokens | ciamProfiles

def Store.userTable (s : Store) : UserTable → Table RealmUserRecord (·.id)
  | .devices => s.devices
  | .ciamConsentGrants => s.ciamConsentGrants
  | .ciamVerificationChallenges => s.ciamVerificationChallenges
  | .ciamIdentityLinks => s.ciamIdentityLinks
  | .passwordResetTokens => s.passwordResetTokens
  | .ciamProfiles => s.ciamProfiles

inductive Record where
  | oidcContinuation (c : StoredContinuation)
  | pushAuthenticator (id : String) (row : Push.PushAuthenticatorRecord)
  | pushLogin (id : String) (challenge : Push.PushLoginChallenge)
  | realmIssuer (realm issuer : String)
  | realmTenant (realm tenant : String)
  | user (user : Models.User)
  | credentialPassword (cred : Session.PasswordCredential)
  | client (client : Models.Client)
  | session (session : Session.LoginSession)
  | authorizationCode (code : OAuth.AuthorizationCode)
  | tokenFamily (family : OAuth.TokenFamily)
  | accessToken (token : OAuth.AccessToken)
  | webauthnCredentials (row : WebAuthnCredentials)
  | totpCredential (cred : Session.TotpCredential)
  | deviceAuthorizationGrant (grant : OAuth.DeviceAuthorizationGrant)
  | backchannelAuthenticationGrant (grant : BackchannelAuthenticationGrant)
  | scimUser (user : ScimUser)
  | hrReceipts (realm : String) (receipts : HashMap HrReceipt)
  | scimGroup (group : ScimGroup)
  | ssfSetReplay (row : SsfSetReplay)
  | ofRealm (table : RealmTable) (record : RealmRecord)
  | ofUser (table : UserTable) (record : RealmUserRecord)

def Store.Holds (s : Store) : Record → Prop
  | .oidcContinuation c => s.oidcContinuations.find c.record.id = some c
  | .pushAuthenticator id row => s.push.authenticators.lookup id = some row
  | .pushLogin id c => s.push.logins.lookup id = some c
  | .realmIssuer realm issuer => s.realmIssuers.lookup realm = some issuer
  | .realmTenant realm tenant => s.realmTenants.lookup realm = some tenant
  | .user u => s.users.find u.id = some u
  | .credentialPassword cred => s.credentialsPassword.find cred.userId = some cred
  | .client c => s.clients.find c.id = some c
  | .session x => s.sessions.find x.id = some x
  | .authorizationCode code => s.authorizationCodes.find code.codeHash = some code
  | .tokenFamily family => s.tokenFamilies.find family.id = some family
  | .accessToken token => s.accessTokens.find token.jti = some token
  | .webauthnCredentials row => s.webauthnCredentials.find row.userId = some row
  | .totpCredential cred => s.totpCredentials.find cred.id = some cred
  | .deviceAuthorizationGrant grant =>
    s.deviceAuthorizationGrants.find grant.deviceCodeHash = some grant
  | .backchannelAuthenticationGrant grant =>
    s.backchannelAuthenticationGrants.find grant.authReqIdHash = some grant
  | .scimUser u => s.scimUsers.find u.id = some u
  | .hrReceipts realm receipts => s.hrReceipts.lookup realm = some receipts
  | .scimGroup group => s.scimGroups.find group.id = some group
  | .ssfSetReplay row => s.ssfSetReplay.find row.key = some row
  | .ofRealm table record => (s.realmTable table).find record.id = some record
  | .ofUser table record => (s.userTable table).find record.id = some record

structure Owner where
  realm : Option String := none
  user : Option String := none
  session : Option String := none
  family : Option String := none

def Record.owner : Record → Owner
  | .oidcContinuation c => { realm := some c.record.realmId, user := some c.record.userId }
  | .pushAuthenticator _ row =>
    { realm := some row.authenticator.realmId, user := some row.authenticator.userId }
  | .pushLogin _ c => { realm := some c.realmId, user := some c.userId }
  | .realmIssuer realm _ | .realmTenant realm _ => { realm := some realm }
  | .user u => { realm := some u.realmId, user := some u.id }
  | .credentialPassword cred => { user := some cred.userId }
  | .client c => { realm := some c.realmId }
  | .session x => { realm := some x.realmId, user := some x.userId }
  | .authorizationCode code =>
    { realm := some code.realmId, user := some code.userId, session := code.sessionId }
  | .tokenFamily family =>
    { realm := some family.realmId, user := some family.userId, session := family.sessionId }
  | .accessToken token =>
    { realm := some token.realmId, user := some token.userId, family := token.familyId }
  | .webauthnCredentials row => { user := some row.userId }
  | .totpCredential cred => { user := some cred.userId }
  | .deviceAuthorizationGrant grant | .backchannelAuthenticationGrant grant =>
    { realm := some grant.realmId, user := grant.userId }
  | .scimUser u => { realm := some u.realmId }
  | .hrReceipts realm _ => { realm := some realm }
  | .scimGroup group => { realm := some group.realmId }
  | .ssfSetReplay row => { realm := some row.realmId }
  | .ofRealm _ record => { realm := some record.realmId }
  | .ofUser _ record => { realm := some record.realmId, user := some record.userId }

structure Scope where
  user : String → Prop
  realm : Option String

section

variable (s : Store) (scope : Scope)

def Owner.Direct (o : Owner) : Prop :=
  (∃ r, o.realm = some r ∧ scope.realm = some r) ∨ ∃ u, o.user = some u ∧ scope.user u

def SessionOf (id : String) : Prop :=
  ∃ session, s.Holds (.session session) ∧ session.id = id ∧
    (Record.session session).owner.Direct scope

/-- A token family of the scope, or of one of its sessions. -/
def FamilyOf (id : String) : Prop :=
  ∃ family, s.Holds (.tokenFamily family) ∧ family.id = id ∧
    ((Record.tokenFamily family).owner.Direct scope ∨
      ∃ sid, family.sessionId = some sid ∧ SessionOf s scope sid)

/-- Directly, or through a session or a token family. -/
def Record.BelongsTo (record : Record) : Prop :=
  record.owner.Direct scope ∨
    (∃ sid, record.owner.session = some sid ∧ SessionOf s scope sid) ∨
    ∃ fid, record.owner.family = some fid ∧ FamilyOf s scope fid

end

variable {record : Record} {s : Store}

section

variable {users : List String} {realm : Option String} {v : V} {keep : V → Bool} {key : V → String}
  {m : HashMap V} {r' : String} {t : Table V key}

abbrev scopeOf (users : List String) (realm : Option String) : Scope := ⟨(· ∈ users), realm⟩

theorem direct_scopeOf {o : Owner} : o.Direct (scopeOf users realm) ↔
    o.user.any (· ∈ users) = true ∨ o.realm.any (fun r => realm == some r) = true := by
  simp only [Option.any_eq_true, decide_eq_true_eq, beq_iff_eq]
  exact or_comm

theorem mem_removedSessions :
    id ∈ s.removedSessions users realm ↔ SessionOf s (scopeOf users realm) id := by
  simp only [Store.removedSessions, List.mem_map, List.mem_filter, Table.mem_values, SessionOf,
    direct_scopeOf, Record.owner, Bool.or_eq_true]
  exact exists_congr fun x => and_assoc.trans (and_congr_right fun _ => and_comm)

theorem mem_removedFamilies :
    id ∈ s.removedFamilies users realm ↔ FamilyOf s (scopeOf users realm) id := by
  simp only [Store.removedFamilies, List.mem_map, List.mem_filter, Table.mem_values, FamilyOf,
    direct_scopeOf, Record.owner, Option.any_some, Bool.or_eq_true, Option.any_eq_true,
    decide_eq_true_eq, mem_removedSessions]
  exact exists_congr fun f => and_assoc.trans (and_congr_right fun _ => and_comm)

def Owner.removed (o : Owner) (s : Store) (users : List String) (realm : Option String) : Bool :=
  o.user.any (· ∈ users) || o.realm.any (fun r => realm == some r) ||
    o.session.any (· ∈ s.removedSessions users realm) ||
    o.family.any (· ∈ s.removedFamilies users realm)

theorem removed_iff (record : Record) :
    record.owner.removed s users realm = true ↔ record.BelongsTo s (scopeOf users realm) := by
  rw [Record.BelongsTo, direct_scopeOf]
  simp only [Owner.removed, Bool.or_eq_true, or_assoc, Option.any_eq_true, decide_eq_true_eq,
    mem_removedSessions, mem_removedFamilies]

/-- A record of the collections that `remove_auth_state` goes through. -/
def Record.isAuthState : Record → Bool
  | .pushAuthenticator _ _ | .pushLogin _ _ | .user _ | .credentialPassword _ | .session _
  | .authorizationCode _ | .tokenFamily _ | .accessToken _ | .webauthnCredentials _
  | .totpCredential _ | .deviceAuthorizationGrant _ | .backchannelAuthenticationGrant _
  | .ofUser _ _ => true
  | _ => false

theorem holds_retain (h : keep v = !record.owner.removed s users realm) :
    (t.retain keep).find (key v) = some v ↔
      t.find (key v) = some v ∧ ¬ record.BelongsTo s (scopeOf users realm) := by
  rw [Table.find_retain_eq_some, h, Bool.not_eq_true', ← removed_iff, Bool.not_eq_true]

theorem holds_filter (h : keep v = !record.owner.removed s users realm) :
    (KeyMap.filter (fun _ v => keep v) m).lookup id = some v ↔
      m.lookup id = some v ∧ ¬ record.BelongsTo s (scopeOf users realm) := by
  rw [KeyMap.lookup_filter, Option.filter_eq_some_iff, h, Bool.not_eq_true', ← removed_iff,
    Bool.not_eq_true]

theorem holds_removeAuthState_other (h : record.isAuthState = false) :
    (s.removeAuthState users realm).Holds record ↔ s.Holds record := by
  cases record <;> first | exact Iff.rfl | cases h

/-- Of the collections it goes through, `remove_auth_state` keeps what does not belong to the
scope. -/
theorem holds_removeAuthState (hrealm : ∀ u, s.Holds (.user u) → realm = some u.realmId →
      u.id ∈ users) (h : record.isAuthState = true) :
    (s.removeAuthState users realm).Holds record ↔
      s.Holds record ∧ ¬ record.BelongsTo s (scopeOf users realm) := by
  cases record with
  | pushAuthenticator _ _ | pushLogin _ _ =>
    refine holds_filter ?_
    simp [Owner.removed, Record.owner]
  | user u =>
    refine Table.find_retain_eq_some.trans (and_congr_right fun hu => ?_)
    simp [Record.BelongsTo, Owner.Direct, Record.owner]
    exact fun hid hr => hid (hrealm u hu hr)
  | session _ | tokenFamily _ =>
    refine Table.find_retain_eq_some.trans (and_congr_right fun hv => ?_)
    rw [← removed_iff, Bool.not_eq_true', decide_eq_false_iff_not]
    refine not_congr ((Table.mem_map_filter_values hv).trans ?_)
    simp [Owner.removed, Record.owner]
  | credentialPassword _ | webauthnCredentials _ | totpCredential _ | authorizationCode _
  | accessToken _ | deviceAuthorizationGrant _ | backchannelAuthenticationGrant _ =>
    refine holds_retain ?_
    simp [Owner.removed, Record.owner]
  | ofUser table _ =>
    cases table
    all_goals
      refine holds_retain ?_
      simp [Owner.removed, Record.owner]
  | _ => cases h

def realmScope (s : Store) (realm : String) : Scope where
  user u := ∃ user, s.Holds (.user user) ∧ user.id = u ∧ user.realmId = realm
  realm := some realm

def userScope (id : String) : Scope := ⟨(· = id), none⟩

theorem mem_usersOf {u : String} : u ∈ s.usersOf r ↔ (realmScope s r).user u := by
  simp only [Store.usersOf, List.mem_map, List.mem_filter, Table.mem_values, beq_iff_eq, realmScope]
  exact exists_congr fun user => and_assoc.trans (and_congr_right fun _ => and_comm)

theorem scopeOf_usersOf (s : Store) (r : String) :
    scopeOf (s.usersOf r) (some r) = realmScope s r := by
  rw [Scope.mk.injEq]
  exact ⟨funext fun u => propext mem_usersOf, rfl⟩

theorem scopeOf_singleton (id : String) : scopeOf [id] none = userScope id := by
  rw [Scope.mk.injEq]
  exact ⟨funext fun u => propext List.mem_singleton, rfl⟩

theorem holds_removeUser (h : record.isAuthState = true) :
    (s.removeAuthState [id] none).Holds record ↔
      s.Holds record ∧ ¬ record.BelongsTo s (userScope id) := by
  rw [← scopeOf_singleton]
  exact holds_removeAuthState (fun _ _ hr => by cases hr) h

theorem belongsTo_of_owner_realm {scope : Scope} (h : record.owner = { realm := some r }) :
    record.BelongsTo s scope ↔ scope.realm = some r := by
  simp [Record.BelongsTo, Owner.Direct, h]

theorem holds_retain_realm (howner : record.owner = { realm := some r' }) (h : keep v = (r' != r)) :
    (t.retain keep).find (key v) = some v ↔
      t.find (key v) = some v ∧ ¬ record.BelongsTo s (realmScope s r) := by
  rw [Table.find_retain_eq_some, belongsTo_of_owner_realm howner, h, bne_iff_ne, realmScope,
    Option.some.injEq, ne_comm]

theorem holds_erase_realm (howner : record.owner = { realm := some r' }) :
    (m.erase r).lookup r' = some v ↔
      m.lookup r' = some v ∧ ¬ record.BelongsTo s (realmScope s r) := by
  rw [KeyMap.lookup_erase_eq, belongsTo_of_owner_realm howner, realmScope, Option.some.injEq]
  split_ifs with h
  · exact ⟨fun hn => (by cases hn), fun hn => absurd h.symm hn.2⟩
  · exact ⟨fun hv => ⟨hv, fun heq => h heq.symm⟩, fun hv => hv.1⟩

/-- The records that no deletion treats as the others. -/
def Record.isExceptional : Record → Bool
  | .oidcContinuation _ | .ssfSetReplay _ => true
  | _ => false

theorem holds_removeRealm (h : record.isExceptional = false) :
    (s.removeRealm r).Holds record ↔ s.Holds record ∧ ¬ record.BelongsTo s (realmScope s r) := by
  by_cases hauth : record.isAuthState = true
  · have hsame : (s.removeRealm r).Holds record ↔
        (s.removeAuthState (s.usersOf r) (some r)).Holds record := by
      cases record <;> first | exact Iff.rfl | cases hauth
    rw [hsame, ← scopeOf_usersOf]
    refine holds_removeAuthState (fun u hu hr => ?_) hauth
    exact mem_usersOf.mpr ⟨u, hu, rfl, (Option.some.inj hr).symm⟩
  · cases record with
    | client _ | scimUser _ | scimGroup _ => exact holds_retain_realm rfl rfl
    | ofRealm table _ => cases table <;> exact holds_retain_realm rfl rfl
    | realmIssuer _ _ | realmTenant _ _ | hrReceipts _ _ => exact holds_erase_realm rfl
    | oidcContinuation _ | ssfSetReplay _ => cases h
    | _ => exact absurd rfl hauth

end

def SsfSetReplay.keyOf (row : SsfSetReplay) (r : String) : Bool :=
  startsWith (String.ofList (r.toList ++ [unitSeparator])) row.key

theorem SsfSetReplay.keyOf_realmId (row : SsfSetReplay) : row.keyOf row.realmId = true := by
  rw [keyOf, startsWith, List.isPrefixOf_iff_prefix, key, ssfSetReplayKey, String.toList_ofList,
    String.toList_ofList]
  refine ⟨row.issuer.toList ++ unitSeparator :: row.streamId.toList ++
    unitSeparator :: row.jti.toList, ?_⟩
  simp

/-- What passes the test is a receipt of the realm. -/
def ReceiptsApart (s : Store) (r : String) : Prop :=
  ∀ row, s.Holds (.ssfSetReplay row) → row.keyOf r = true → row.realmId = r

inductive Deletion where
  | realm (id tenant : String)
  | user (id : String) (within : Option String)

namespace Deletion

def run (persist : Persist) (s : Store) : Deletion → QidResult Unit × Store
  | .realm id tenant => deleteRealm persist s id tenant
  | .user id within => deleteUser persist s id within

def scope (s : Store) : Deletion → Scope
  | .realm id _ => realmScope s id
  | .user id _ => userScope id

/-- The tenant owns the realm; the user is of the realm that the call names, if any. -/
def Accepted (s : Store) : Deletion → Prop
  | .realm id tenant => s.realmTenants.lookup id = some tenant
  | .user id within => ∀ r ∈ within, ∃ u, s.users.find id = some u ∧ u.realmId = r

/-- What has to go: with a realm everything, and with a user what lets someone act as the user,
which a consumed continuation does not. -/
def Covers : Deletion → Record → Prop
  | .user _ _, .oidcContinuation c => c.consumed = false
  | _, _ => True

/-- No continuation has to go, and no receipt of another realm is taken for one of the realm. -/
structure Settled (s : Store) (d : Deletion) : Prop where
  nonePending : ∀ c, s.Holds (.oidcContinuation c) → d.Covers (.oidcContinuation c) →
    ¬ (Record.oidcContinuation c).BelongsTo s (d.scope s)
  apart : ∀ id tenant, d = .realm id tenant → ReceiptsApart s id

end Deletion

/-- Of what has to go, what is left is what does not belong to the scope. -/
structure DeletedFrom (s s' : Store) (d : Deletion) : Prop where
  exactly : ∀ record, d.Covers record →
    (s'.Holds record ↔ s.Holds record ∧ ¬ record.BelongsTo s (d.scope s))
  rest : ∀ record, ¬ d.Covers record → (s'.Holds record ↔ s.Holds record)
  /-- The times of issuance go with their rows. -/
  loginIssued : ∀ id, s'.push.loginIssuedAt.lookup id =
    if id ∈ s'.push.logins then s.push.loginIssuedAt.lookup id else none
  registrationIssued : ∀ id, s'.push.registrationIssuedAt.lookup id =
    if id ∈ s'.push.authenticators then s.push.registrationIssuedAt.lookup id else none

section

variable {persist : Persist} {s' : Store} {tenant : String}

theorem lookup_retain_mem (m : HashMap Nat) (rows : HashMap V) (id : String) :
    (m.retain fun id => id ∈ rows).lookup id = if id ∈ rows then m.lookup id else none := by
  rw [HashMap.lookup_retain]
  by_cases h : id ∈ rows
  · rw [if_pos h, if_pos (decide_eq_true h)]
  · rw [if_neg h, if_neg (by simpa using h)]

theorem holds_receipt_removeRealm {row : SsfSetReplay} :
    (s.removeRealm r).Holds (.ssfSetReplay row) ↔
      s.Holds (.ssfSetReplay row) ∧ row.keyOf r = false :=
  Table.find_retain_eq_some.trans (and_congr_right fun _ => Bool.not_eq_true' _ ▸ Iff.rfl)

theorem deletedFrom_removeRealm :
    DeletedFrom s (s.removeRealm r) (.realm r tenant) ↔ (Deletion.realm r tenant).Settled s := by
  have hbelongs {row : SsfSetReplay} :
      (Record.ssfSetReplay row).BelongsTo s (realmScope s r) ↔ row.realmId = r := by
    rw [belongsTo_of_owner_realm rfl, realmScope, Option.some.injEq, eq_comm]
  constructor
  · intro h
    refine ⟨fun c hc hcovers => ((h.exactly _ hcovers).mp hc).2,
      fun id tenant heq row hrow hkey => ?_⟩
    cases heq
    by_contra hne
    have hkept := (h.exactly (.ssfSetReplay row) trivial).mpr ⟨hrow, hbelongs.not.mpr hne⟩
    rw [(holds_receipt_removeRealm.mp hkept).2] at hkey
    cases hkey
  · intro h
    refine ⟨fun record hcovers => ?_, fun _ hnot => absurd trivial hnot, lookup_retain_mem _ _,
      lookup_retain_mem _ _⟩
    by_cases hexc : record.isExceptional = true
    · cases record with
      | oidcContinuation c => exact ⟨fun hc => ⟨hc, h.nonePending c hc hcovers⟩, fun hc => hc.1⟩
      | ssfSetReplay row =>
        refine holds_receipt_removeRealm.trans (and_congr_right fun hrow => ?_)
        rw [Deletion.scope, hbelongs, ← Bool.not_eq_true]
        exact not_congr ⟨h.apart r tenant rfl row hrow, fun heq => heq ▸ row.keyOf_realmId⟩
      | _ => cases hexc
    · exact holds_removeRealm (by simpa using hexc)

theorem deletedFrom_removeUser {within : Option String} :
    DeletedFrom s (s.removeAuthState [id] none) (.user id within) ↔
      (Deletion.user id within).Settled s := by
  constructor
  · intro h
    exact ⟨fun c hc hcovers => ((h.exactly _ hcovers).mp hc).2, fun _ _ heq => (nomatch heq)⟩
  · intro h
    refine ⟨fun record hcovers => ?_, fun record hnot => ?_, lookup_retain_mem _ _,
      lookup_retain_mem _ _⟩
    · by_cases hauth : record.isAuthState = true
      · exact holds_removeUser hauth
      · rw [holds_removeAuthState_other (by simpa using hauth)]
        refine ⟨fun hrecord => ⟨hrecord, ?_⟩, fun hrecord => hrecord.1⟩
        -- What is left is owned by a realm alone, or is a continuation.
        cases record with
        | oidcContinuation c => exact h.nonePending c hrecord hcovers
        | _ => first
          | exact absurd rfl hauth
          | exact (belongsTo_of_owner_realm rfl).not.mpr fun hr => Option.some_ne_none _ hr.symm
    · cases record with
      | oidcContinuation c => exact Iff.rfl
      | _ => exact absurd trivial hnot

theorem DeletedFrom.nothing_of_realm (h : DeletedFrom s s' (.realm r tenant))
    (hrecord : s'.Holds record) : ¬ record.BelongsTo s' (realmScope s' r) := by
  have hdirect : ∀ {record : Record}, s'.Holds record →
      ¬ record.owner.Direct (realmScope s' r) := by
    intro record hrecord
    rintro (⟨r', hr', hr⟩ | ⟨u, hu, user, huser, -, hr⟩)
    · exact ((h.exactly record trivial).mp hrecord).2 (Or.inl (Or.inl ⟨r', hr', hr⟩))
    · exact ((h.exactly _ trivial).mp huser).2
        (Or.inl (Or.inl ⟨user.realmId, rfl, congrArg some hr.symm⟩))
  have hsession : ∀ sid, ¬ SessionOf s' (realmScope s' r) sid := by
    rintro sid ⟨x, hx, -, hx'⟩
    exact hdirect hx hx'
  rintro (hd | ⟨sid, -, hs⟩ | ⟨fid, -, f, hf, -, hd | ⟨sid, -, hs⟩⟩)
  · exact hdirect hrecord hd
  · exact hsession sid hs
  · exact hdirect hf hd
  · exact hsession sid hs

theorem createRealm_starts_empty {tenant' issuer : String}
    (hsettled : (Deletion.realm id tenant).Settled s)
    (h : createRealm persist s tenant' id issuer = (.ok (), s')) (hrecord : s'.Holds record)
    (hbelongs : record.BelongsTo s' (realmScope s' id)) :
    record = .realmIssuer id issuer ∨ record = .realmTenant id tenant' := by
  have hdeleted := deletedFrom_removeRealm.mpr hsettled
  rw [createRealm] at h
  split at h
  · cases h
  · split at h
    · cases h
    · obtain ⟨-, rfl⟩ := h
      cases record with
      | realmIssuer r i =>
        rcases HashMap.of_lookup_insert hrecord with ⟨rfl, rfl⟩ | ⟨-, hold⟩
        · exact Or.inl rfl
        · exact absurd hbelongs (hdeleted.nothing_of_realm hold)
      | realmTenant r t =>
        rcases HashMap.of_lookup_insert hrecord with ⟨rfl, rfl⟩ | ⟨-, hold⟩
        · exact Or.inr rfl
        · exact absurd hbelongs (hdeleted.nothing_of_realm hold)
      | _ => exact absurd hbelongs (hdeleted.nothing_of_realm hrecord)

/-- A deletion removes whatever belongs to the realm or the user, directly or through a session or a
token family, and nothing else, and a realm created again under the same id holds nothing but its
issuer and its tenant, exactly if no continuation has to go and the test of the receipts tells other
realms apart. -/
theorem deletion_complete_and_framed {d : Deletion} (hsaved : persist.result = .ok ())
    (haccepted : d.Accepted s) :
    ((d.run persist s).1 = .ok () ∧ DeletedFrom s (d.run persist s).2 d ∧
      ∀ id tenant, d = .realm id tenant → ∀ tenant' issuer s',
        createRealm persist (d.run persist s).2 tenant' id issuer = (.ok (), s') →
        ∀ record, s'.Holds record → record.BelongsTo s' (realmScope s' id) →
          record = .realmIssuer id issuer ∨ record = .realmTenant id tenant') ↔ d.Settled s := by
  cases d with
  | user id within =>
    have hfound : ¬ (within.any fun r => (s.users.find id).all fun u => u.realmId != r) = true := by
      rw [Option.any_eq_true]
      rintro ⟨r, hr, hall⟩
      obtain ⟨u, hu, hrealm⟩ := haccepted r hr
      rw [hu, Option.all_some, bne_iff_ne] at hall
      exact hall hrealm
    rw [Deletion.run, deleteUser, if_neg hfound, hsaved, ← deletedFrom_removeUser]
    exact ⟨fun h => h.2.1, fun h => ⟨rfl, h, fun _ _ heq => (nomatch heq)⟩⟩
  | realm id tenant =>
    have htenant : s.realmTenants.lookup id = some tenant := haccepted
    rw [Deletion.run, deleteRealm, if_neg (not_not.mpr htenant), hsaved]
    refine ⟨fun h => deletedFrom_removeRealm.mp h.2.1, fun hsettled => ?_⟩
    have hdeleted := deletedFrom_removeRealm.mpr hsettled
    refine ⟨rfl, hdeleted, ?_⟩
    intro id' tenant₀ heq tenant' issuer s' hcreate record hrecord hbelongs
    obtain ⟨rfl, rfl⟩ := Deletion.realm.inj heq
    have hagain : (Deletion.realm id tenant).Settled (s.removeRealm id) := by
      refine ⟨fun c hc _ => hdeleted.nothing_of_realm hc, fun _ _ heq row hrow hkey => ?_⟩
      cases heq
      rw [(holds_receipt_removeRealm.mp hrow).2] at hkey
      cases hkey
    exact createRealm_starts_empty hagain hcreate hrecord hbelongs

end

def pendingContinuation : OidcAuthorizationContinuation :=
  { id := "k1", realmId := "corp", userId := "u1", clientId := "app"
    context := some (.object [("v", .number (.posInt 1))]), contextLength := 7
    browserBindingSha256 := "b", createdAt := 10, expiresAt := 70 }

/-- A receipt of a realm whose id contains the separator. -/
def foreignReceipt : SsfSetReplay :=
  { realmId := String.ofList ['a', unitSeparator, 'b'], issuer := "https://i", streamId := "s"
    jti := "j", expiresAt := 100 }

/-- A client, a consumed authorization of another realm, and a receipt of a third. -/
def corpStore : Store :=
  { (createRealm .done {} "acme" "corp" "https://corp").2 with
    clients := Table.empty.put
      { id := "c1", realmId := "corp", clientId := "app", clientType := .isPublic
        redirectUris := [], sectorIdentifierUri := none, subjectType := none }
    oidcContinuations := Table.empty.put
      { record := { pendingContinuation with realmId := "other" }, consumed := true }
    ssfSetReplay := Table.empty.put foreignReceipt }

theorem settled_corpStore :
    (Deletion.realm "corp" "acme").Settled corpStore ∧
      (Deletion.user "u1" none).Settled corpStore := by
  have hcontinuation : ∀ c, corpStore.Holds (.oidcContinuation c) →
      c = { record := { pendingContinuation with realmId := "other" }, consumed := true } := by
    intro c hc
    rcases Table.of_find_put hc with h | ⟨-, h⟩
    · exact h
    · cases h
  refine ⟨⟨fun c hc _ => ?_, fun id tenant heq row hrow hkey => ?_⟩,
    fun c hc hcovers => ?_, fun _ _ heq => (nomatch heq)⟩
  · rw [hcontinuation c hc]
    rintro ((⟨r, hr, hscope⟩ | ⟨u, -, user, huser, -⟩) | ⟨_, hnone, -⟩ | ⟨_, hnone, -⟩)
    · cases hr
      exact absurd hscope (by decide)
    · cases huser
    · cases hnone
    · cases hnone
  · cases heq
    rcases Table.of_find_put hrow with rfl | ⟨-, h⟩
    · exact absurd hkey (by decide +kernel)
    · cases h
  · rw [hcontinuation c hc] at hcovers
    cases hcovers

theorem deletion_complete_and_framed_sample :
    DeletedFrom corpStore ((Deletion.realm "corp" "acme").run .done corpStore).2
        (.realm "corp" "acme") ∧
      DeletedFrom corpStore ((Deletion.user "u1" none).run .done corpStore).2
        (.user "u1" none) := by
  obtain ⟨hrealm, huser⟩ := settled_corpStore
  have hdone : Persist.done.result = .ok () := rfl
  have haccepted : (Deletion.realm "corp" "acme").Accepted corpStore := by
    show corpStore.realmTenants.lookup "corp" = some "acme"
    decide +kernel
  have haccepted' : (Deletion.user "u1" none).Accepted corpStore := fun _ h => (nomatch h)
  exact ⟨((deletion_complete_and_framed hdone haccepted).mpr hrealm).2.1,
    ((deletion_complete_and_framed hdone haccepted').mpr huser).2.1⟩

def pendingStore : Store :=
  (createOidcContinuation .done (createRealm .done {} "acme" "corp" "https://corp").2
    pendingContinuation 10).2

def recreatedStore : Store :=
  (createRealm .done (deleteRealm .done pendingStore "corp" "acme").2 "other" "corp"
    "https://other").2

/-- A pending authorization survives the deletion of its realm and of its user, and is there in the
realm created again; and deleting the realm `a` removes the receipt of a realm whose id begins with
`a` and the separator. -/
theorem continuation_survives_deletion :
    (createRealm .done (deleteRealm .done pendingStore "corp" "acme").2 "other" "corp"
        "https://other").1 = .ok () ∧
      (recreatedStore.oidcContinuations.find "k1").map
          (fun c => (c.record.realmId, c.consumed)) = some ("corp", false) ∧
      ((deleteUser .done pendingStore "u1" none).2.oidcContinuations.find "k1").map
          (fun c => c.record.userId) = some "u1" ∧
      ((recordSsfSetJti .done (createRealm .done {} "acme" "a" "https://a").2 foreignReceipt
          0).2.ssfSetReplay.find foreignReceipt.key).isSome ∧
      ((deleteRealm .done (recordSsfSetJti .done (createRealm .done {} "acme" "a" "https://a").2
          foreignReceipt 0).2 "a" "acme").2.ssfSetReplay.find foreignReceipt.key) = none := by
  decide +kernel

section

variable {s : Store} {scope : Scope} {record : Record} {id sid fid : String}

end

end Qid.File
