/-
The repository of the token endpoint.

The records that the grants of `qid-oauth` read and write, and the calls of the file repository
(`qid-storage/src/file/token.rs`) on them, each atomic under the store lock. A write that cannot be
saved leaves the change in memory, except for a rotation, which is rolled back. Other writers of
users, clients and sessions are `Call.maintain`; deleting a user or a realm is not modelled.
-/
import Qid.Core.Json
import Qid.Core.Models
import Qid.Lib.Service
import Qid.Lib.Table
import Qid.Token.Store

namespace Qid.OAuth

open Lib Models Storage

structure AuthorizationCode where
  codeHash : String
  clientId : String
  userId : String
  realmId : String
  redirectUri : String
  nonce : Option String
  authTime : Option Nat
  acr : Option String
  amr : List String
  codeChallenge : Option String
  codeChallengeMethod : Option String
  scopes : List String
  resource : List String
  authorizationDetails : Option Json.Value
  expiresAt : Nat
  used : Bool
  sessionId : Option String

structure TokenFamily extends Token.TokenFamily where
  userId : String
  clientId : String
  scopes : List String
  authTime : Option Nat
  acr : Option String
  amr : List String
  audience : List String
  resource : List String
  authorizationDetails : Option Json.Value
  senderConstraint : Option Json.Value
  issuedAt : Nat
  sessionId : Option String

def TokenFamily.withRefresh (f : TokenFamily) (r : Token.Refresh) : TokenFamily :=
  { f with toTokenFamily := f.toTokenFamily.withRefresh r }

/-- Revocation is monotone, and a foreign realm changes nothing. -/
def TokenFamily.revokeIn (f : TokenFamily) (realmId : String) : TokenFamily :=
  { f with revoked := f.revoked || f.realmId == realmId }

inductive TokenFormat where
  | jwt
  | isOpaque
  deriving DecidableEq

structure AccessToken where
  jti : String
  familyId : Option String
  userId : String
  clientId : String
  realmId : String
  scopes : List String
  audience : List String
  resource : List String
  authorizationDetails : Option Json.Value
  cnf : Option Json.Value
  authTime : Option Nat
  acr : Option String
  amr : List String
  nonce : Option String
  senderConstraint : Option Json.Value
  tokenFormat : TokenFormat
  expiresAt : Nat
  revoked : Bool
  issuedAt : Nat

structure DeviceAuthorizationGrant where
  deviceCodeHash : String
  userCode : String
  clientId : String
  realmId : String
  scopes : List String
  resource : List String
  audience : List String
  userId : Option String
  expiresAt : Nat
  approvedAt : Option Nat
  consumed : Bool
  lastPollAt : Option Nat
  pollIntervalSeconds : Nat
  deriving DecidableEq

structure Directory where
  users : Table Models.User (·.id)
  clients : Table Client (·.id)
  sessions : Table Session (·.id)

structure Store where
  authorizationCodes : Table AuthorizationCode (·.codeHash)
  tokenFamilies : Table TokenFamily (·.id)
  accessTokens : Table AccessToken (·.jti)
  deviceAuthorizationGrants : Table DeviceAuthorizationGrant (·.deviceCodeHash)
  directory : Directory

inductive Call where
  | getAuthorizationCode (codeHash : String)
  | markAuthorizationCodeUsed (code : AuthorizationCode)
  | createTokenFamily (family : TokenFamily)
  | getTokenFamily (id : String)
  | updateTokenFamilyRefreshHash (r : Token.Rotation)
  | revokeTokenFamily (id realmId : String)
  | createAccessToken (token : AccessToken)
  | revokeAccessToken (jti realmId : String)
  | getDeviceAuthorizationGrant (deviceCodeHash : String)
  | getDeviceAuthorizationGrantByUserCode (userCode : String)
  | approveDeviceAuthorizationGrant (userCode userId : String) (approvedAt : Nat)
  | recordDeviceAuthorizationPoll (deviceCodeHash : String) (polledAt interval : Nat)
  | consumeDeviceAuthorizationGrant (deviceCodeHash : String)
  | getUserById (id : String)
  | getSession (id : String)
  | getClientByClientId (realmId clientId : String)
  /-- Any write of users, clients or sessions. -/
  | maintain (change : Directory → Directory)

def Call.Answer : Call → Type
  | .getAuthorizationCode _ => QidResult (Option AuthorizationCode)
  | .getTokenFamily _ => QidResult (Option TokenFamily)
  | .getDeviceAuthorizationGrant _ | .getDeviceAuthorizationGrantByUserCode _ =>
    QidResult (Option DeviceAuthorizationGrant)
  | .getUserById _ => QidResult (Option Models.User)
  | .getSession _ => QidResult (Option Session)
  | .getClientByClientId _ _ => QidResult (Option Client)
  | _ => QidResult Unit

namespace Store

def authCodeOwnerMatches (cur exp : AuthorizationCode) : Bool :=
  cur.realmId == exp.realmId && cur.clientId == exp.clientId && cur.userId == exp.userId

variable (persist : Persist) (s : Store)

def markAuthorizationCodeUsed (code : AuthorizationCode) : QidResult Unit × Store :=
  match (s.authorizationCodes.find code.codeHash).filter (authCodeOwnerMatches · code) with
  | none => (.error (.notFound ("authorization code " ++ code.codeHash)), s)
  | some stored =>
    if stored.used then (.error (.conflict "authorization code already consumed"), s)
    else
      (persist.result,
        { s with authorizationCodes := s.authorizationCodes.put { stored with used := true } })

def createTokenFamily (family : TokenFamily) : QidResult Unit × Store :=
  if (s.tokenFamilies.find family.id).isSome then
    (.error (.storage ("duplicate family " ++ family.id)), s)
  else (persist.result, { s with tokenFamilies := s.tokenFamilies.put family })

def updateTokenFamilyRefreshHash (r : Token.Rotation) : QidResult Unit × Store :=
  match (s.tokenFamilies.find r.id).filter fun family => family.realmId = r.realmId with
  | none => (.error (.notFound ("token family " ++ r.id)), s)
  | some family =>
    match Token.validateTokenFamilyRotation family.toTokenFamily r.expectedRefreshHash
      r.refreshHash with
    | .error e => (.error e, s)
    | .ok () =>
      match persist.result with
      | .error e => (.error e, s)
      | .ok () =>
        (.ok (), { s with tokenFamilies := s.tokenFamilies.put (family.withRefresh r.refresh) })

def revokeTokenFamily (id realmId : String) : QidResult Unit × Store :=
  match s.tokenFamilies.find id with
  | none => (persist.result, s)
  | some family =>
    (persist.result, { s with tokenFamilies := s.tokenFamilies.put (family.revokeIn realmId) })

def createAccessToken (token : AccessToken) : QidResult Unit × Store :=
  if (s.accessTokens.find token.jti).isSome then
    (.error (.storage ("duplicate token " ++ token.jti)), s)
  else (persist.result, { s with accessTokens := s.accessTokens.put token })

def revokeAccessToken (jti realmId : String) : QidResult Unit × Store :=
  match s.accessTokens.find jti with
  | none => (persist.result, s)
  | some token =>
    (persist.result,
      { s with
        accessTokens := s.accessTokens.put
          { token with revoked := token.revoked || token.realmId == realmId } })

def uniqueMatch {α : Type} (found : List α) (message : String) : QidResult (Option α) :=
  match found with
  | _ :: _ :: _ => .error (.conflict message)
  | _ => .ok found.head?

theorem of_uniqueMatch {V : Type} {key : V → String} {t : Table V key} {p : V → Bool}
    {message : String} {v : V} (h : uniqueMatch (t.values.filter p) message = .ok (some v)) :
    t.find (key v) = some v ∧ p v = true ∧ ∀ w, t.find (key w) = some w → p w = true → w = v := by
  have hone : t.values.filter p = [v] := by
    generalize t.values.filter p = found at h
    cases found with
    | nil => cases h
    | cons y l =>
      cases l with
      | nil =>
        have hy : y = v := Option.some.inj (Except.ok.inj h)
        rw [hy]
      | cons => cases h
  have hmem : ∀ w, w ∈ [v] ↔ t.find (key w) = some w ∧ p w = true := by
    intro w
    rw [← hone, List.mem_filter, Table.mem_values]
  obtain ⟨hv, hp⟩ := (hmem v).mp List.mem_cons_self
  exact ⟨hv, hp, fun w hw hpw => List.mem_singleton.mp ((hmem w).mpr ⟨hw, hpw⟩)⟩

def getDeviceAuthorizationGrantByUserCode (userCode : String) :
    QidResult (Option DeviceAuthorizationGrant) :=
  uniqueMatch (s.deviceAuthorizationGrants.values.filter fun g => g.userCode = userCode)
    "ambiguous device user code"

def approveDeviceAuthorizationGrant (userCode userId : String) (approvedAt : Nat) :
    QidResult Unit × Store :=
  match s.getDeviceAuthorizationGrantByUserCode userCode with
  | .error e => (.error e, s)
  | .ok none => (.error (.notFound "device authorization grant"), s)
  | .ok (some grant) =>
    (persist.result,
      { s with
        deviceAuthorizationGrants := s.deviceAuthorizationGrants.put
          { grant with userId := some userId, approvedAt := some approvedAt } })

def recordDeviceAuthorizationPoll (deviceCodeHash : String) (polledAt interval : Nat) :
    QidResult Unit × Store :=
  match s.deviceAuthorizationGrants.find deviceCodeHash with
  | none => (persist.result, s)
  | some grant =>
    (persist.result,
      { s with
        deviceAuthorizationGrants := s.deviceAuthorizationGrants.put
          { grant with lastPollAt := some polledAt, pollIntervalSeconds := interval } })

def consumeDeviceAuthorizationGrant (deviceCodeHash : String) : QidResult Unit × Store :=
  match s.deviceAuthorizationGrants.find deviceCodeHash with
  | none => (.error (.notFound ("device authorization grant " ++ deviceCodeHash)), s)
  | some grant =>
    if grant.consumed then
      (.error (.conflict "device authorization grant already consumed"), s)
    else
      (persist.result,
        { s with
          deviceAuthorizationGrants := s.deviceAuthorizationGrants.put
            { grant with consumed := true } })

def getClientByClientId (realmId clientId : String) : Option Client :=
  s.directory.clients.values.find? fun c => c.realmId = realmId ∧ c.clientId = clientId

end Store

def answer (persist : Persist) (s : Store) : (c : Call) → c.Answer × Store
  | .getAuthorizationCode codeHash => (.ok (s.authorizationCodes.find codeHash), s)
  | .markAuthorizationCodeUsed code => s.markAuthorizationCodeUsed persist code
  | .createTokenFamily family => s.createTokenFamily persist family
  | .getTokenFamily id => (.ok (s.tokenFamilies.find id), s)
  | .updateTokenFamilyRefreshHash r => s.updateTokenFamilyRefreshHash persist r
  | .revokeTokenFamily id realmId => s.revokeTokenFamily persist id realmId
  | .createAccessToken token => s.createAccessToken persist token
  | .revokeAccessToken jti realmId => s.revokeAccessToken persist jti realmId
  | .getDeviceAuthorizationGrant deviceCodeHash =>
    (.ok (s.deviceAuthorizationGrants.find deviceCodeHash), s)
  | .getDeviceAuthorizationGrantByUserCode userCode =>
    (s.getDeviceAuthorizationGrantByUserCode userCode, s)
  | .approveDeviceAuthorizationGrant userCode userId approvedAt =>
    s.approveDeviceAuthorizationGrant persist userCode userId approvedAt
  | .recordDeviceAuthorizationPoll deviceCodeHash polledAt interval =>
    s.recordDeviceAuthorizationPoll persist deviceCodeHash polledAt interval
  | .consumeDeviceAuthorizationGrant deviceCodeHash =>
    s.consumeDeviceAuthorizationGrant persist deviceCodeHash
  | .getUserById id => (.ok (s.directory.users.find id), s)
  | .getSession id => (.ok (s.directory.sessions.find id), s)
  | .getClientByClientId realmId clientId => (.ok (s.getClientByClientId realmId clientId), s)
  | .maintain change => (persist.result, { s with directory := change s.directory })

def Call.writesFamilies : Call → Bool
  | .createTokenFamily _ | .updateTokenFamilyRefreshHash _ | .revokeTokenFamily _ _ => true
  | _ => false

def Call.writesDeviceGrants : Call → Bool
  | .approveDeviceAuthorizationGrant _ _ _ | .recordDeviceAuthorizationPoll _ _ _
  | .consumeDeviceAuthorizationGrant _ => true
  | _ => false

/-- Each call writes one table, if any. -/
inductive Write (s : Store) (c : Call) : Store → Prop
  | nothing : Write s c s
  | codes {t} : (∃ code, c = .markAuthorizationCodeUsed code) →
      Write s c { s with authorizationCodes := t }
  | families {t} : c.writesFamilies = true → Write s c { s with tokenFamilies := t }
  | tokens {t} : Write s c { s with accessTokens := t }
  | grants {t} : c.writesDeviceGrants = true → Write s c { s with deviceAuthorizationGrants := t }
  | directory {d} : Write s c { s with directory := d }

section

variable (persist : Persist) (s : Store) {c : Call}

theorem write_answer (c : Call) : Write s c (answer persist s c).2 := by
  cases c with
  | markAuthorizationCodeUsed code =>
    rw [answer, Store.markAuthorizationCodeUsed]
    split
    · exact .nothing
    · split
      · exact .nothing
      · exact .codes ⟨code, rfl⟩
  | createTokenFamily f =>
    rw [answer, Store.createTokenFamily]
    split
    · exact .nothing
    · exact .families rfl
  | updateTokenFamilyRefreshHash r =>
    rw [answer, Store.updateTokenFamilyRefreshHash]
    split
    · exact .nothing
    · split
      · exact .nothing
      · split
        · exact .nothing
        · exact .families rfl
  | revokeTokenFamily id realmId =>
    rw [answer, Store.revokeTokenFamily]
    split
    · exact .nothing
    · exact .families rfl
  | createAccessToken t =>
    rw [answer, Store.createAccessToken]
    split
    · exact .nothing
    · exact .tokens
  | revokeAccessToken jti realmId =>
    rw [answer, Store.revokeAccessToken]
    split
    · exact .nothing
    · exact .tokens
  | approveDeviceAuthorizationGrant userCode userId approvedAt =>
    rw [answer, Store.approveDeviceAuthorizationGrant]
    split
    · exact .nothing
    · exact .nothing
    · exact .grants rfl
  | recordDeviceAuthorizationPoll hash polledAt interval =>
    rw [answer, Store.recordDeviceAuthorizationPoll]
    split
    · exact .nothing
    · exact .grants rfl
  | consumeDeviceAuthorizationGrant hash =>
    rw [answer, Store.consumeDeviceAuthorizationGrant]
    split
    · exact .nothing
    · split
      · exact .nothing
      · exact .grants rfl
  | maintain change => exact .directory
  | _ => exact .nothing

theorem tokenFamilies_answer (hc : c.writesFamilies = false) :
    (answer persist s c).2.tokenFamilies = s.tokenFamilies := by
  have h := write_answer persist s c
  generalize (answer persist s c).2 = t at h ⊢
  cases h with
  | families h => exact absurd (hc.symm.trans h) Bool.false_ne_true
  | _ => rfl

theorem authorizationCodes_answer (hc : ∀ code, c ≠ .markAuthorizationCodeUsed code) :
    (answer persist s c).2.authorizationCodes = s.authorizationCodes := by
  have h := write_answer persist s c
  generalize (answer persist s c).2 = t at h ⊢
  cases h with
  | codes h => exact absurd h.choose_spec (hc _)
  | _ => rfl

theorem deviceAuthorizationGrants_answer (hc : c.writesDeviceGrants = false) :
    (answer persist s c).2.deviceAuthorizationGrants = s.deviceAuthorizationGrants := by
  have h := write_answer persist s c
  generalize (answer persist s c).2 = t at h ⊢
  cases h with
  | grants h => exact absurd (hc.symm.trans h) Bool.false_ne_true
  | _ => rfl

end

abbrev Grant (α : Type) : Type := Handler Call Call.Answer QidError α

def getAuthorizationCode (codeHash : String) : Grant (Option AuthorizationCode) :=
  Program.call (.getAuthorizationCode codeHash) Program.ret

def markAuthorizationCodeUsed (code : AuthorizationCode) : Grant Unit :=
  Program.call (.markAuthorizationCodeUsed code) Program.ret

def createTokenFamily (family : TokenFamily) : Grant Unit :=
  Program.call (.createTokenFamily family) Program.ret

def getTokenFamily (id : String) : Grant (Option TokenFamily) :=
  Program.call (.getTokenFamily id) Program.ret

/-- As a value: the caller tells its errors apart. -/
def updateTokenFamilyRefreshHash (r : Token.Rotation) : Grant (QidResult Unit) :=
  Program.call (.updateTokenFamilyRefreshHash r) fun result => Program.ret (.ok result)

/-- As a value: its caller only logs an error. -/
def revokeTokenFamily (id realmId : String) : Grant (QidResult Unit) :=
  Program.call (.revokeTokenFamily id realmId) fun result => Program.ret (.ok result)

def createAccessToken (token : AccessToken) : Grant Unit :=
  Program.call (.createAccessToken token) Program.ret

variable (deviceCodeHash : String)

def getDeviceAuthorizationGrant : Grant (Option DeviceAuthorizationGrant) :=
  Program.call (.getDeviceAuthorizationGrant deviceCodeHash) Program.ret

def getDeviceAuthorizationGrantByUserCode (userCode : String) :
    Grant (Option DeviceAuthorizationGrant) :=
  Program.call (.getDeviceAuthorizationGrantByUserCode userCode) Program.ret

def approveDeviceAuthorizationGrant (userCode userId : String) (approvedAt : Nat) : Grant Unit :=
  Program.call (.approveDeviceAuthorizationGrant userCode userId approvedAt) Program.ret

def recordDeviceAuthorizationPoll (polledAt interval : Nat) : Grant Unit :=
  Program.call (.recordDeviceAuthorizationPoll deviceCodeHash polledAt interval) Program.ret

def consumeDeviceAuthorizationGrant : Grant Unit :=
  Program.call (.consumeDeviceAuthorizationGrant deviceCodeHash) Program.ret

def getUserById (id : String) : Grant (Option Models.User) :=
  Program.call (.getUserById id) Program.ret

def getSession (id : String) : Grant (Option Session) := Program.call (.getSession id) Program.ret

def getClientByClientId (realmId clientId : String) : Grant (Option Client) :=
  Program.call (.getClientByClientId realmId clientId) Program.ret

end Qid.OAuth
