/-
The token endpoint as a service.

The grants and the approval of device grants run on one repository, interleaved at their calls,
beside calls from other endpoints.
-/
import Qid.OAuth.Code
import Qid.OAuth.Device
import Qid.OAuth.Refresh

namespace Qid.OAuth

open Lib Storage

inductive Request where
  | refreshToken (q : RefreshRun)
  | authorizationCode (q : CodeRun)
  | deviceCode (q : DeviceRun)
  | approveDevice (q : ApproveRun)

inductive Response where
  | tokens (r : TokenResponse)
  | approved
  deriving DecidableEq

def answerTokens (x : Grant TokenResponse) : Grant Response := do
  let r ← x
  return .tokens r

variable (st : SharedState) {A : Call → Prop}

def serve : Request → Grant Response
  | .refreshToken q => answerTokens (refreshTokenGrant st q)
  | .authorizationCode q => answerTokens (authorizationCodeGrant st q)
  | .deviceCode q => answerTokens (deviceCodeGrant st q)
  | .approveDevice q => do
    approveDeviceAuthorization st q
    return .approved

def Request.mayCall : Request → Call → Bool
  | .refreshToken _, c => c.ofRefreshGrant
  | .authorizationCode _, c => c.ofCodeGrant
  | .deviceCode _, c => c.ofDeviceGrant
  | .approveDevice _, c => c.ofApproval

theorem makes_answerTokens {x : Grant TokenResponse} (h : Program.Makes A x) :
    Program.Makes A (answerTokens x) :=
  Handler.makes_bind h fun _ => trivial

theorem makes_serve (q : Request) : Program.Makes (fun c => q.mayCall c = true) (serve st q) := by
  cases q with
  | refreshToken q => exact makes_answerTokens (makes_refreshTokenGrant st q)
  | authorizationCode q => exact makes_answerTokens (makes_authorizationCodeGrant st q)
  | deviceCode q => exact makes_answerTokens (makes_deviceCodeGrant st q)
  | approveDevice q =>
    exact Handler.makes_bind (makes_approveDeviceAuthorization st q) fun _ => trivial

theorem leads_serve_of_mayCall {S : Type} {s : S} {q : Request}
    (h : ∀ c, q.mayCall c = true → A c) :
    Protocol.Leads { calls := fun _ c => A c, next := fun s _ _ => s } (fun _ _ => True) s
      (serve st q) :=
  ((makes_serve st q).leads h fun _ _ _ => rfl).mono fun _ _ _ => trivial

abbrev Endpoint : Type := Pool Store Call Call.Answer (QidResult Response)

abbrev Act : Type := Service.Act Request Call Persist

abbrev StoreEvent : Type := Event Store Act (Option ((c : Call) × c.Answer))

def step (w : Endpoint) (a : Act) : Option ((c : Call) × c.Answer) × Endpoint :=
  Service.step (serve st) answer w a

def trace (w : Endpoint) (acts : List Act) : List StoreEvent :=
  Service.trace (serve st) answer w acts

/-- The `i`-th request has been answered with tokens. -/
def Succeeded (w : Endpoint) (i : Nat) (r : TokenResponse) : Prop :=
  w.threads[i]? = some (.ret (.ok (.tokens r)))

/-! ## A small endpoint

One realm, one client and one user. A token is its own identifier. -/

def sampleState : SharedState where
  plan := [{ id := "main", issuer := "https://id.example", tokenTtl := .default,
             cookieName := "qid" }]
  config := [{ id := "main", issuer := "https://id.example", resourceServers := [],
               deviceAuthorizationEnabled := true }]
  signer :=
    { sign := fun claims => .ok (claims.jti.getD "")
      signWithTyp := fun claims _ => .ok (claims.jti.getD "")
      decodeSignatureOnly := fun _ token =>
        .ok { iss := none, sub := none, aud := some (.single "app"), exp := none, nbf := none
              iat := none, jti := some token
              extra := (∅ : HashMap Json.Value).insert "family_id" (.string "fam") } }
  sha256Base64url s := s
  leftMost128HashBase64url s := s
  computePairwiseSub _ userId _ := userId
  urlHost _ := none

def sampleClient : Models.Client :=
  { id := "c1", realmId := "main", clientId := "app", clientType := .isPublic
    redirectUris := ["https://app.example/cb"], sectorIdentifierUri := none, subjectType := none }

def sampleUser (id : String) : Models.User :=
  { id := id, realmId := "main", email := none, emailVerified := false, displayName := none
    failedLoginAttempts := 0, lockedUntil := none, org := none }

def sampleStore : Store where
  authorizationCodes := .empty
  tokenFamilies := .empty
  accessTokens := .empty
  deviceAuthorizationGrants := .empty
  directory :=
    { users := Table.empty.put (sampleUser "alice")
      clients := Table.empty.put sampleClient
      sessions := .empty }

def sampleRun (now : Nat) (ulid : String) : Run :=
  { decodedAt := now, now := now, issuedAt := now, accessSignedAt := now, refreshSignedAt := now
    idSignedAt := now, accessUlid := "a" ++ ulid, refreshUlid := "r" ++ ulid
    familyUlid := "f" ++ ulid, idUlid := "i" ++ ulid }

end Qid.OAuth
