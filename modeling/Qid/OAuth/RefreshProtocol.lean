/-
The protocol of a refresh.

`refresh_token_grant` as an automaton over its calls: what it has read, whether the token that was
presented is the current one of the family, and what it still owes.
-/
import Qid.OAuth.Endpoint

namespace Qid.OAuth

open Lib Models Storage Dpop

/-- A refresh carries the token that was presented and the copy of the family it has read. -/
inductive RefreshPhase where
  | start
  | session (p : Presented) (f : TokenFamily)
  /-- The presented token is the current one of the copy. -/
  | current (p : Presented) (f : TokenFamily)
  /-- The presented token is not the current one. -/
  | reuse (p : Presented) (f : TokenFamily)
  | contained
  | rotated (p : Presented) (f : TokenFamily)
  | issued (p : Presented) (f : TokenFamily)
  | refused
  | other

def Call.changesFamily : Call → Bool
  | .updateTokenFamilyRefreshHash _ | .revokeTokenFamily _ _ => true
  | _ => false

section

variable (st : SharedState) {Q : RefreshPhase → QidResult Unit → Prop}

def afterSession (p : Presented) (f : TokenFamily) : RefreshPhase :=
  if f.currentRefreshHash = st.sha256Base64url p.jti then .current p f else .reuse p f

variable (q : RefreshRun)

def afterRead (p : Presented) (found : Option TokenFamily) : RefreshPhase :=
  match checkFamily st q found with
  | .ok f => if f.sessionId.isSome then .session p f else afterSession st p f
  | .error _ => .refused

def readPhase (found : Option TokenFamily) : RefreshPhase :=
  match presentedToken st q with
  | .ok p => afterRead st q p found
  | .error _ => .refused

variable {st q} in
theorem readPhase_eq {p : Presented} (hp : presentedToken st q = .ok p)
    (found : Option TokenFamily) : readPhase st q found = afterRead st q p found := by
  rw [readPhase, hp]

inductive RefreshCall : RefreshPhase → Call → Prop
  | read {p : Presented} (hp : presentedToken st q = .ok p) :
      RefreshCall .start (.getTokenFamily p.familyId)
  | session {p : Presented} {f : TokenFamily} {id : String} (hid : f.sessionId = some id) :
      RefreshCall (.session p f) (.getSession id)
  | user {p : Presented} {f : TokenFamily} (id : String) :
      RefreshCall (.current p f) (.getUserById id)
  | client {p : Presented} {f : TokenFamily} (realmId clientId : String) :
      RefreshCall (.current p f) (.getClientByClientId realmId clientId)
  | rotate {p : Presented} {f : TokenFamily} :
      RefreshCall (.current p f) (.updateTokenFamilyRefreshHash (rotationOf st q p f))
  | revoke {p : Presented} {f : TokenFamily} :
      RefreshCall (.reuse p f) (.revokeTokenFamily f.id f.realmId)
  | create {p : Presented} {f : TokenFamily} {scopes : List String}
      (hscopes : refreshScopes q f = .ok scopes) :
      RefreshCall (.rotated p f) (.createAccessToken (refreshedAccessToken st q f scopes))

def refreshNext : RefreshPhase → (c : Call) → c.Answer → RefreshPhase
  | .start, .getTokenFamily _, .ok found => readPhase st q found
  | .session p f, .getSession _, .ok session =>
    if sessionLive q f session then afterSession st p f else .refused
  | .current p f, .getUserById _, _ | .current p f, .getClientByClientId _ _, _ => .current p f
  | .current p f, .updateTokenFamilyRefreshHash _, .ok () => .rotated p f
  | .current p f, .updateTokenFamilyRefreshHash _, .error (.conflict _) => .reuse p f
  | .reuse _ _, .revokeTokenFamily _ _, _ => .contained
  | .rotated p f, .createAccessToken _, .ok () => .issued p f
  | _, _, _ => .refused

/-- A refresh answers with tokens only after it has rotated and stored the access token, and never
returns while it owes the family a revocation. -/
def refreshReturns : RefreshPhase → QidResult TokenResponse → Prop
  | .start, r => ∃ e, presentedToken st q = .error e ∧ r = .error e
  | .session _ _, _ | .reuse _ _, _ => False
  | .issued _ f, .ok resp =>
    ∃ issuer user scopes, refreshScopes q f = .ok scopes ∧
      refreshResponse st q f issuer user scopes = .ok resp
  | _, .ok _ => False
  | _, .error _ => True

def refreshProtocol : Protocol RefreshPhase Call Call.Answer :=
  { calls := RefreshCall st q, next := refreshNext st q }

variable {st q} {p : Presented} {f : TokenFamily}

theorem leads_revokeReusedFamily {α : Type} {Q : RefreshPhase → QidResult α → Prop}
    (hQ : ∀ e, Q .contained (.error e)) :
    (refreshProtocol st q).Leads Q (.reuse p f) (revokeReusedFamily f) := by
  exact ⟨.revoke, fun r => hQ _⟩

theorem leads_rotateRefreshToken (hok : Q (.rotated p f) (.ok ()))
    (herror : ∀ e, Q .refused (.error e)) (hcontained : ∀ e, Q .contained (.error e)) :
    (refreshProtocol st q).Leads Q (.current p f) (rotateRefreshToken st q p f) := by
  refine ⟨.rotate, fun r => ?_⟩
  cases r with
  | ok => exact hok
  | error e =>
    cases e with
    | conflict => exact leads_revokeReusedFamily hcontained
    | _ => exact herror _

theorem leads_checkDpopBinding (hQ : ∀ r, Q (.current p f) r) :
    (refreshProtocol st q).Leads Q (.current p f) (checkDpopBinding q f) := by
  rw [checkDpopBinding]
  split
  · exact hQ _
  · refine ⟨.client _ _, fun r => ?_⟩
    cases r with
    | error => exact hQ _
    | ok => exact Protocol.leads_check_bind (fun e _ => hQ _) fun client _ => hQ _

theorem leads_redeemRefreshToken :
    (refreshProtocol st q).Leads (refreshReturns st q) (.current p f)
      (redeemRefreshToken st q p f) := by
  refine ⟨.user _, fun r => ?_⟩
  cases r with
  | error => exact trivial
  | ok =>
    refine Protocol.leads_check_bind (fun _ _ => trivial) fun user _ => ?_
    refine Protocol.leads_check_bind (fun _ _ => trivial) fun _ _ => ?_
    refine Protocol.leads_check_bind (fun _ _ => trivial) fun realm _ => ?_
    refine Protocol.leads_check_bind (fun _ _ => trivial) fun scopes hscopes => ?_
    refine Protocol.leads_check_bind (fun _ _ => trivial) fun _ _ => ?_
    rw [Protocol.leads_bind]
    refine leads_checkDpopBinding fun r => ?_
    cases r with
    | error => exact trivial
    | ok _ =>
      show (refreshProtocol st q).Leads _ _ _
      rw [Protocol.leads_bind]
      refine leads_rotateRefreshToken ?_ (fun _ => trivial) fun _ => trivial
      show (refreshProtocol st q).Leads _ _ _
      refine ⟨.create hscopes, fun r => ?_⟩
      cases r with
      | error => exact trivial
      | ok _ =>
        cases hresp : refreshResponse st q f realm.issuer user scopes with
        | error => exact trivial
        | ok => exact ⟨_, _, _, hscopes, hresp⟩

theorem leads_checkSession (hlive : Q (afterSession st p f) (.ok ()))
    (herror : ∀ e, Q .refused (.error e)) :
    (refreshProtocol st q).Leads Q
      (if f.sessionId.isSome then .session p f else afterSession st p f) (checkSession q f) := by
  rw [checkSession]
  cases hid : f.sessionId with
  | none => exact hlive
  | some =>
    refine ⟨.session hid, fun r => ?_⟩
    cases r with
    | error => exact herror _
    | ok session =>
      show Q (if sessionLive q f session then _ else _) (ensure _ _)
      split_ifs with hs
      · rw [ensure, if_pos hs]
        exact hlive
      · rw [ensure, if_neg hs]
        exact herror _

theorem leads_refreshTokenGrant :
    (refreshProtocol st q).Leads (refreshReturns st q) .start (refreshTokenGrant st q) := by
  refine Protocol.leads_check_bind (fun e he => ⟨e, he, rfl⟩) fun p hp => ?_
  refine ⟨.read hp, fun r => ?_⟩
  cases r with
  | error => exact trivial
  | ok found =>
    show (refreshProtocol st q).Leads _ (readPhase st q found) _
    rw [readPhase_eq hp, afterRead]
    refine Protocol.leads_check_bind (fun e he => ?_) fun f hf => ?_
    · rw [he]
      exact trivial
    · rw [hf, Protocol.leads_bind]
      refine leads_checkSession ?_ fun e => trivial
      by_cases hhash : f.currentRefreshHash = st.sha256Base64url p.jti
      · rw [afterSession, if_pos hhash, if_neg (not_not.mpr hhash)]
        exact leads_redeemRefreshToken
      · rw [afterSession, if_neg hhash, if_pos hhash]
        exact leads_revokeReusedFamily fun e => trivial

end

variable (st : SharedState)

/-- A refresh follows its protocol; any other request makes no call that changes a stored
family. -/
def familyProtocol : Request → Protocol RefreshPhase Call Call.Answer
  | .refreshToken q => refreshProtocol st q
  | _ => { calls := fun _ c => c.changesFamily = false, next := fun s _ _ => s }

def familyStart : Request → RefreshPhase
  | .refreshToken _ => .start
  | _ => .other

def familyReturns : Request → RefreshPhase → QidResult Response → Prop
  | .refreshToken q, s, .ok (.tokens r) => refreshReturns st q s (.ok r)
  | .refreshToken _, _, .ok .approved => False
  | .refreshToken q, s, .error e => refreshReturns st q s (.error e)
  | _, _, _ => True

theorem leads_serve (q : Request) :
    (familyProtocol st q).Leads (familyReturns st q) (familyStart q) (serve st q) := by
  cases q with
  | refreshToken =>
    rw [serve, answerTokens, Protocol.leads_bind]
    refine leads_refreshTokenGrant.mono fun s r hr => ?_
    cases r with
    | _ => exact hr
  | _ =>
    -- the other requests create families and do not change those that are stored
    refine leads_serve_of_mayCall st fun c hc => ?_
    cases c with
    | updateTokenFamilyRefreshHash | revokeTokenFamily => cases hc
    | _ => rfl

end Qid.OAuth
