/-
Which texts authenticate.

A translation of `decode_access_token` (`qid-oauth/src/endpoints/introspect.rs`) with the opaque
encoding of `token_issue.rs`. A history interleaves the issuing of access tokens with the signing of
every other token.
-/
import Qid.OAuth.Endpoint

namespace Qid.OAuth

open Lib Models Storage Dpop

def decodeOpaqueAccessToken (token : String) : Option String := stripPrefix "oat_" token

structure DecodedAccessToken where
  userId : String
  clientId : String
  realmId : String
  exp : Nat
  scope : String
  cnf : Option Json.Value
  aud : List String
  resource : List String
  authTime : Option Nat
  acr : Option String
  amr : List String
  nonce : Option String
  tokenFormat : TokenFormat
  act : Option Json.Value

def AccessToken.decoded (record : AccessToken) (act : Option Json.Value) : DecodedAccessToken :=
  { userId := record.userId
    clientId := record.clientId
    realmId := record.realmId
    exp := record.expiresAt
    scope := " ".intercalate record.scopes
    cnf := record.cnf
    aud := record.audience
    resource := record.resource
    authTime := record.authTime
    acr := record.acr
    amr := record.amr
    nonce := record.nonce
    tokenFormat := record.tokenFormat
    act := act }

variable (st : SharedState)

/-- The identifier a text names, with the actor a signed one carries. -/
def presentedJti (decodedAt : Nat) (token : String) : QidResult (String × Option Json.Value) :=
  match decodeOpaqueAccessToken token with
  | some jti => .ok (jti, none)
  | none =>
    match st.signer.decodeSignatureOnly decodedAt token with
    | .error e => .error (.crypto ("failed to decode token: " ++ e))
    | .ok claims =>
      (okOr claims.jti (.crypto "token missing jti")).map fun jti =>
        (jti, claims.extra.lookup "act")

def checkAccessToken (now : Nat) (found : Option AccessToken) : QidResult AccessToken :=
  match found with
  | none => .error (.unauthorized "token not found")
  | some record =>
    if record.revoked || record.expiresAt ≤ now then
      .error (.unauthorized "token expired or revoked")
    else .ok record

variable (s : Store)

/-- The record that a text authenticates, with the actor. -/
def authenticatedRecord (decodedAt now : Nat) (token : String) :
    QidResult (AccessToken × Option Json.Value) := do
  let presented ← presentedJti st decodedAt token
  let record ← checkAccessToken now (s.accessTokens.find presented.1)
  return (record, presented.2)

def decodeAccessToken (decodedAt now : Nat) (token : String) : QidResult DecodedAccessToken :=
  (authenticatedRecord st s decodedAt now token).map fun r => r.1.decoded r.2

variable {token : String} {st : SharedState} {decodedAt : Nat}

theorem of_presentedJti {p : String × Option Json.Value}
    (h : presentedJti st decodedAt token = .ok p) :
    decodeOpaqueAccessToken token = some p.1 ∨
      ∃ claims, st.signer.decodeSignatureOnly decodedAt token = .ok claims ∧
        claims.jti = some p.1 := by
  rw [presentedJti] at h
  split at h
  · next jti hjti =>
    cases h
    exact .inl hjti
  · split at h
    · cases h
    · next claims hclaims =>
      refine .inr ⟨claims, hclaims, ?_⟩
      cases hjti : claims.jti with
      | none => rw [hjti] at h; cases h
      | some jti => rw [hjti] at h; cases h; rfl

theorem of_authenticatedRecord {s : Store} {now : Nat} {r : AccessToken × Option Json.Value}
    (h : authenticatedRecord st s decodedAt now token = .ok r) :
    ∃ p, presentedJti st decodedAt token = .ok p ∧ s.accessTokens.find p.1 = some r.1 ∧
      r.1.revoked = false ∧ now < r.1.expiresAt := by
  rw [authenticatedRecord] at h
  cases hp : presentedJti st decodedAt token with
  | error e => rw [hp] at h; cases h
  | ok p =>
    refine ⟨p, rfl, ?_⟩
    simp only [hp, bind, Except.bind] at h
    cases hfind : s.accessTokens.find p.1 with
    | none => rw [hfind] at h; cases h
    | some record =>
      simp only [hfind, checkAccessToken] at h
      by_cases hspent : record.revoked || record.expiresAt ≤ now
      · rw [if_pos hspent] at h
        cases h
      · rw [if_neg hspent] at h
        cases h
        rw [Bool.not_eq_true, Bool.or_eq_false_iff, decide_eq_false_iff_not, Nat.not_le] at hspent
        exact ⟨rfl, hspent⟩

theorem decodeOpaqueAccessToken_eq_some {jti : String}
    (h : decodeOpaqueAccessToken token = some jti) : token = encodeOpaqueAccessToken jti := by
  exact stripPrefix_eq_some.mp h

/-- The record of `issue_access_token`. -/
def issuedAccessToken (st : SharedState) (run : Run) (user : Models.User)
    (clientId realmId : String) (scopes : List String) (claims : TokenIssueClaims) : AccessToken :=
  { newAccessToken st run user clientId realmId scopes claims with
    familyId := none
    authTime := claims.authTime.or (some run.issuedAt)
    expiresAt := run.issuedAt + (st.tokenTtl realmId).accessTokenTtlSeconds }

/-- The format is read from the configuration of the issuing process, once for the record and once
for the text. -/
structure Issuance where
  st : SharedState
  record : AccessToken
  signedAt : Nat
  issuer : String
  user : Models.User
  claims : TokenIssueClaims
  format : record.tokenFormat = (st.tokenTtl record.realmId).accessTokenFormat

namespace Issuance

def text (i : Issuance) : QidResult String :=
  formatAccessToken i.st i.signedAt i.issuer i.record.jti i.user i.record.clientId
    i.record.realmId i.record.scopes i.claims

section

variable (st : SharedState) (run : Run) (issuer : String) (user : Models.User)
  (clientId realmId : String) (scopes : List String) (claims : TokenIssueClaims)

def ofPair : Issuance :=
  ⟨st, newAccessToken st run user clientId realmId scopes claims, run.accessSignedAt, issuer, user,
    { claims with accessExpiresAt := some (newRefreshExpiresAt st run realmId) }, rfl⟩

def ofAccess : Issuance :=
  ⟨st, issuedAccessToken st run user clientId realmId scopes claims, run.accessSignedAt, issuer,
    user, claims, rfl⟩

def ofRefresh (q : RefreshRun) (family : TokenFamily) : Issuance :=
  ⟨st, refreshedAccessToken st q family scopes, q.run.accessSignedAt, issuer, user,
    refreshedClaims st q family, rfl⟩

end

def jwtClaims (i : Issuance) : JwtClaims :=
  accessTokenClaims i.st i.signedAt i.issuer i.record.jti i.user i.record.clientId
    i.record.realmId i.record.scopes i.claims

end Issuance

structure History where
  store : Store
  issuances : List Issuance
  /-- Every token signed so far. -/
  signed : List (JwtClaims × String)

namespace History

inductive Act where
  | create (persist : Persist) (i : Issuance)
  | format (i : Issuance)
  | sign (claims : JwtClaims) (text : String)
  | revoke (persist : Persist) (jti realmId : String)

variable (h : History)

def formatted (i : Issuance) : History :=
  match i.record.tokenFormat, i.text with
  | .jwt, .ok text => { h with signed := (i.jwtClaims, text) :: h.signed }
  | _, _ => h

def step : Act → Unit × History
  | .create persist i =>
    ((), { h with
      store := (h.store.createAccessToken persist i.record).2
      issuances := i :: h.issuances })
  | .format i => ((), h.formatted i)
  | .sign claims text => ((), { h with signed := (claims, text) :: h.signed })
  | .revoke persist jti realmId =>
    ((), { h with store := (h.store.revokeAccessToken persist jti realmId).2 })

def start : History := ⟨{ s with accessTokens := .empty }, [], []⟩

/-- The identifier of a new token is fresh, and a record is stored before its text is
made. -/
def Permitted : Act → Prop
  | .create _ i => (∀ j ∈ h.issuances, j.record.jti ≠ i.record.jti) ∧
      ∀ p ∈ h.signed, p.1.jti ≠ some i.record.jti
  | .format i => i ∈ h.issuances
  | .sign claims _ => ∀ i ∈ h.issuances, claims.jti ≠ some i.record.jti
  | .revoke _ _ _ => True

/-- The signer accepts only what has been signed. -/
def Unforgeable (signer : Signer) : Prop :=
  ∀ now token claims, signer.decodeSignatureOnly now token = .ok claims → (claims, token) ∈ h.signed

/-- A text in the opaque form names no live record of a JWT. -/
def NoOpaqueForm (now : Nat) (token : String) : Prop :=
  ∀ jti r, decodeOpaqueAccessToken token = some jti → h.store.accessTokens.find jti = some r →
    r.revoked = false → now < r.expiresAt → r.tokenFormat = .isOpaque

/-- What is signed for a record does not look like the opaque form. -/
def CompactForm : Prop :=
  ∀ i ∈ h.issuances, i.record.tokenFormat = .jwt → ∀ text, i.text = .ok text →
    decodeOpaqueAccessToken text = none

/-- A text was made for the stored record that a decoded token comes from, in the
record's own format. -/
def IssuedAs (token : String) (d : DecodedAccessToken) : Prop :=
  ∃ i ∈ h.issuances, i.text = .ok token ∧ ∃ r act,
    h.store.accessTokens.find i.record.jti = some r ∧ d = r.decoded act ∧
      i.record.tokenFormat = r.tokenFormat

structure Sound (h : History) : Prop where
  stored : ∀ jti r, h.store.accessTokens.find jti = some r →
    ∃ i ∈ h.issuances, i.record.jti = jti ∧ i.record.tokenFormat = r.tokenFormat
  signed : ∀ p ∈ h.signed, ∀ i ∈ h.issuances, p.1.jti = some i.record.jti → i.text = .ok p.2
  unique : ∀ i ∈ h.issuances, ∀ j ∈ h.issuances, i.record.jti = j.record.jti → i = j

theorem sound_start : Sound (start s) where
  stored jti r hr := by cases hr
  signed p hp := by cases hp
  unique i hi := by cases hi

variable {h : History} {i : Issuance}

theorem Sound.create (hs : Sound h) {persist : Persist} (hnew : h.Permitted (.create persist i)) :
    Sound (h.step (.create persist i)).2 where
  stored jti r hr := by
    have hold : h.store.accessTokens.find jti = some r → ∃ j ∈ i :: h.issuances,
        j.record.jti = jti ∧ j.record.tokenFormat = r.tokenFormat := by
      intro hfind
      obtain ⟨j, hj, hjr⟩ := hs.stored jti r hfind
      exact ⟨j, List.mem_cons_of_mem i hj, hjr⟩
    simp only [step, Store.createAccessToken] at hr
    split at hr
    · exact hold hr
    · rw [Table.find_put] at hr
      split at hr
      · next hjti =>
        cases hr
        exact ⟨i, List.mem_cons_self, hjti.symm, rfl⟩
      · exact hold hr
  signed p hp j hj hjti := by
    rcases List.mem_cons.mp hj with rfl | hj
    · exact absurd hjti (hnew.2 p hp)
    · exact hs.signed p hp j hj hjti
  unique j hj k hk hjk := by
    rcases List.mem_cons.mp hj with hj | hj <;> rcases List.mem_cons.mp hk with hk | hk
    · rw [hj, hk]
    · exact absurd (hj ▸ hjk).symm (hnew.1 k hk)
    · exact absurd (hk ▸ hjk) (hnew.1 j hj)
    · exact hs.unique j hj k hk hjk

theorem Sound.format (hs : Sound h) (hi : i ∈ h.issuances) : Sound (h.formatted i) := by
  rw [formatted]
  split
  · next text _ htext =>
    refine ⟨hs.stored, fun p hp j hj hjti => ?_, hs.unique⟩
    rcases List.mem_cons.mp hp with rfl | hp
    · rw [hs.unique j hj i hi (Option.some.inj hjti).symm]
      exact htext
    · exact hs.signed p hp j hj hjti
  · exact hs

theorem Sound.sign (hs : Sound h) {claims : JwtClaims} {text : String}
    (hnew : h.Permitted (.sign claims text)) : Sound (h.step (.sign claims text)).2 where
  stored := hs.stored
  signed p hp i hi hjti := by
    rcases List.mem_cons.mp hp with rfl | hp
    · exact absurd hjti (hnew i hi)
    · exact hs.signed p hp i hi hjti
  unique := hs.unique

theorem Sound.revoke (hs : Sound h) (persist : Persist) (jti realmId : String) :
    Sound (h.step (.revoke persist jti realmId)).2 where
  stored k r hr := by
    simp only [step, Store.revokeAccessToken] at hr
    split at hr
    · exact hs.stored k r hr
    · next token htoken =>
      rw [Table.find_put] at hr
      split at hr
      · next hk =>
        cases hr
        exact hs.stored k token (hk ▸ Table.find_key htoken)
      · exact hs.stored k r hr
  signed := hs.signed
  unique := hs.unique

theorem Sound.step (h : History) (a : Act) (hs : Sound h) (ha : h.Permitted a) :
    Sound (h.step a).2 := by
  cases a with
  | create persist i => exact hs.create ha
  | format i => exact hs.format ha
  | sign claims text => exact hs.sign ha
  | revoke persist jti realmId => exact hs.revoke persist jti realmId

variable {st : SharedState} {decodedAt now : Nat} {token : String} {d : DecodedAccessToken}

theorem Sound.issuedAs (hs : Sound h) (hsigner : h.Unforgeable st.signer)
    (hform : h.NoOpaqueForm now token)
    (hd : decodeAccessToken st h.store decodedAt now token = .ok d) : h.IssuedAs token d := by
  rw [decodeAccessToken] at hd
  cases hr : authenticatedRecord st h.store decodedAt now token with
  | error e => rw [hr] at hd; cases hd
  | ok r =>
    rw [hr] at hd
    cases hd
    obtain ⟨p, hp, hfind, hlive, htime⟩ := of_authenticatedRecord hr
    obtain ⟨i, hi, hjti, hformat⟩ := hs.stored p.1 r.1 hfind
    refine ⟨i, hi, ?_, r.1, r.2, hjti ▸ hfind, rfl, hformat⟩
    rcases of_presentedJti hp with hp | ⟨claims, hclaims, hp⟩
    · have hopaque := hform _ _ hp hfind hlive htime
      rw [Issuance.text, formatAccessToken, ← i.format, hformat.trans hopaque, hjti,
        decodeOpaqueAccessToken_eq_some hp]
    · exact hs.signed _ (hsigner _ _ _ hclaims) i hi (hp.trans (congrArg some hjti.symm))

/-- The opaque form of a live record is accepted, whatever the format of the record. -/
theorem decodeAccessToken_of_find {s : Store} {jti : String} {r : AccessToken}
    (hjti : decodeOpaqueAccessToken token = some jti) (hfind : s.accessTokens.find jti = some r)
    (hlive : r.revoked = false) (htime : now < r.expiresAt) :
    decodeAccessToken st s decodedAt now token = .ok (r.decoded none) := by
  have hpresented : presentedJti st decodedAt token = .ok (jti, none) := by rw [presentedJti, hjti]
  have hchecked : checkAccessToken now (some r) = .ok r := by
    rw [checkAccessToken, hlive, decide_eq_false (Nat.not_le.mpr htime)]
    rfl
  rw [decodeAccessToken, authenticatedRecord, hpresented]
  simp only [bind, Except.bind, hfind, hchecked]
  rfl

theorem noOpaqueForm_of_issuedAs (hform : h.CompactForm)
    (hissued : ∀ d, decodeAccessToken st h.store decodedAt now token = .ok d →
      h.IssuedAs token d) : h.NoOpaqueForm now token := by
  intro jti r hjti hfind hlive htime
  obtain ⟨i, hi, htext, r', act, -, hd, hformat⟩ :=
    hissued _ (decodeAccessToken_of_find hjti hfind hlive htime)
  have hsame : r.tokenFormat = i.record.tokenFormat :=
    (congrArg DecodedAccessToken.tokenFormat hd).trans hformat.symm
  cases hjwt : i.record.tokenFormat with
  | isOpaque => exact hsame.trans hjwt
  | jwt => cases hjti.symm.trans (hform i hi hjwt token htext)

def after (acts : List Act) : History := final step (start s) acts

/-- A text authenticates only what it was made for exactly if it is not the opaque form of the
identifier of a JWT that is neither revoked nor expired. -/
theorem decodeAccessToken_issued (s : Store) {acts : List Act}
    (hrun : ∀ e ∈ run step (start s) acts, e.before.Permitted e.call)
    (hsigner : (after s acts).Unforgeable st.signer) (hform : (after s acts).CompactForm)
    (decodedAt now : Nat) (token : String) :
    (∀ d, decodeAccessToken st (after s acts).store decodedAt now token = .ok d →
      (after s acts).IssuedAs token d) ↔ (after s acts).NoOpaqueForm now token :=
  ⟨noOpaqueForm_of_issuedAs hform, fun hnone _ hd =>
    (run_invariant step Sound.step (sound_start s) hrun).2.issuedAs hsigner hnone hd⟩

/-! A JWT issued to one client, and a process that accepts it. -/

def sampleIssuance : Issuance :=
  .ofAccess { sampleState with signer := { sampleState.signer with
    signWithTyp := fun _ _ => .ok "jwt" } } (sampleRun 0 "1") "https://id.example"
    (sampleUser "alice") "app" "main" ["openid"] {}

def sampleDecoder : SharedState :=
  { sampleState with signer := { sampleState.signer with
      decodeSignatureOnly := fun _ token =>
        if token = "jwt" then .ok sampleIssuance.jwtClaims else .error "InvalidSignature" } }

def sampleActs : List Act := [.create .done sampleIssuance, .format sampleIssuance]

theorem permitted_sampleActs :
    ∀ e ∈ run step (start sampleStore) sampleActs, e.before.Permitted e.call := by
  intro e he
  rcases List.mem_cons.mp he with rfl | he
  · exact ⟨fun j hj => (by cases hj), fun p hp => (by cases hp)⟩
  · rw [List.mem_singleton.mp he]
    exact List.mem_cons_self

theorem unforgeable_sampleDecoder :
    (after sampleStore sampleActs).Unforgeable sampleDecoder.signer := by
  intro now token claims h
  by_cases htoken : token = "jwt"
  · subst htoken
    cases h
    exact List.mem_cons_self
  · simp only [sampleDecoder, if_neg htoken] at h
    cases h

theorem compactForm_sampleActs : (after sampleStore sampleActs).CompactForm := by
  intro i hi _ text htext
  rw [List.mem_singleton.mp hi] at htext
  cases htext
  decide

theorem decodeAccessToken_issued_jwt :
    (after sampleStore sampleActs).IssuedAs "jwt" (sampleIssuance.record.decoded none) ∧
      ¬(after sampleStore sampleActs).NoOpaqueForm 1
        (encodeOpaqueAccessToken sampleIssuance.record.jti) := by
  have hiff := decodeAccessToken_issued sampleStore permitted_sampleActs unforgeable_sampleDecoder
    compactForm_sampleActs 0 1
  refine ⟨(hiff "jwt").mpr (fun _ _ hjti => (by cases hjti)) _ rfl, fun hnone => ?_⟩
  obtain ⟨i, hi, htext, -⟩ := (hiff _).mpr hnone (sampleIssuance.record.decoded none) rfl
  rw [List.mem_singleton.mp hi] at htext
  exact absurd (Except.ok.inj htext) (by decide)

/-- The identifier of a JWT behind the opaque marker is accepted unsigned. -/
theorem decodeAccessToken_unsigned :
    (∀ e ∈ run step (start sampleStore) sampleActs, e.before.Permitted e.call) ∧
      (after sampleStore sampleActs).Unforgeable sampleDecoder.signer ∧
      sampleIssuance.record.tokenFormat = .jwt ∧
      decodeAccessToken sampleDecoder (after sampleStore sampleActs).store 0 1
        (encodeOpaqueAccessToken sampleIssuance.record.jti) =
          .ok (sampleIssuance.record.decoded none) ∧
      ∀ d, ¬ (after sampleStore sampleActs).IssuedAs
        (encodeOpaqueAccessToken sampleIssuance.record.jti) d := by
  refine ⟨permitted_sampleActs, unforgeable_sampleDecoder, rfl, rfl, fun d hd => ?_⟩
  obtain ⟨i, hi, htext, -⟩ := hd
  rw [List.mem_singleton.mp hi] at htext
  exact absurd (Except.ok.inj htext) (by decide)

end History

end Qid.OAuth
