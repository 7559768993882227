/-
Push records and their transitions.

The records are those of `models/push.rs` and the functions those of `qid-storage/src/push.rs`. A
transition that the source writes as a `&mut` update with a boolean answer is a function to `Option`
here: `none` is the answer `false`, with the record unchanged.
-/
import Qid.Core.Basic
import Qid.Lib.Checked

namespace Qid.Push

variable {now : Nat}

inductive PushPublicJwk where
  | ec (crv x y : String)
  | okp (crv x : String)
  | rsa (n e : String)
  deriving DecidableEq

def pushDeviceMetadataMax : Nat := 64

/-- Non-secret device display metadata: 1 to 64 scalar values, no control
characters and no surrounding white space. -/
def validPushDeviceMetadata (s : String) : Bool :=
  !s.isEmpty &&
    (s.toList.take (pushDeviceMetadataMax + 1)).length ≤ pushDeviceMetadataMax &&
    trim s == s && !s.toList.any isControl

structure PushAuthenticator where
  id : String
  realmId : String
  userId : String
  destination : String
  deviceName : String
  devicePlatform : String
  publicJwk : PushPublicJwk
  createdAt : Nat
  revokedAt : Option Nat
  deriving DecidableEq

structure PushRegistrationChallenge where
  authenticator : PushAuthenticator
  nonceVerifier : String
  expiresAt : Nat
  maxAttempts : Nat
  attemptCount : Nat
  deriving DecidableEq

/-- One row per authenticator: enrollment replaces the pending proof state. -/
inductive PushAuthenticatorRecord where
  | pending (c : PushRegistrationChallenge)
  | enrolled (a : PushAuthenticator)
  deriving DecidableEq

def PushAuthenticatorRecord.authenticator : PushAuthenticatorRecord → PushAuthenticator
  | .pending c => c.authenticator
  | .enrolled a => a

inductive PushPurpose where
  | passwordLogin
  deriving DecidableEq

inductive PushDecision where
  | approve
  | deny
  deriving DecidableEq

structure PushLoginChallenge where
  id : String
  realmId : String
  userId : String
  authenticatorId : String
  purpose : PushPurpose
  nonceVerifier : String
  browserBindingVerifier : String
  resendAdmittedAt : List Nat
  createdAt : Nat
  expiresAt : Nat
  maxAttempts : Nat
  attemptCount : Nat
  decision : Option PushDecision
  decidedAt : Option Nat
  consumedAt : Option Nat
  deriving DecidableEq

def conflict : QidError := .conflict "push record unavailable or ID already used"

def bad : QidError := .badRequest "invalid initial push record"

def corrupt : QidError := .internal "corrupt push storage record"

def nonempty (s : String) : Bool := !(trim s).isEmpty

/-- A byte outside ASCII is neither a digit nor a letter, so the bytes may be read as characters
once the length is that of the encoding. -/
def verifier (s : String) : Bool :=
  s.utf8ByteSize == 64 && s.toList.all fun b => b.isDigit || ('a' ≤ b && b ≤ 'f')

def keyValid : PushPublicJwk → Bool
  | .ec crv x y => [crv, x, y].all nonempty
  | .okp crv x => [crv, x].all nonempty
  | .rsa n e => [n, e].all nonempty

def authenticatorFieldsValid (a : PushAuthenticator) : Bool :=
  [a.id, a.realmId, a.userId, a.destination].all nonempty &&
    validPushDeviceMetadata a.deviceName &&
    validPushDeviceMetadata a.devicePlatform &&
    keyValid a.publicJwk &&
    a.createdAt != 0 &&
    fitsI64 a.createdAt

def registrationFieldsValid (c : PushRegistrationChallenge) : Bool :=
  authenticatorFieldsValid c.authenticator &&
    c.authenticator.revokedAt.isNone &&
    verifier c.nonceVerifier &&
    c.expiresAt > c.authenticator.createdAt &&
    fitsI64 c.expiresAt &&
    c.maxAttempts != 0

def strictlyIncreasing (xs : List Nat) : Bool := (xs.zip xs.tail).all fun pair => pair.1 < pair.2

variable (c : PushLoginChallenge)

def loginFieldsValid : Bool :=
  [c.id, c.realmId, c.userId, c.authenticatorId].all nonempty &&
    verifier c.nonceVerifier &&
    verifier c.browserBindingVerifier &&
    c.createdAt != 0 &&
    fitsI64 c.createdAt &&
    c.expiresAt > c.createdAt &&
    c.expiresAt - c.createdAt ≤ 600 &&
    c.resendAdmittedAt.length ≤ 600 &&
    (c.resendAdmittedAt.all fun t => t ≥ c.createdAt && t < c.expiresAt && fitsI64 t) &&
    strictlyIncreasing c.resendAdmittedAt &&
    (c.decidedAt.all fun t => c.resendAdmittedAt.getLast?.all fun last => last ≤ t) &&
    fitsI64 c.expiresAt &&
    c.maxAttempts != 0

def validateRegistration (c : PushRegistrationChallenge) : QidResult Unit :=
  if !registrationFieldsValid c || c.attemptCount != 0 then
    throw bad
  else
    return ()

def validateLogin : QidResult Unit :=
  if !loginFieldsValid c || c.attemptCount != 0 || !c.resendAdmittedAt.isEmpty ||
      c.decision.isSome || c.decidedAt.isSome || c.consumedAt.isSome then
    throw bad
  else
    return ()

def validateAuthenticatorRecord (a : PushAuthenticator) : QidResult Unit :=
  if !authenticatorFieldsValid a || a.revokedAt.any fun t => t < a.createdAt then
    throw corrupt
  else
    return ()

def validateRegistrationRecord (c : PushRegistrationChallenge) : QidResult Unit :=
  if !registrationFieldsValid c || c.attemptCount > c.maxAttempts then
    throw corrupt
  else
    return ()

/-- The decision, its time and the redemption of a login row do not fit together. -/
def loginDecisionInvalid : Bool :=
  match c.decision, c.decidedAt, c.consumedAt with
  | none, none, none => false
  | some _, some decidedAt, consumedAt =>
    decidedAt < c.createdAt || decidedAt ≥ c.expiresAt || c.attemptCount == 0 ||
      consumedAt.any fun consumedAt =>
        c.decision != some .approve || consumedAt < decidedAt || consumedAt ≥ c.expiresAt
  | _, _, _ => true

/-- Validate persisted state before it can be read or used to authorize a login. -/
def validateLoginRecord : QidResult Unit :=
  if !loginFieldsValid c || c.attemptCount > c.maxAttempts || loginDecisionInvalid c then
    throw corrupt
  else
    return ()

def current (a : PushAuthenticator) (c : PushLoginChallenge) : Bool :=
  a.id == c.authenticatorId && a.realmId == c.realmId && a.userId == c.userId &&
    c.createdAt ≥ a.createdAt && a.revokedAt.isNone

def live (created expires now : Nat) : Bool := now ≥ created && now < expires

def validateRow : PushAuthenticatorRecord → QidResult Unit
  | .pending c => validateRegistrationRecord c
  | .enrolled a => validateAuthenticatorRecord a

variable (row : PushAuthenticatorRecord)

def authenticatorRecord (id : String) : QidResult PushAuthenticator := do
  validateRow row
  if row.authenticator.id ≠ id then
    throw corrupt
  else
    return row.authenticator

def enrolled (id : String) : QidResult (Option PushAuthenticator) := do
  let _ ← authenticatorRecord row id
  match row with
  | .enrolled a => return some a
  | .pending _ => return none

/-- A proof attempt. The comparison ignores only the mutable state: concurrent
bad signatures must each count. -/
def registrationAttempt (expected : PushRegistrationChallenge) (verified : Bool) (now : Nat) :
    Option PushAuthenticatorRecord :=
  match row with
  | .enrolled _ => none
  | .pending c =>
    if c.authenticator ≠ expected.authenticator ∨
        c.nonceVerifier ≠ expected.nonceVerifier ∨
        c.expiresAt ≠ expected.expiresAt ∨
        c.maxAttempts ≠ expected.maxAttempts ∨
        !live c.authenticator.createdAt c.expiresAt now ∨
        c.attemptCount ≥ c.maxAttempts then
      none
    else if verified then
      some (.enrolled { c.authenticator with createdAt := now })
    else
      some (.pending { c with attemptCount := c.attemptCount + 1 })

def sameLogin (c expected : PushLoginChallenge) : Bool :=
  { c with
    attemptCount := expected.attemptCount
    decision := expected.decision
    decidedAt := expected.decidedAt
    consumedAt := expected.consumedAt } == expected

def loginAttempt (c expected : PushLoginChallenge) (decision : Option PushDecision)
    (now : Nat) : Option PushLoginChallenge :=
  if !sameLogin c expected || !live c.createdAt c.expiresAt now || c.decision.isSome ||
      c.consumedAt.isSome || c.attemptCount ≥ c.maxAttempts then
    none
  else
    let c := { c with attemptCount := c.attemptCount + 1 }
    match decision with
    | some d => some { c with decision := some d, decidedAt := some now }
    | none => some c

def redeem (c expected : PushLoginChallenge) (bindingVerifier : String) (now : Nat) :
    Option PushLoginChallenge :=
  if !verifier bindingVerifier || !sameLogin c expected ||
      !live c.createdAt c.expiresAt now || c.decision != some .approve ||
      c.consumedAt.isSome || (c.decidedAt.all fun t => t > now) ||
      c.browserBindingVerifier != bindingVerifier then
    none
  else
    some { c with consumedAt := some now }

/-- In seconds. -/
def maxPushWindowSeconds : Nat := 86400

def loginPurposeStr : PushPurpose → String
  | .passwordLogin => "password_login"

/-- The inclusive start of the quota window, from the admission time alone. -/
def quotaWindowStart (createdAt expiresAt admittedAt maxIssuances windowSeconds : Nat) :
    QidResult Nat :=
  if maxIssuances == 0 || !(1 ≤ windowSeconds && windowSeconds ≤ maxPushWindowSeconds) ||
      !live createdAt expiresAt admittedAt || !fitsI64 admittedAt || !fitsI64 createdAt ||
      !fitsI64 expiresAt then
    throw (.badRequest "invalid push issuance budget or timestamp")
  else
    return admittedAt - (windowSeconds - 1)

def cleanupCutoff (now limit : Nat) : QidResult Nat :=
  if !(1 ≤ limit && limit ≤ 1000) || !fitsI64 now then
    throw (.badRequest "invalid push cleanup bound")
  else
    return now - maxPushWindowSeconds

/-- Validate immutable admission metadata against the resend history. -/
def validateLoginIssued (issued : Nat) : QidResult Unit :=
  if issued < c.createdAt || issued ≥ c.expiresAt ||
      c.resendAdmittedAt.head?.any fun t => t ≤ issued then
    throw corrupt
  else
    return ()

def sendCount (issued start : Nat) : QidResult Nat := do
  validateLoginRecord c
  validateLoginIssued c issued
  return (if issued ≥ start then 1 else 0) + c.resendAdmittedAt.countP fun t => t ≥ start

/-- An admitted resend. The comparison ignores the mutable attempt state and the
update never overwrites it. -/
def resend (c expected : PushLoginChallenge) (bindingVerifier nonceVerifier : String)
    (issued cooldown now : Nat) : Option PushLoginChallenge :=
  if cooldown == 0 || !verifier bindingVerifier ||
      c.browserBindingVerifier != bindingVerifier || !verifier nonceVerifier ||
      nonceVerifier == c.nonceVerifier || !sameLogin c expected ||
      !live c.createdAt c.expiresAt now || c.decision.isSome || c.consumedAt.isSome ||
      c.attemptCount ≥ c.maxAttempts ||
      now - (c.resendAdmittedAt.getLast?.getD issued) < cooldown then
    none
  else
    some { c with
      nonceVerifier := nonceVerifier
      resendAdmittedAt := c.resendAdmittedAt ++ [now] }

open Lib

theorem live_iff {created expires : Nat} :
    live created expires now = true ↔ created ≤ now ∧ now < expires := by
  simp [live]

variable {c : PushLoginChallenge} {issued : Nat}

theorem validateLogin_eq_ok :
    validateLogin c = .ok () ↔ loginFieldsValid c = true ∧ c.attemptCount = 0 ∧
      c.resendAdmittedAt = [] ∧ c.decision = none ∧ c.decidedAt = none ∧ c.consumedAt = none := by
  rw [validateLogin, guard_eq_ok]
  simp [pure_eq_ok, and_assoc]

theorem validateRegistration_eq_ok {c : PushRegistrationChallenge} :
    validateRegistration c = .ok () ↔ registrationFieldsValid c = true ∧ c.attemptCount = 0 := by
  rw [validateRegistration, guard_eq_ok]
  simp [pure_eq_ok]

theorem validateRegistrationRecord_eq_ok {c : PushRegistrationChallenge} :
    validateRegistrationRecord c = .ok () ↔
      registrationFieldsValid c = true ∧ c.attemptCount ≤ c.maxAttempts := by
  rw [validateRegistrationRecord, guard_eq_ok]
  simp [pure_eq_ok]

theorem validateLoginRecord_eq_ok :
    validateLoginRecord c = .ok () ↔ loginFieldsValid c = true ∧
      c.attemptCount ≤ c.maxAttempts ∧ loginDecisionInvalid c = false := by
  rw [validateLoginRecord, guard_eq_ok]
  simp [pure_eq_ok, and_assoc]

theorem validateLoginIssued_eq_ok :
    validateLoginIssued c issued = .ok () ↔ c.createdAt ≤ issued ∧ issued < c.expiresAt ∧
      ∀ t ∈ c.resendAdmittedAt.head?, issued < t := by
  rw [validateLoginIssued, guard_eq_ok]
  cases hr : c.resendAdmittedAt.head? <;> simp [pure_eq_ok, and_assoc]

variable {row : PushAuthenticatorRecord} {a : PushAuthenticator} {id : String}

theorem authenticatorRecord_eq_ok :
    authenticatorRecord row id = .ok a ↔
      validateRow row = .ok () ∧ row.authenticator.id = id ∧ row.authenticator = a := by
  rw [authenticatorRecord, bind_eq_ok]
  constructor
  · rintro ⟨⟨⟩, hv, h⟩
    rw [guard_eq_ok, pure_eq_ok, not_not] at h
    exact ⟨hv, h⟩
  · rintro ⟨hv, h⟩
    refine ⟨(), hv, ?_⟩
    rw [guard_eq_ok, pure_eq_ok, not_not]
    exact h

theorem enrolled_eq_ok :
    enrolled row id = .ok (some a) ↔ row = .enrolled a ∧ validateAuthenticatorRecord a = .ok () ∧
      a.id = id := by
  unfold enrolled
  rw [bind_eq_ok]
  constructor
  · rintro ⟨b, hb, h⟩
    obtain ⟨hv, hid, rfl⟩ := authenticatorRecord_eq_ok.mp hb
    cases row with
    | pending => cases h
    | enrolled =>
      rw [pure_eq_ok, Option.some.injEq] at h
      subst h
      exact ⟨rfl, hv, hid⟩
  · rintro ⟨rfl, hv, hid⟩
    exact ⟨a, authenticatorRecord_eq_ok.mpr ⟨hv, hid, rfl⟩, rfl⟩

theorem quotaWindowStart_eq_ok {createdAt expiresAt admittedAt maxIssuances windowSeconds start :
    Nat} :
    quotaWindowStart createdAt expiresAt admittedAt maxIssuances windowSeconds = .ok start ↔
      0 < maxIssuances ∧ (1 ≤ windowSeconds ∧ windowSeconds ≤ maxPushWindowSeconds) ∧
      (createdAt ≤ admittedAt ∧ admittedAt < expiresAt) ∧ fitsI64 admittedAt = true ∧
      fitsI64 createdAt = true ∧ fitsI64 expiresAt = true ∧
      admittedAt - (windowSeconds - 1) = start := by
  rw [quotaWindowStart, guard_eq_ok, pure_eq_ok]
  simp only [Bool.or_eq_true, beq_iff_eq, Bool.not_eq_true', not_or, Bool.not_eq_false,
    Bool.and_eq_true, decide_eq_true_eq, live_iff, and_assoc, Nat.pos_iff_ne_zero]

theorem registrationAttempt_some {row' : PushAuthenticatorRecord}
    {expected : PushRegistrationChallenge} {verified : Bool}
    (h : registrationAttempt row expected verified now = some row') :
    ∃ c, row = .pending c ∧ c.authenticator = expected.authenticator ∧
      (c.authenticator.createdAt ≤ now ∧ now < c.expiresAt) ∧
      c.attemptCount < c.maxAttempts ∧
      row' = if verified then .enrolled { c.authenticator with createdAt := now }
        else .pending { c with attemptCount := c.attemptCount + 1 } := by
  cases row with
  | enrolled => cases h
  | pending c =>
    unfold registrationAttempt at h
    simp only at h
    split at h
    · cases h
    · rename_i hc
      simp only [not_or, not_not, Bool.not_eq_true', Bool.not_eq_false, live_iff, Nat.not_le] at hc
      refine ⟨c, rfl, hc.1, hc.2.2.2.2.1, hc.2.2.2.2.2, ?_⟩
      cases verified <;> exact (Option.some.inj h).symm

variable {expected : PushLoginChallenge}

theorem sameLogin_iff :
    sameLogin c expected = true ↔ c.id = expected.id ∧ c.realmId = expected.realmId ∧
      c.userId = expected.userId ∧ c.authenticatorId = expected.authenticatorId ∧
      c.purpose = expected.purpose ∧ c.nonceVerifier = expected.nonceVerifier ∧
      c.browserBindingVerifier = expected.browserBindingVerifier ∧
      c.resendAdmittedAt = expected.resendAdmittedAt ∧ c.createdAt = expected.createdAt ∧
      c.expiresAt = expected.expiresAt ∧ c.maxAttempts = expected.maxAttempts := by
  cases expected
  simp [sameLogin]

variable {c' : PushLoginChallenge} {bindingVerifier : String}

theorem loginAttempt_some {decision : Option PushDecision}
    (h : loginAttempt c expected decision now = some c') :
    sameLogin c expected = true ∧ (c.createdAt ≤ now ∧ now < c.expiresAt) ∧
      c.decision = none ∧ c.consumedAt = none ∧ c.attemptCount < c.maxAttempts ∧
      c' = { c with
        attemptCount := c.attemptCount + 1
        decision := decision
        decidedAt := if decision.isSome then some now else c.decidedAt } := by
  unfold loginAttempt at h
  split at h
  · cases h
  · rename_i hc
    simp only [Bool.or_eq_true, Bool.not_eq_true', decide_eq_true_eq, not_or, Bool.not_eq_false,
      live_iff, Bool.not_eq_true, Option.isSome_eq_false_iff, Option.isNone_iff_eq_none,
      Nat.not_le] at hc
    obtain ⟨⟨⟨⟨hsame, hlive⟩, hdec⟩, hcon⟩, hcount⟩ := hc
    refine ⟨hsame, hlive, hdec, hcon, hcount, ?_⟩
    cases decision with
    | none =>
      rw [← Option.some.inj h]
      simp only [hdec]
      rfl
    | some => exact (Option.some.inj h).symm

theorem redeem_some (h : redeem c expected bindingVerifier now = some c') :
    sameLogin c expected = true ∧ (c.createdAt ≤ now ∧ now < c.expiresAt) ∧
      c.decision = some .approve ∧ c.consumedAt = none ∧
      (∃ decidedAt, c.decidedAt = some decidedAt ∧ decidedAt ≤ now) ∧
      c' = { c with consumedAt := some now } := by
  unfold redeem at h
  split at h
  · cases h
  · rename_i hc
    simp only [Bool.or_eq_true, Bool.not_eq_true', bne_iff_ne, not_or, Bool.not_eq_false,
      live_iff, not_not, Bool.not_eq_true, Option.isSome_eq_false_iff,
      Option.isNone_iff_eq_none] at hc
    obtain ⟨⟨⟨⟨⟨⟨-, hsame⟩, hlive⟩, hdec⟩, hcon⟩, hat⟩, -⟩ := hc
    refine ⟨hsame, hlive, hdec, hcon, ?_, (Option.some.inj h).symm⟩
    cases hd : c.decidedAt with
    | none =>
      rw [hd] at hat
      cases hat
    | some t =>
      rw [hd] at hat
      exact ⟨t, rfl, by simpa using hat⟩

theorem resend_some {nonceVerifier : String} {cooldown : Nat}
    (h : resend c expected bindingVerifier nonceVerifier issued cooldown now = some c') :
    sameLogin c expected = true ∧ (c.createdAt ≤ now ∧ now < c.expiresAt) ∧
      c.decision = none ∧ c.consumedAt = none ∧ c.attemptCount < c.maxAttempts ∧
      c.resendAdmittedAt.getLast?.getD issued < now ∧
      c' = { c with
        nonceVerifier := nonceVerifier
        resendAdmittedAt := c.resendAdmittedAt ++ [now] } := by
  unfold resend at h
  split at h
  · cases h
  · rename_i hc
    simp only [Bool.or_eq_true, Bool.not_eq_true', bne_iff_ne, beq_iff_eq, decide_eq_true_eq,
      not_or, Bool.not_eq_false, live_iff, Bool.not_eq_true,
      Option.isSome_eq_false_iff, Option.isNone_iff_eq_none, Nat.not_le] at hc
    obtain ⟨⟨⟨⟨⟨⟨⟨⟨⟨⟨hcool, -⟩, -⟩, -⟩, -⟩, hsame⟩, hlive⟩, hdec⟩, hcon⟩, hcount⟩, hgap⟩ := hc
    refine ⟨hsame, hlive, hdec, hcon, hcount, ?_, (Option.some.inj h).symm⟩
    omega

end Qid.Push
