/-
The push repository as one machine.

`Call` lists the operations of the push repository with everything they read from outside the store.
The lemmas say once what an accepted call found and what it left.
-/
import Qid.Lib.Run
import Qid.Push.Store

namespace Qid.Push

open Lib Storage

inductive Call where
  | getPushRegistration (realm user id : String)
  | getPushAuthenticator (realm user id : String)
  | listPushAuthenticators (realm user : String)
  | getPushLogin (realm user id : String)
  | issuePushRegistration (users : HashMap User) (persist : Persist)
      (challenge : PushRegistrationChallenge) (maxIssuances windowSeconds clock : Nat)
  | attemptPushRegistration (users : HashMap User) (persist : Persist)
      (expected : PushRegistrationChallenge) (verified : Bool) (now : Nat)
  | revokePushAuthenticator (persist : Persist) (realm user id : String) (now : Nat)
  | issuePushLogin (persist : Persist) (challenge : PushLoginChallenge)
      (maxIssuances windowSeconds clock : Nat)
  | attemptPushLogin (persist : Persist) (expected : PushLoginChallenge)
      (decision : Option PushDecision) (now : Nat)
  | redeemPushLogin (persist : Persist) (expected : PushLoginChallenge)
      (bindingVerifier : String) (now : Nat)
  | resendPushLogin (persist : Persist) (expected : PushLoginChallenge)
      (bindingVerifier nonceVerifier : String) (maxIssuances windowSeconds cooldown clock : Nat)
  | cleanupExpiredPushRecords (persist : Persist) (now limit : Nat)

inductive Reply where
  | registration (r : QidResult (Option PushRegistrationChallenge))
  | authenticator (r : QidResult (Option PushAuthenticator))
  | authenticators (r : QidResult (List PushAuthenticator))
  | login (r : QidResult (Option PushLoginChallenge))
  | accepted (r : QidResult Bool)
  | deleted (r : QidResult Nat)

def step (s : PushStore) : Call → Reply × PushStore
  | .getPushRegistration realm user id => (.registration (getPushRegistration s realm user id), s)
  | .getPushAuthenticator realm user id =>
    (.authenticator (getPushAuthenticator s realm user id), s)
  | .listPushAuthenticators realm user => (.authenticators (listPushAuthenticators s realm user), s)
  | .getPushLogin realm user id => (.login (getPushLogin s realm user id), s)
  | .issuePushRegistration users persist challenge maxIssuances windowSeconds clock =>
    let r := issuePushRegistration users persist s challenge maxIssuances windowSeconds clock
    (.accepted r.1, r.2)
  | .attemptPushRegistration users persist expected verified now =>
    let r := attemptPushRegistration users persist s expected verified now
    (.accepted r.1, r.2)
  | .revokePushAuthenticator persist realm user key now =>
    let r := revokePushAuthenticator persist s realm user key now
    (.accepted r.1, r.2)
  | .issuePushLogin persist challenge maxIssuances windowSeconds clock =>
    let r := issuePushLogin persist s challenge maxIssuances windowSeconds clock
    (.accepted r.1, r.2)
  | .attemptPushLogin persist expected decision now =>
    let r := attemptPushLogin persist s expected decision now
    (.accepted r.1, r.2)
  | .redeemPushLogin persist expected bindingVerifier now =>
    let r := redeemPushLogin persist s expected bindingVerifier now
    (.accepted r.1, r.2)
  | .resendPushLogin persist expected bindingVerifier nonceVerifier maxIssuances windowSeconds
      cooldown clock =>
      let r := resendPushLogin persist s expected bindingVerifier nonceVerifier maxIssuances
        windowSeconds cooldown clock
      (.login r.1, r.2)
  | .cleanupExpiredPushRecords persist now limit =>
    let r := cleanupExpiredPushRecords persist s now limit
    (.deleted r.1, r.2)

variable {s : PushStore}

theorem boundAuthenticator_some {c : PushLoginChallenge} {a : PushAuthenticator}
    (h : boundAuthenticator s c = .ok (some a)) :
    s.authenticators.lookup c.authenticatorId = some (.enrolled a) ∧ current a c = true := by
  unfold boundAuthenticator at h
  cases hrow : s.authenticators.lookup c.authenticatorId with
  | none =>
    rw [hrow] at h
    cases h
  | some =>
    simp only [hrow] at h
    obtain ⟨o, ho, h⟩ := bind_eq_ok.mp h
    cases o with
    | none => cases h
    | some b =>
      simp only at h
      split_ifs at h with hc
      · rw [pure_eq_ok, Option.some.injEq] at h
        subst h
        exact ⟨congrArg some (enrolled_eq_ok.mp ho).1, hc⟩
      · cases h

theorem checkedLogin_some {id : String} {row : PushLoginChallenge}
    (h : checkedLogin s id = .ok (some row)) :
    s.logins.lookup id = some row ∧ validateLoginRecord row = .ok () ∧ row.id = id := by
  unfold checkedLogin at h
  cases hrow : s.logins.lookup id with
  | none =>
    rw [hrow] at h
    cases h
  | some =>
    simp only [hrow] at h
    obtain ⟨-, -, h⟩ := bind_eq_ok.mp h
    obtain ⟨⟨⟩, hv, h⟩ := bind_eq_ok.mp h
    rw [guard_eq_ok, pure_eq_ok, not_not, Option.some.injEq] at h
    obtain ⟨hid, rfl⟩ := h
    exact ⟨rfl, hv, hid⟩

def Call.accepts : Call → Reply → Bool
  | .getPushLogin _ _ _, _ => false
  | _, .accepted (.ok true) | _, .login (.ok (some _)) => true
  | _, _ => false

inductive Effect (s : PushStore) : Call → Reply → PushStore → Prop
  | kept {k : Call} {r : Reply} (h : k.accepts r = false) : Effect s k r s
  | issuePushRegistration {start count : Nat} (hvalid : validateRegistration challenge = .ok ())
      (hstart : quotaWindowStart challenge.authenticator.createdAt challenge.expiresAt clock
        maxIssuances windowSeconds = .ok start)
      (hnew : s.authenticators.lookup challenge.authenticator.id = none)
      (hcount : registrationCount s challenge.authenticator start = .ok count)
      (hlt : count < maxIssuances) :
      Effect s (.issuePushRegistration users persist challenge maxIssuances windowSeconds clock)
        (.accepted (.ok true)) { s with
          authenticators := s.authenticators.insert challenge.authenticator.id (.pending challenge)
          registrationIssuedAt := s.registrationIssuedAt.insert challenge.authenticator.id clock }
  | attemptPushRegistration {row row' : PushAuthenticatorRecord} {issued : Nat}
      {a : PushAuthenticator}
      (hrow : s.authenticators.lookup expected.authenticator.id = some row)
      (hissued : registrationIssued s expected.authenticator.id row = .ok issued)
      (hnow : issued ≤ now) (hattempt : registrationAttempt row expected verified now = some row')
      (hrecord : authenticatorRecord row' expected.authenticator.id = .ok a) :
      Effect s (.attemptPushRegistration users persist expected verified now)
        (.accepted (.ok true)) { s with
          authenticators := s.authenticators.insert expected.authenticator.id row' }
  | revokePushAuthenticator {id : String} {a : PushAuthenticator}
      (hrow : s.authenticators.lookup id = some (.enrolled a))
      (hvalid : validateAuthenticatorRecord { a with revokedAt := some now } = .ok ()) :
      Effect s (.revokePushAuthenticator persist realm user id now) (.accepted (.ok true))
        { s with
          authenticators := s.authenticators.insert id
            (.enrolled { a with revokedAt := some now }) }
  | issuePushLogin {start count : Nat} (hvalid : validateLogin challenge = .ok ())
      (hstart : quotaWindowStart challenge.createdAt challenge.expiresAt clock maxIssuances
        windowSeconds = .ok start)
      (hnew : s.logins.lookup challenge.id = none)
      (hcount : loginCount s challenge.realmId challenge.userId
        (fun p => loginPurposeStr p == loginPurposeStr challenge.purpose) start = .ok count)
      (hlt : count < maxIssuances) :
      Effect s (.issuePushLogin persist challenge maxIssuances windowSeconds clock)
        (.accepted (.ok true)) { s with
          loginIssuedAt := s.loginIssuedAt.insert challenge.id clock
          logins := s.logins.insert challenge.id challenge }
  /-- An accepted attempt or redemption runs its transition on the stored row, while
  the bound authenticator is enrolled and current. -/
  | attemptPushLogin {a : PushAuthenticator} {row c : PushLoginChallenge}
      (hbound : s.authenticators.lookup expected.authenticatorId = some (.enrolled a))
      (hcurrent : current a expected = true) (hrow : s.logins.lookup expected.id = some row)
      (hattempt : loginAttempt row expected decision now = some c)
      (hvalid : validateLoginRecord c = .ok ()) :
      Effect s (.attemptPushLogin persist expected decision now) (.accepted (.ok true))
        { s with logins := s.logins.insert expected.id c }
  | redeemPushLogin {a : PushAuthenticator} {row c : PushLoginChallenge}
      (hbound : s.authenticators.lookup expected.authenticatorId = some (.enrolled a))
      (hcurrent : current a expected = true) (hrow : s.logins.lookup expected.id = some row)
      (hredeem : redeem row expected bindingVerifier now = some c)
      (hvalid : validateLoginRecord c = .ok ()) :
      Effect s (.redeemPushLogin persist expected bindingVerifier now) (.accepted (.ok true))
        { s with logins := s.logins.insert expected.id c }
  | resendPushLogin {start count issued : Nat} {row c : PushLoginChallenge}
      (hstart : quotaWindowStart expected.createdAt expected.expiresAt clock maxIssuances
        windowSeconds = .ok start)
      (hcount : loginCount s expected.realmId expected.userId (fun p => p == expected.purpose)
        start = .ok count)
      (hlt : count < maxIssuances) (hrow : s.logins.lookup expected.id = some row)
      (hissued : loginIssued s expected.id row = .ok issued)
      (hresend : resend row expected bindingVerifier nonceVerifier issued cooldown clock = some c)
      (hvalid : validateLoginRecord c = .ok ()) :
      Effect s (.resendPushLogin persist expected bindingVerifier nonceVerifier maxIssuances
        windowSeconds cooldown clock) (.login (.ok (some c)))
        { s with logins := s.logins.insert expected.id c }
  | cleanup {persist : Persist} {now limit : Nat} :
      Effect s (.cleanupExpiredPushRecords persist now limit)
        (.deleted (cleanupExpiredPushRecords persist s now limit).1)
        (cleanupExpiredPushRecords persist s now limit).2

section

variable (users : HashMap User) (persist : Persist) (s : PushStore) (now : Nat)
  (maxIssuances windowSeconds clock : Nat) {k : Call}

def Outcome (s : PushStore) (k : Call) : Prop := Effect s k (step s k).1 (step s k).2

variable {persist s} in
/-- A mutation fails and leaves the store, or ends as its closure does. -/
theorem effect_mutatePushValue {α : Type} (reply : QidResult α → Reply)
    {f : PushStore → QidResult (Bool × α × PushStore)}
    (herror : ∀ e, k.accepts (reply (.error e)) = false)
    (h : Ensures (fun r => Effect s k (reply (.ok r.2.1)) r.2.2) (f s)) :
    Effect s k (reply (mutatePushValue persist s f).1) (mutatePushValue persist s f).2 := by
  rw [mutatePushValue]
  cases hf : f s with
  | error e => exact .kept (herror e)
  | ok r =>
    have hr := h.of_ok r hf
    obtain ⟨changed, value, s'⟩ := r
    cases changed with
    | false => exact hr
    | true =>
      cases hp : pushPersist persist with
      | error e => exact .kept (herror e)
      | ok => exact hr

variable {persist s} in
theorem effect_mutatePush {f : PushStore → QidResult (Bool × PushStore)}
    (herror : ∀ e, k.accepts (.accepted (.error e)) = false)
    (h : Ensures (fun r => Effect s k (.accepted (.ok r.1)) r.2) (f s)) :
    Effect s k (.accepted (mutatePush persist s f).1) (mutatePush persist s f).2 := by
  exact effect_mutatePushValue .accepted herror
    (ensures_bind fun r hr => ensures_pure (h.of_ok r hr))

theorem effect_issuePushRegistration (challenge : PushRegistrationChallenge) :
    Outcome s
      (.issuePushRegistration users persist challenge maxIssuances windowSeconds clock) := by
  simp only [Outcome, step]
  unfold issuePushRegistration
  cases hv : validateRegistration challenge with
  | error => exact .kept rfl
  | ok =>
    refine effect_mutatePush (fun _ => rfl) (ensures_bind fun start hstart => ?_)
    refine ensures_guard fun _ => ensures_guard fun hnew => ensures_bind fun count hcount => ?_
    rw [Bool.not_eq_true, Option.isSome_eq_false_iff, Option.isNone_iff_eq_none] at hnew
    split
    · exact ensures_pure (.kept rfl)
    · exact ensures_pure (.issuePushRegistration hv hstart hnew hcount (by omega))

theorem effect_attemptPushRegistration (expected : PushRegistrationChallenge) (verified : Bool) :
    Outcome s (.attemptPushRegistration users persist expected verified now) := by
  simp only [Outcome, step]
  refine effect_mutatePush (fun _ => rfl) ?_
  dsimp only
  split
  · exact ensures_pure (.kept rfl)
  · refine ensures_bind fun _ _ => ?_
    split
    · exact ensures_pure (.kept rfl)
    · next row hrow =>
      refine ensures_bind fun _ _ => ensures_bind fun issued hissued => ?_
      split
      · exact ensures_pure (.kept rfl)
      · next hnow =>
        split
        · exact ensures_pure (.kept rfl)
        · next row' hattempt =>
          refine ensures_bind fun a ha => ensures_pure ?_
          exact .attemptPushRegistration hrow hissued (by omega) hattempt ha

theorem effect_revokePushAuthenticator (realm user id : String) :
    Outcome s (.revokePushAuthenticator persist realm user id now) := by
  simp only [Outcome, step]
  refine effect_mutatePush (fun _ => rfl) ?_
  split
  · exact ensures_pure (.kept rfl)
  · next row hrow =>
    refine ensures_bind fun _ _ => ?_
    cases row with
    | pending => exact ensures_pure (.kept rfl)
    | enrolled a =>
      dsimp only
      split
      · exact ensures_pure (.kept rfl)
      · exact ensures_bind fun _ hvalid => ensures_pure (.revokePushAuthenticator hrow hvalid)

theorem effect_issuePushLogin (challenge : PushLoginChallenge) :
    Outcome s (.issuePushLogin persist challenge maxIssuances windowSeconds clock) := by
  simp only [Outcome, step]
  unfold issuePushLogin
  cases hv : validateLogin challenge with
  | error => exact .kept rfl
  | ok =>
    refine effect_mutatePush (fun _ => rfl) (ensures_bind fun start hstart => ?_)
    refine ensures_guard fun hnew => ensures_bind fun o ho => ?_
    rw [Bool.not_eq_true, Option.isSome_eq_false_iff, Option.isNone_iff_eq_none] at hnew
    cases o with
    | none => exact ⟨fun _ h => absurd h throw_ne_ok⟩
    | some =>
      refine ensures_bind fun count hcount => ?_
      split
      · exact ensures_pure (.kept rfl)
      · exact ensures_pure (.issuePushLogin hv hstart hnew hcount (by omega))

variable (expected : PushLoginChallenge)

theorem effect_attemptPushLogin (decision : Option PushDecision) :
    Outcome s (.attemptPushLogin persist expected decision now) := by
  simp only [Outcome, step]
  refine effect_mutatePush (fun _ => rfl) ?_
  refine ensures_bind fun _ _ => ensures_bind fun o ho => ?_
  cases o with
  | none => exact ensures_pure (.kept rfl)
  | some a =>
    refine ensures_bind fun o' ho' => ?_
    cases o' with
    | none => exact ensures_pure (.kept rfl)
    | some row =>
      dsimp only
      split
      · exact ensures_pure (.kept rfl)
      · next c hattempt =>
        refine ensures_bind fun _ hc => ensures_pure ?_
        obtain ⟨hbound, hcurrent⟩ := boundAuthenticator_some ho
        exact .attemptPushLogin hbound hcurrent (checkedLogin_some ho').1 hattempt hc

theorem effect_redeemPushLogin (bindingVerifier : String) :
    Outcome s (.redeemPushLogin persist expected bindingVerifier now) := by
  simp only [Outcome, step]
  refine effect_mutatePush (fun _ => rfl) (ensures_bind fun _ _ => ?_)
  split
  · exact ensures_pure (.kept rfl)
  · refine ensures_bind fun o ho => ?_
    cases o with
    | none => exact ensures_pure (.kept rfl)
    | some a =>
      refine ensures_bind fun o' ho' => ?_
      cases o' with
      | none => exact ensures_pure (.kept rfl)
      | some row =>
        dsimp only
        split
        · exact ensures_pure (.kept rfl)
        · next c hredeem =>
          refine ensures_bind fun _ hc => ensures_pure ?_
          obtain ⟨hbound, hcurrent⟩ := boundAuthenticator_some ho
          exact .redeemPushLogin hbound hcurrent (checkedLogin_some ho').1 hredeem hc

theorem effect_resendPushLogin (bindingVerifier nonceVerifier : String) (cooldown : Nat) :
    Outcome s (.resendPushLogin persist expected bindingVerifier nonceVerifier maxIssuances
      windowSeconds cooldown clock) := by
  simp only [Outcome, step]
  unfold resendPushLogin
  cases hv : validateLoginRecord expected with
  | error => exact .kept rfl
  | ok =>
    refine effect_mutatePushValue .login (fun _ => rfl) ?_
    split
    · exact ensures_pure (.kept rfl)
    · refine ensures_bind fun start hstart => ensures_bind fun o ho => ?_
      cases o with
      | none => exact ensures_pure (.kept rfl)
      | some =>
        refine ensures_bind fun count hcount => ?_
        split
        · exact ensures_pure (.kept rfl)
        · next hlt =>
          split
          · exact ensures_pure (.kept rfl)
          · next row hrow =>
            refine ensures_bind fun issued hissued => ?_
            split
            · exact ensures_pure (.kept rfl)
            · next c hresend =>
              refine ensures_bind fun _ hvalid => ensures_pure ?_
              exact .resendPushLogin hstart hcount (by omega) hrow hissued hresend hvalid

theorem effect_step (k : Call) : Effect s k (step s k).1 (step s k).2 := by
  cases k with
  | issuePushRegistration => exact effect_issuePushRegistration ..
  | attemptPushRegistration => exact effect_attemptPushRegistration ..
  | revokePushAuthenticator => exact effect_revokePushAuthenticator ..
  | issuePushLogin => exact effect_issuePushLogin ..
  | attemptPushLogin => exact effect_attemptPushLogin ..
  | redeemPushLogin => exact effect_redeemPushLogin ..
  | resendPushLogin => exact effect_resendPushLogin ..
  | cleanupExpiredPushRecords => exact .cleanup
  | _ => exact .kept rfl

end

namespace Sample

def digest : String := "aaaaaaaaaaaaaaaaaaaaaaaaaaaaaaaaaaaaaaaaaaaaaaaaaaaaaaaaaaaaaaaa"

def digest' : String := "bbbbbbbbbbbbbbbbbbbbbbbbbbbbbbbbbbbbbbbbbbbbbbbbbbbbbbbbbbbbbbbb"

def users : HashMap User := (∅ : HashMap User).insert "owner" { realmId := "realm" }

def registration : PushRegistrationChallenge :=
  { authenticator :=
      { id := "device", realmId := "realm", userId := "owner", destination := "d"
        deviceName := "Phone", devicePlatform := "android", publicJwk := .okp "Ed25519" "x"
        createdAt := 100, revokedAt := none }
    nonceVerifier := digest, expiresAt := 200, maxAttempts := 2, attemptCount := 0 }

def login (createdAt : Nat) : PushLoginChallenge :=
  { id := "login", realmId := "realm", userId := "owner", authenticatorId := "device"
    purpose := .passwordLogin, nonceVerifier := digest, browserBindingVerifier := digest
    resendAdmittedAt := [], createdAt := createdAt, expiresAt := createdAt + 100
    maxAttempts := 3, attemptCount := 0, decision := none, decidedAt := none
    consumedAt := none }

end Sample

end Qid.Push
