/-
Quotas of the push store.

A send is counted from the surviving rows. Every accepted send adds one to that count, and what a
cleanup removes lies a whole day before its cutoff, which is the longest window.
-/
import Qid.Lib.Window
import Qid.Push.WellFormed

namespace Qid.Push

open Lib Storage

variable {issued : Nat} {id : String} {now : Nat} {k : Call} {s' t : PushStore} {r : Reply}

def Call.admissionClock : Call → Option Nat
  | .issuePushRegistration _ _ _ _ _ clock | .issuePushLogin _ _ _ _ clock
  | .resendPushLogin _ _ _ _ _ _ _ clock => some clock
  | .cleanupExpiredPushRecords _ now _ => some now
  | _ => none

variable (realm user : String)

/-- The budget of a send to a user for a purpose: `max_issuances` and
`window_seconds`. -/
def Call.sendBudget (purpose : PushPurpose) : Call → Option (Nat × Nat)
  | .issuePushLogin _ c maxIssuances windowSeconds _
  | .resendPushLogin _ c _ _ maxIssuances windowSeconds _ _ =>
    if c.realmId = realm ∧ c.userId = user ∧ c.purpose = purpose then
      some (maxIssuances, windowSeconds)
    else none
  | _ => none

def Call.registrationBudget : Call → Option (Nat × Nat)
  | .issuePushRegistration _ _ c maxIssuances windowSeconds _ =>
    if c.authenticator.realmId = realm ∧ c.authenticator.userId = user then
      some (maxIssuances, windowSeconds)
    else none
  | _ => none

def sendAt (purpose : PushPurpose) (e : Event PushStore Call Reply) : Option Nat :=
  match e.call, e.reply with
  | .issuePushLogin _ c _ _ clock, .accepted (.ok true)
  | .resendPushLogin _ c _ _ _ _ _ clock, .login (.ok (some _)) =>
    if c.realmId = realm ∧ c.userId = user ∧ c.purpose = purpose then some clock else none
  | _, _ => none

def registrationAt (e : Event PushStore Call Reply) : Option Nat :=
  match e.call, e.reply with
  | .issuePushRegistration _ _ c _ _ clock, .accepted (.ok true) =>
    if c.authenticator.realmId = realm ∧ c.authenticator.userId = user then some clock else none
  | _, _ => none

section

variable {R : Type} (g : R → Nat → Nat) {r t : Rows R}

theorem Rows.total_insert {row : R} (h : r.rows.lookup id = none) :
    Rows.total g { rows := r.rows.insert id row, issuedAt := r.issuedAt.insert id issued } =
      r.total g + g row issued := by
  unfold Rows.total
  rw [HashMap.total_insert_of_notMem _ h, AList.lookup_insert, Nat.add_comm]
  congr 1
  refine HashMap.total_congr fun k v hk => ?_
  have hne : k ≠ id := by
    rintro rfl
    rw [h] at hk
    cases hk
  rw [AList.lookup_insert_ne hne]

theorem Rows.total_update {v w : R} {P : Nat → Prop} {n : Nat} (hrow : r.rows.lookup id = some v)
    (hissued : ∃ issued, r.issuedAt.lookup id = some issued ∧ P issued)
    (hg : ∀ issued, g w issued = g v issued + n) :
    Rows.total g { rows := r.rows.insert id w, issuedAt := r.issuedAt } = r.total g + n := by
  obtain ⟨issued, hi, -⟩ := hissued
  have h := HashMap.total_insert_of_lookup
    (fun id row => (r.issuedAt.lookup id).elim 0 (g row)) (w := w) hrow
  simp only [hi, Option.elim_some, hg issued] at h
  dsimp only [Rows.total]
  omega

theorem Rows.total_pruned {gone : R → Nat → Prop} (ht : Pruned gone r t)
    (hg : ∀ id row issued, r.get id = (some row, some issued) → gone row issued →
      g row issued = 0) : t.total g = r.total g := by
  have hissued : ∀ id row, t.rows.lookup id = some row →
      t.issuedAt.lookup id = r.issuedAt.lookup id := by
    intro id row hrow
    rcases ht id with hk | ⟨hnone, -⟩
    · exact (Prod.mk.inj hk).2
    · have h : t.rows.lookup id = none := (Prod.mk.inj hnone).1
      rw [h] at hrow
      cases hrow
  calc t.total g
      = HashMap.total (fun id row => (r.issuedAt.lookup id).elim 0 (g row)) t.rows :=
        HashMap.total_congr fun id row hrow => by rw [hissued id row hrow]
    _ = r.total g := by
        refine HashMap.total_eq_of_removed _ fun id => ?_
        rcases ht id with hk | ⟨hnone, row, issued, hget, hgone⟩
        · exact Or.inl (Prod.mk.inj hk).1
        · refine Or.inr ⟨(Prod.mk.inj hnone).1, fun v hv => ?_⟩
          have hrow : r.rows.lookup id = some row := (Prod.mk.inj hget).1
          have hi : r.issuedAt.lookup id = some issued := (Prod.mk.inj hget).2
          have hrv : some v = some row := hv.symm.trans hrow
          rw [hi, Option.some.inj hrv]
          exact hg id row issued hget hgone

end

variable {s : PushStore} {realm user : String} {start : Nat}

section

variable {row : PushAuthenticatorRecord}

theorem registrationAt_of_not_accepts (h : k.accepts r = false) :
    registrationAt realm user { before := s, call := k, reply := r, after := t } = none := by
  dsimp only [registrationAt]
  split
  · cases h
  · rfl

theorem registrations_effect (h : CellsOk s) (he : Effect s k r t)
    (hstart : ∀ t ∈ k.admissionClock, t - maxPushWindowSeconds ≤ start) :
    t.registrationRows.total (registrationSends realm user start) =
      s.registrationRows.total (registrationSends realm user start) +
        countFrom start (registrationAt realm user
          { before := s, call := k, reply := r, after := t }) := by
  cases he with
  | kept hk =>
    rw [registrationAt_of_not_accepts hk]
    rfl
  | issuePushRegistration _ _ hnew =>
    refine (Rows.total_insert (r := s.registrationRows) _ hnew).trans (congrArg _ ?_)
    dsimp only [registrationAt]
    rw [countFrom_ite, registrationSends]
    simp only [and_assoc]
    rfl
  | @attemptPushRegistration _ _ verified _ _ _ _ _ _ hrow _ _ hattempt =>
    obtain ⟨c, rfl, -, -, -, rfl⟩ := registrationAttempt_some hattempt
    refine Rows.total_update _ hrow (h.registrations.of_lookup hrow) ?_
    cases verified with
    | _ => exact fun _ => rfl
  | revokePushAuthenticator hrow =>
    exact Rows.total_update (r := s.registrationRows) _ hrow (h.registrations.of_lookup hrow)
      fun _ => rfl
  | issuePushLogin | attemptPushLogin | redeemPushLogin | resendPushLogin => rfl
  | @cleanup persist now limit =>
    refine Rows.total_pruned _ (cleanup_pruned persist s now limit).1 ?_
    intro id row issued _ hgone
    have hbefore := hstart now rfl
    have hlt := hgone.2
    refine if_neg ?_
    rintro ⟨-, -, hge⟩
    omega

theorem admitted_of_quota {p : Prop} [Decidable p] {M W created expires clock t : Nat}
    (total : Nat → Nat) (hq : quotaWindowStart created expires clock M W = .ok start)
    (hlt : p → total start < M) (hat : (if p then some clock else none) = some t) :
    some clock = some t ∧ ∃ M' W', (if p then some (M, W) else none) = some (M', W') ∧
      W' ≤ maxPushWindowSeconds ∧ total (t - (W' - 1)) < M' := by
  split at hat
  · rename_i hp
    cases hat
    obtain ⟨-, ⟨-, hW⟩, -, -, -, -, rfl⟩ := quotaWindowStart_eq_ok.mp hq
    exact ⟨rfl, M, W, if_pos hp, hW, hlt hp⟩
  · cases hat

theorem registration_admitted {t : Nat} (h : CellsOk s) (he : Effect s k r s')
    (hat : registrationAt realm user { before := s, call := k, reply := r, after := s' } = some t) :
    k.admissionClock = some t ∧ ∃ M W, k.registrationBudget realm user = some (M, W) ∧
      W ≤ maxPushWindowSeconds ∧
      s.registrationRows.total (registrationSends realm user (t - (W - 1))) < M := by
  cases he with
  | kept hk =>
    rw [registrationAt_of_not_accepts hk] at hat
    cases hat
  | issuePushRegistration _ hq _ hcount hlt =>
    refine admitted_of_quota
      (fun start => s.registrationRows.total (registrationSends realm user start)) hq
      (fun hu => ?_) hat
    rw [registrationCount_eq h, hu.1, hu.2, Except.ok.injEq] at hcount
    exact hcount ▸ hlt
  | _ => cases hat

def registrationQuota (realm user : String) :
    Quota step CellsOk Call.admissionClock maxPushWindowSeconds where
  admittedAt := registrationAt realm user
  budget := Call.registrationBudget realm user
  remembered := fun start s => s.registrationRows.total (registrationSends realm user start)
  step_remembered := fun _ k _ h hstart => registrations_effect h (effect_step _ k) hstart
  admitted := fun _ k _ h hat => registration_admitted h (effect_step _ k) hat

end

section

variable {purpose : PushPurpose} {c : PushLoginChallenge}

theorem loginSends_other (hu : ¬(c.realmId = realm ∧ c.userId = user ∧ c.purpose = purpose)) :
    loginSends realm user (· == purpose) start c issued = 0 :=
  if_neg fun hc => hu ⟨hc.1, hc.2.1, beq_iff_eq.mp hc.2.2⟩

theorem loginSends_gone (hstart : now - maxPushWindowSeconds ≤ start) (hok : LoginOk id c issued)
    (h : LoginGone now c issued) : loginSends realm user (· == purpose) start c issued = 0 := by
  have hgone : c.expiresAt < now - maxPushWindowSeconds := h
  obtain ⟨-, hexpires, -⟩ := validateLoginIssued_eq_ok.mp hok.issuance
  have hresends : ∀ t ∈ c.resendAdmittedAt, t < c.expiresAt := by
    have hf := (validateLoginRecord_eq_ok.mp hok.valid).1
    simp only [loginFieldsValid, Bool.and_eq_true, List.all_eq_true, decide_eq_true_eq] at hf
    exact fun t ht => (hf.1.1.1.1.2 t ht).1.2
  have hcount : c.resendAdmittedAt.countP (fun t => t ≥ start) = 0 := by
    rw [List.countP_eq_zero]
    intro t ht
    have := hresends t ht
    rw [decide_eq_true_eq]
    omega
  unfold loginSends
  rw [hcount, if_neg (show ¬issued ≥ start by omega)]
  split <;> rfl

theorem sendAt_of_not_accepts (h : k.accepts r = false) :
    sendAt realm user purpose { before := s, call := k, reply := r, after := t } = none := by
  dsimp only [sendAt]
  split
  · cases h
  · cases h
  · rfl

theorem sends_effect (h : CellsOk s) (he : Effect s k r t)
    (hstart : ∀ t ∈ k.admissionClock, t - maxPushWindowSeconds ≤ start) :
    t.loginRows.total (loginSends realm user (· == purpose) start) =
      s.loginRows.total (loginSends realm user (· == purpose) start) +
        countFrom start (sendAt realm user purpose
          { before := s, call := k, reply := r, after := t }) := by
  cases he with
  | kept hk =>
    rw [sendAt_of_not_accepts hk]
    rfl
  | @issuePushLogin challenge _ _ _ _ _ _ hvalid _ hnew =>
    refine (Rows.total_insert (r := s.loginRows) _ hnew).trans (congrArg _ ?_)
    dsimp only [sendAt]
    rw [countFrom_ite]
    by_cases hu : challenge.realmId = realm ∧ challenge.userId = user ∧ challenge.purpose = purpose
    · rw [loginSends, (validateLogin_eq_ok.mp hvalid).2.2.1]
      simp [hu]
    · rw [loginSends_other hu, if_neg fun hc => hu hc.1]
  | attemptPushLogin _ _ hrow hattempt =>
    obtain ⟨-, -, -, -, -, rfl⟩ := loginAttempt_some hattempt
    exact Rows.total_update (r := s.loginRows) _ hrow (h.logins.of_lookup hrow) fun _ => rfl
  | redeemPushLogin _ _ hrow hredeem =>
    obtain ⟨-, -, -, -, -, rfl⟩ := redeem_some hredeem
    exact Rows.total_update (r := s.loginRows) _ hrow (h.logins.of_lookup hrow) fun _ => rfl
  | resendPushLogin _ _ _ hrow _ hresend =>
    obtain ⟨hsame, -, -, -, -, -, rfl⟩ := resend_some hresend
    obtain ⟨-, hrealm, huser, -, hpurpose, -⟩ := sameLogin_iff.mp hsame
    dsimp only [sendAt]
    rw [countFrom_ite, ← hrealm, ← huser]
    refine Rows.total_update _ hrow (h.logins.of_lookup hrow) fun i => ?_
    rename PushLoginChallenge => row
    by_cases hu : row.realmId = realm ∧ row.userId = user ∧ row.purpose = purpose
    · simp [loginSends, hu, Nat.add_assoc]
    · rw [loginSends_other hu, if_neg fun hc => hu hc.1]
      exact loginSends_other hu
  | issuePushRegistration | attemptPushRegistration | revokePushAuthenticator => rfl
  | @cleanup persist now limit =>
    refine Rows.total_pruned _ (cleanup_pruned persist s now limit).2 ?_
    intro id row issued hget hgone
    have hcell := h.logins id
    rw [hget] at hcell
    cases hcell with
    | present hok => exact loginSends_gone (hstart now rfl) hok hgone

theorem send_admitted {t : Nat} (h : CellsOk s) (he : Effect s k r s')
    (hat : sendAt realm user purpose { before := s, call := k, reply := r, after := s' } = some t) :
    k.admissionClock = some t ∧ ∃ M W, k.sendBudget realm user purpose = some (M, W) ∧
      W ≤ maxPushWindowSeconds ∧
      s.loginRows.total (loginSends realm user (· == purpose) (t - (W - 1))) < M := by
  let total := fun start => s.loginRows.total (loginSends realm user (· == purpose) start)
  cases he with
  | kept hk =>
    rw [sendAt_of_not_accepts hk] at hat
    cases hat
  | issuePushLogin _ hq _ hcount hlt | resendPushLogin hq hcount hlt =>
    refine admitted_of_quota total hq (fun hu => ?_) hat
    rw [loginCount_eq h, hu.1, hu.2.1, Except.ok.injEq] at hcount
    exact hcount.trans_lt hlt
  | _ => cases hat

def sendQuota (realm user : String) (purpose : PushPurpose) :
    Quota step CellsOk Call.admissionClock maxPushWindowSeconds where
  admittedAt := sendAt realm user purpose
  budget := Call.sendBudget realm user purpose
  remembered := fun start s => s.loginRows.total (loginSends realm user (· == purpose) start)
  step_remembered := fun _ k _ h hstart => sends_effect h (effect_step _ k) hstart
  admitted := fun _ k _ h hat => send_admitted h (effect_step _ k) hat

end

/-- In a run whose admission clocks and cleanup times do not go back, any `windowSeconds`
consecutive seconds hold at most `maxIssuances` admitted sends to a user for a purpose, when all
calls for them use that budget; and likewise for the registrations of a user. -/
theorem push_quota (calls : List Call)
    (hclock : (calls.filterMap Call.admissionClock).Pairwise (· ≤ ·)) :
    (∀ realm user purpose maxIssuances windowSeconds,
      (∀ k ∈ calls, ∀ b ∈ k.sendBudget realm user purpose, b = (maxIssuances, windowSeconds)) →
      WindowBound maxIssuances windowSeconds
        ((run step PushStore.empty calls).filterMap (sendAt realm user purpose))) ∧
    ∀ realm user maxIssuances windowSeconds,
      (∀ k ∈ calls, ∀ b ∈ k.registrationBudget realm user, b = (maxIssuances, windowSeconds)) →
      WindowBound maxIssuances windowSeconds
        ((run step PushStore.empty calls).filterMap (registrationAt realm user)) := by
  constructor
  · intro realm user purpose maxIssuances windowSeconds hbudget
    exact (sendQuota realm user purpose).windowBound cellsOk_step cellsOk_empty (fun _ => rfl)
      hclock hbudget
  · intro realm user maxIssuances windowSeconds hbudget
    exact (registrationQuota realm user).windowBound cellsOk_step cellsOk_empty (fun _ => rfl)
      hclock hbudget

def Sample.resends : List Call :=
  [.issuePushRegistration users .done registration 1 60 100,
    .attemptPushRegistration users .done registration true 110,
    .issuePushLogin .done (login 200) 2 60 200,
    .resendPushLogin .done (login 200) digest digest' 2 60 5 210,
    .cleanupExpiredPushRecords .done 220 10]

theorem push_quota_resends :
    (Sample.resends.filterMap Call.admissionClock).Pairwise (· ≤ ·) ∧
      WindowBound 2 60 ((run step PushStore.empty Sample.resends).filterMap
        (sendAt "realm" "owner" .passwordLogin)) ∧
      WindowBound 1 60 ((run step PushStore.empty Sample.resends).filterMap
        (registrationAt "realm" "owner")) := by
  have hclock : (Sample.resends.filterMap Call.admissionClock).Pairwise (· ≤ ·) := by decide
  refine ⟨hclock, (push_quota Sample.resends hclock).1 _ _ _ 2 60 ?_,
    (push_quota Sample.resends hclock).2 _ _ 1 60 ?_⟩
  · decide
  · decide

end Qid.Push
