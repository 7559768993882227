/-
Well-formedness of the push store.

A row and its issuance metadata form one cell of the store. Each operation rewrites at most one
cell, and a cleanup only empties cells.
-/
import Qid.Push.Cleanup

namespace Qid.Push

open Lib Storage

variable {id : String} {issued now : Nat} {row : PushAuthenticatorRecord}
  {c c' expected : PushLoginChallenge} {start : Nat} {a : PushAuthenticator}
  {bindingVerifier : String} {s : PushStore}

section

variable {R : Type} {ok : String → R → Nat → Prop} {r t : Rows R} {row : R}

/-- The cell under a key is empty, or a row with metadata that passes its checks. -/
inductive Cell (ok : String → R → Nat → Prop) (id : String) : Option R × Option Nat → Prop
  | absent : Cell ok id (none, none)
  | present {row : R} {issued : Nat} (h : ok id row issued) : Cell ok id (some row, some issued)

def Rows.All (ok : String → R → Nat → Prop) (r : Rows R) : Prop := ∀ id, Cell ok id (r.get id)

variable (h : r.All ok)
include h

theorem Rows.All.of_lookup (hrow : r.rows.lookup id = some row) :
    ∃ issued, r.issuedAt.lookup id = some issued ∧ ok id row issued := by
  have hc := h id
  rw [Rows.get, hrow] at hc
  generalize r.issuedAt.lookup id = o at hc
  cases hc with
  | present hok => exact ⟨_, rfl, hok⟩

theorem Rows.All.keys (id : String) : id ∈ r.issuedAt ↔ id ∈ r.rows := by
  rw [HashMap.lookup_isSome_iff, HashMap.lookup_isSome_iff]
  have hc := h id
  rw [Rows.get] at hc
  generalize r.issuedAt.lookup id = o, r.rows.lookup id = p at hc
  cases hc with
  | _ => simp

theorem Rows.All.pruned {gone : R → Nat → Prop} (ht : Pruned gone r t) :
    t.All ok := by
  intro id
  rcases ht id with hk | ⟨hnone, -⟩
  · rw [hk]
    exact h id
  · rw [hnone]
    exact Cell.absent

theorem Rows.All.insert (hok : ok id row issued) :
    Rows.All ok { rows := r.rows.insert id row, issuedAt := r.issuedAt.insert id issued } := by
  intro k
  rw [Rows.get, KeyMap.lookup_insert_eq, KeyMap.lookup_insert_eq]
  split
  · rename_i hk
    exact hk ▸ Cell.present hok
  · exact h k

theorem Rows.All.update {row' : R} (hrow : r.rows.lookup id = some row)
    (hok : ∀ issued, r.issuedAt.lookup id = some issued → ok id row issued → ok id row' issued) :
    Rows.All ok { rows := r.rows.insert id row', issuedAt := r.issuedAt } := by
  intro k
  rw [Rows.get, KeyMap.lookup_insert_eq]
  by_cases hk : k = id
  · subst hk
    obtain ⟨issued, hi, ho⟩ := h.of_lookup hrow
    rw [if_pos rfl, hi]
    exact Cell.present (hok issued hi ho)
  · rw [if_neg hk]
    exact h k

end

structure RegistrationOk (id : String) (row : PushAuthenticatorRecord) (issued : Nat) : Prop where
  valid : validateRow row = .ok ()
  key : row.authenticator.id = id
  issuance : registrationIssuedValid row issued = true

structure LoginOk (id : String) (c : PushLoginChallenge) (issued : Nat) : Prop where
  valid : validateLoginRecord c = .ok ()
  key : c.id = id
  issuance : validateLoginIssued c issued = .ok ()

structure CellsOk (s : PushStore) : Prop where
  registrations : s.registrationRows.All RegistrationOk
  logins : s.loginRows.All LoginOk

theorem cellsOk_empty : CellsOk PushStore.empty := ⟨fun _ => Cell.absent, fun _ => Cell.absent⟩

/-- Enrollment keeps the issuance metadata: the proof is not older than it. -/
theorem RegistrationOk.attempt {row' : PushAuthenticatorRecord}
    {expected : PushRegistrationChallenge} {verified : Bool} (h : RegistrationOk id row issued)
    (hatt : registrationAttempt row expected verified now = some row')
    (hrec : authenticatorRecord row' id = .ok a) (hnow : issued ≤ now) :
    RegistrationOk id row' issued := by
  obtain ⟨hv, hid, -⟩ := authenticatorRecord_eq_ok.mp hrec
  obtain ⟨c, rfl, -, -, -, hrow'⟩ := registrationAttempt_some hatt
  refine ⟨hv, hid, ?_⟩
  have hissued := h.issuance
  have hfields := (validateRegistrationRecord_eq_ok.mp h.valid).1
  simp only [registrationIssuedValid, Bool.and_eq_true, decide_eq_true_eq] at hissued
  have hcreated : c.authenticator.createdAt ≠ 0 := by
    simp only [registrationFieldsValid, authenticatorFieldsValid, Bool.and_eq_true,
      bne_iff_ne] at hfields
    exact hfields.1.1.1.1.1.1.2
  cases verified with
  | true =>
    rw [hrow', if_pos rfl]
    simp only [registrationIssuedValid, Bool.and_eq_true, bne_iff_ne, decide_eq_true_eq]
    omega
  | false =>
    rw [hrow', if_neg Bool.false_ne_true]
    simp only [registrationIssuedValid, Bool.and_eq_true, decide_eq_true_eq]
    exact hissued

theorem LoginOk.attempt {decision : Option PushDecision} (h : LoginOk id c issued)
    (hatt : loginAttempt c expected decision now = some c') (hv : validateLoginRecord c' = .ok ()) :
    LoginOk id c' issued := by
  obtain ⟨-, -, -, -, -, rfl⟩ := loginAttempt_some hatt
  exact ⟨hv, h.key, h.issuance⟩

/-- The first resend comes after the issuance, and later ones do not change it. -/
theorem LoginOk.resend {cooldown : Nat} {nonceVerifier : String} (h : LoginOk id c issued)
    (hres : resend c expected bindingVerifier nonceVerifier issued cooldown now = some c')
    (hv : validateLoginRecord c' = .ok ()) : LoginOk id c' issued := by
  obtain ⟨-, -, -, -, -, hlast, rfl⟩ := resend_some hres
  obtain ⟨hcreated, hexpires, hhead⟩ := validateLoginIssued_eq_ok.mp h.issuance
  refine ⟨hv, h.key, validateLoginIssued_eq_ok.mpr ⟨hcreated, hexpires, ?_⟩⟩
  cases hl : c.resendAdmittedAt with
  | nil =>
    rw [hl] at hlast
    rintro t ht
    rw [List.nil_append, List.head?_cons, Option.mem_some_iff] at ht
    subst ht
    exact hlast
  | cons =>
    rw [hl] at hhead
    exact hhead

theorem CellsOk.effect {t : PushStore} {k : Call} {r : Reply} (h : CellsOk s)
    (he : Effect s k r t) : CellsOk t := by
  cases he with
  | kept => exact h
  | issuePushRegistration hvalid hstart =>
    obtain ⟨hf, hcount⟩ := validateRegistration_eq_ok.mp hvalid
    obtain ⟨-, -, ⟨hcreated, hexpires⟩, -⟩ := quotaWindowStart_eq_ok.mp hstart
    refine ⟨h.registrations.insert ⟨validateRegistrationRecord_eq_ok.mpr ⟨hf, by omega⟩, rfl, ?_⟩,
      h.logins⟩
    simp [registrationIssuedValid, hcreated, hexpires]
  | attemptPushRegistration hrow hissued hnow hattempt hrecord =>
    refine ⟨h.registrations.update hrow fun i hi hok => ?_, h.logins⟩
    have hii : some i = _ := hi.symm.trans (registrationIssued_eq_ok.mp hissued).1
    rw [Option.some.inj hii] at hok ⊢
    exact hok.attempt hattempt hrecord hnow
  | revokePushAuthenticator hrow hvalid =>
    exact ⟨h.registrations.update hrow fun i hi hok => ⟨hvalid, hok.key, hok.issuance⟩, h.logins⟩
  | issuePushLogin hvalid hstart =>
    obtain ⟨hf, hcount, hresend, hdec, hat, hcon⟩ := validateLogin_eq_ok.mp hvalid
    obtain ⟨-, -, ⟨hcreated, hexpires⟩, -⟩ := quotaWindowStart_eq_ok.mp hstart
    refine ⟨h.registrations, h.logins.insert
      ⟨validateLoginRecord_eq_ok.mpr ⟨hf, by omega, ?_⟩, rfl,
        validateLoginIssued_eq_ok.mpr ⟨hcreated, hexpires, ?_⟩⟩⟩
    · simp [loginDecisionInvalid, hdec, hat, hcon]
    · simp [hresend]
  | attemptPushLogin _ _ hrow hattempt hvalid =>
    exact ⟨h.registrations, h.logins.update hrow fun i hi hok => hok.attempt hattempt hvalid⟩
  | redeemPushLogin _ _ hrow hredeem hvalid =>
    refine ⟨h.registrations, h.logins.update hrow fun i hi hok => ?_⟩
    obtain ⟨-, -, -, -, -, rfl⟩ := redeem_some hredeem
    exact ⟨hvalid, hok.key, hok.issuance⟩
  | resendPushLogin _ _ _ hrow hissued hresend hvalid =>
    refine ⟨h.registrations, h.logins.update hrow fun i hi hok => ?_⟩
    have hii : some i = _ := hi.symm.trans (loginIssued_eq_ok.mp hissued).1
    rw [Option.some.inj hii] at hok ⊢
    exact hok.resend hresend hvalid
  | cleanup =>
    obtain ⟨hr, hl⟩ := cleanup_pruned _ s _ _
    exact ⟨h.registrations.pruned hr, h.logins.pruned hl⟩

theorem cellsOk_step (s : PushStore) (k : Call) (h : CellsOk s) : CellsOk (step s k).2 :=
  h.effect (effect_step s k)

def Rows.total {R : Type} (g : R → Nat → Nat) (r : Rows R) : Nat :=
  HashMap.total (fun id row => (r.issuedAt.lookup id).elim 0 (g row)) r.rows

def registrationSends (realm user : String) (start : Nat) (row : PushAuthenticatorRecord)
    (issued : Nat) : Nat :=
  if row.authenticator.realmId = realm ∧ row.authenticator.userId = user ∧ issued ≥ start then 1
  else 0

def loginSends (realm user : String) (samePurpose : PushPurpose → Bool) (start : Nat)
    (c : PushLoginChallenge) (issued : Nat) : Nat :=
  if c.realmId = realm ∧ c.userId = user ∧ samePurpose c.purpose then
    (if issued ≥ start then 1 else 0) + c.resendAdmittedAt.countP fun t => t ≥ start
  else 0

section

section

variable (h : CellsOk s)
include h

section

variable (hrow : s.authenticators.lookup id = some row)
include hrow

theorem CellsOk.authenticatorRecord : authenticatorRecord row id = .ok row.authenticator := by
  obtain ⟨issued, -, hok⟩ := h.registrations.of_lookup hrow
  exact authenticatorRecord_eq_ok.mpr ⟨hok.valid, hok.key, rfl⟩

theorem CellsOk.registrationIssued : ∃ issued, registrationIssued s id row = .ok issued := by
  obtain ⟨issued, hi, hok⟩ := h.registrations.of_lookup hrow
  exact ⟨issued, registrationIssued_eq_ok.mpr ⟨hi, hok.issuance⟩⟩

theorem CellsOk.enrolled : ∃ o, enrolled row id = .ok o := by
  unfold Push.enrolled
  rw [h.authenticatorRecord hrow]
  cases row with
  | pending => exact ⟨none, rfl⟩
  | enrolled a => exact ⟨some a, rfl⟩

end

theorem CellsOk.login (hrow : s.logins.lookup id = some c) :
    validateLoginRecord c = .ok () ∧ c.id = id ∧ ∃ issued, loginIssued s id c = .ok issued := by
  obtain ⟨issued, hi, hok⟩ := h.logins.of_lookup hrow
  exact ⟨hok.valid, hok.key, issued, loginIssued_eq_ok.mpr ⟨hi, hok.issuance⟩⟩

theorem getPushRegistration_isOk (realm user id : String) :
    ∃ o, getPushRegistration s realm user id = .ok o := by
  unfold getPushRegistration
  cases hrow : s.authenticators.lookup id with
  | none => exact ⟨none, rfl⟩
  | some row =>
    simp only
    rw [h.authenticatorRecord hrow]
    by_cases hc : row.authenticator.realmId ≠ realm ∨ row.authenticator.userId ≠ user
    · exact ⟨none, if_pos hc⟩
    · cases row with
      | pending c => exact ⟨some c, if_neg hc⟩
      | enrolled => exact ⟨none, if_neg hc⟩

theorem getPushAuthenticator_isOk (realm user id : String) :
    ∃ o, getPushAuthenticator s realm user id = .ok o := by
  unfold getPushAuthenticator
  cases hrow : s.authenticators.lookup id with
  | none => exact ⟨none, rfl⟩
  | some =>
    simp only
    obtain ⟨o, ho⟩ := h.enrolled hrow
    rw [ho]
    cases o with
    | none => exact ⟨none, rfl⟩
    | some a =>
      by_cases hc : a.realmId ≠ realm ∨ a.userId ≠ user
      · exact ⟨none, if_pos hc⟩
      · exact ⟨some a, if_neg hc⟩

theorem listPushAuthenticators_isOk (realm user : String) :
    ∃ l, listPushAuthenticators s realm user = .ok l := by
  have hstep : ∀ entry ∈ s.authenticators.pairs, ∀ rows,
      ∃ rows', listStep realm user rows entry = .ok rows' := by
    rintro ⟨id, row⟩ hmem rows
    obtain ⟨o, ho⟩ := h.enrolled (HashMap.mem_pairs.mp hmem)
    unfold listStep
    rw [ho]
    cases o with
    | none => exact ⟨rows, rfl⟩
    | some a =>
      by_cases hc : a.realmId = realm ∧ a.userId = user
      · exact ⟨rows ++ [a], if_pos hc⟩
      · exact ⟨rows, if_neg hc⟩
  obtain ⟨rows, hrows⟩ := foldlM_isOk hstep []
  unfold listPushAuthenticators
  rw [hrows]
  exact ⟨_, rfl⟩

theorem getPushLogin_isOk (realm user id : String) : ∃ o, getPushLogin s realm user id = .ok o := by
  unfold getPushLogin
  cases hrow : s.logins.lookup id with
  | none => exact ⟨none, rfl⟩
  | some c =>
    obtain ⟨hv, hid, issued, hissued⟩ := h.login hrow
    simp only
    rw [hv, hissued]
    by_cases hc : c.realmId ≠ realm ∨ c.userId ≠ user
    · exact ⟨none, (if_neg (not_not.mpr hid)).trans (if_pos hc)⟩
    · exact ⟨some c, (if_neg (not_not.mpr hid)).trans (if_neg hc)⟩

theorem registrationCount_eq (a : PushAuthenticator) (start : Nat) :
    registrationCount s a start =
      .ok (s.registrationRows.total (registrationSends a.realmId a.userId start)) := by
  have hstep : ∀ entry ∈ s.authenticators.pairs, ∀ n,
      registrationCountStep s a start n entry =
        .ok (n + (s.registrationIssuedAt.lookup entry.1).elim 0
          (registrationSends a.realmId a.userId start entry.2)) := by
    rintro ⟨id, row⟩ hmem n
    have hrow := HashMap.mem_pairs.mp hmem
    obtain ⟨issued, hissued⟩ := h.registrationIssued hrow
    unfold registrationCountStep
    rw [h.authenticatorRecord hrow, hissued, (registrationIssued_eq_ok.mp hissued).1,
      Option.elim_some, registrationSends]
    by_cases hu : row.authenticator.realmId = a.realmId ∧ row.authenticator.userId = a.userId
    · by_cases hs : issued ≥ start <;> simp [hu, hs, bind, Except.bind, pure, Except.pure]
    · have hu' : ¬(row.authenticator.realmId = a.realmId ∧
          row.authenticator.userId = a.userId ∧ issued ≥ start) :=
        fun hc => hu ⟨hc.1, hc.2.1⟩
      rw [if_neg hu']
      exact if_neg hu
  unfold registrationCount
  rw [foldlM_eq_ok hstep, Nat.zero_add, HashMap.sum_pairs]
  rfl

theorem loginCount_eq (realm user : String) (samePurpose : PushPurpose → Bool) (start : Nat) :
    loginCount s realm user samePurpose start =
      .ok (s.loginRows.total (loginSends realm user samePurpose start)) := by
  have hstep : ∀ entry ∈ s.logins.pairs, ∀ n,
      loginCountStep s realm user samePurpose start n entry =
        .ok (n + (s.loginIssuedAt.lookup entry.1).elim 0
          (loginSends realm user samePurpose start entry.2)) := by
    rintro ⟨id, c⟩ hmem n
    obtain ⟨hv, hid, issued, hissued⟩ := h.login (HashMap.mem_pairs.mp hmem)
    obtain ⟨hlook, hvi⟩ := loginIssued_eq_ok.mp hissued
    unfold loginCountStep
    rw [hv, hissued, hlook, Option.elim_some, loginSends]
    by_cases hu : c.realmId = realm ∧ c.userId = user ∧ samePurpose c.purpose = true
    · simp [hu, hid, hv, hvi, sendCount, bind, Except.bind, pure, Except.pure]
    · rw [if_neg hu, if_neg hu]
      exact if_neg (not_not.mpr hid)
  unfold loginCount
  rw [foldlM_eq_ok hstep, Nat.zero_add, HashMap.sum_pairs]
  rfl

theorem validateRows_eq_ok : validateRows s = .ok () := by
  have hauth : forM s.authenticators.pairs (fun entry => do
      let _ ← authenticatorRecord entry.2 entry.1
      let _ ← registrationIssued s entry.1 entry.2) = (.ok () : QidResult Unit) := by
    refine forM_eq_ok.mpr ?_
    rintro ⟨id, row⟩ hmem
    have hrow := HashMap.mem_pairs.mp hmem
    obtain ⟨issued, hissued⟩ := h.registrationIssued hrow
    rw [h.authenticatorRecord hrow, hissued]
    rfl
  have hlogin : forM s.logins.pairs (fun entry => do
      validateLoginRecord entry.2
      if entry.2.id ≠ entry.1 then
        throw corrupt
      else do
        let _ ← loginIssued s entry.1 entry.2) = (.ok () : QidResult Unit) := by
    refine forM_eq_ok.mpr ?_
    rintro ⟨id, c⟩ hmem
    obtain ⟨hv, hid, issued, hissued⟩ := h.login (HashMap.mem_pairs.mp hmem)
    rw [hv, hissued]
    exact if_neg (not_not.mpr hid)
  unfold validateRows
  rw [hauth]
  exact hlogin

end

theorem pushPersist_ne_corrupt (persist : Persist) : pushPersist persist ≠ .error corrupt := by
  cases persist with
  | done => simp [pushPersist]
  | unserializable => simp [pushPersist, corrupt]
  | failed fault =>
    obtain ⟨rest, hrest⟩ := fault.error_eq_failed
    rw [pushPersist, hrest]
    intro h
    have hstr : String.ofList ('f' :: rest) = "corrupt push storage record" := by
      simpa [corrupt] using h
    have hl := congrArg String.toList hstr
    rw [String.toList_ofList] at hl
    exact absurd (List.cons.inj hl).1 (by decide)

theorem cleanup_ne_corrupt (h : CellsOk s) (persist : Persist) (now limit : Nat) :
    (cleanupExpiredPushRecords persist s now limit).1 ≠ .error corrupt := by
  unfold cleanupExpiredPushRecords
  cases hcut : cleanupCutoff now limit with
  | error =>
    rintro ⟨⟩
    unfold cleanupCutoff at hcut
    split at hcut <;> cases hcut
  | ok cutoff =>
    rw [validateRows_eq_ok h]
    simp only
    generalize selectOldest (expiredRegistrations s now cutoff) limit = regs
    generalize (if limit - regs.length = 0 then []
      else selectOldest (expiredLogins s cutoff) (limit - regs.length)) = logins
    split
    · rintro ⟨⟩
    · cases hp : pushPersist persist with
      | ok => rintro ⟨⟩
      | error =>
        rintro ⟨⟩
        exact pushPersist_ne_corrupt persist hp

end

structure WellFormed (s : PushStore) : Prop where
  authenticators : ∀ id row, s.authenticators.lookup id = some row →
    (∃ a, authenticatorRecord row id = .ok a) ∧ ∃ issued, registrationIssued s id row = .ok issued
  logins : ∀ id c, s.logins.lookup id = some c →
    validateLoginRecord c = .ok () ∧ c.id = id ∧
      ∃ issued, s.loginIssuedAt.lookup id = some issued ∧ validateLoginIssued c issued = .ok ()
  registrationKeys : ∀ id, id ∈ s.registrationIssuedAt ↔ id ∈ s.authenticators
  loginKeys : ∀ id, id ∈ s.loginIssuedAt ↔ id ∈ s.logins

theorem CellsOk.wellFormed (h : CellsOk s) : WellFormed s := by
  refine ⟨?_, ?_, h.registrations.keys, h.logins.keys⟩
  · intro id row hrow
    exact ⟨⟨_, h.authenticatorRecord hrow⟩, h.registrationIssued hrow⟩
  · intro id c hrow
    obtain ⟨issued, hi, hok⟩ := h.logins.of_lookup hrow
    exact ⟨hok.valid, hok.key, issued, hi, hok.issuance⟩

/-- A store that the repository produced is well formed, and no read, count or cleanup of it reports
corruption, whatever the calls, the clocks and the writes were. -/
theorem push_store_never_corrupt (calls : List Call) :
    let s := final step PushStore.empty calls
    WellFormed s ∧
      (∀ realm user id, getPushRegistration s realm user id ≠ .error corrupt) ∧
      (∀ realm user id, getPushAuthenticator s realm user id ≠ .error corrupt) ∧
      (∀ realm user, listPushAuthenticators s realm user ≠ .error corrupt) ∧
      (∀ realm user id, getPushLogin s realm user id ≠ .error corrupt) ∧
      (∀ a start, registrationCount s a start ≠ .error corrupt) ∧
      (∀ realm user samePurpose start, loginCount s realm user samePurpose start ≠ .error corrupt) ∧
      ∀ persist now limit, (cleanupExpiredPushRecords persist s now limit).1 ≠ .error corrupt := by
  have h : CellsOk (final step PushStore.empty calls) :=
    final_invariant step cellsOk_step cellsOk_empty calls
  have hne : ∀ {α : Type} {r : QidResult α}, (∃ a, r = .ok a) → r ≠ .error corrupt := by
    rintro α r ⟨a, rfl⟩ hr
    cases hr
  refine ⟨h.wellFormed, ?_, ?_, ?_, ?_, ?_, ?_, ?_⟩
  · exact fun realm user id => hne (getPushRegistration_isOk h realm user id)
  · exact fun realm user id => hne (getPushAuthenticator_isOk h realm user id)
  · exact fun realm user => hne (listPushAuthenticators_isOk h realm user)
  · exact fun realm user id => hne (getPushLogin_isOk h realm user id)
  · exact fun a start => hne ⟨_, registrationCount_eq h a start⟩
  · exact fun realm user samePurpose start => hne ⟨_, loginCount_eq h realm user samePurpose start⟩
  · exact fun persist now limit => cleanup_ne_corrupt h persist now limit

end Qid.Push
