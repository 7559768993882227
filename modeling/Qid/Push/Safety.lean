/-
Safety of push logins over whole runs.

Every call on the store is, for every login id, one step of the machine of a single challenge. An id
names one record at a time: once a cleanup has removed a row, its id may be issued again.
-/
import Qid.Push.Cleanup
import Qid.Push.Lifecycle

namespace Qid.Push

open Lib Storage

variable {k : Call}

/-- What a call and its answer did to the challenge `id`. -/
def loginLabel (id : String) (e : Event PushStore Call Reply) : LoginLabel :=
  match e.call, e.reply with
  | .issuePushLogin _ c _ _ _, .accepted (.ok true) => if c.id = id then .issue c else .other
  | .attemptPushLogin _ expected decision now, .accepted (.ok true) =>
    if expected.id = id then .attempt decision now else .other
  | .redeemPushLogin _ expected _ now, .accepted (.ok true) =>
    if expected.id = id then .redeem now else .other
  | .resendPushLogin _ expected _ _ _ _ _ _, .login (.ok (some _)) =>
    if expected.id = id then .resend else .other
  | _, _ => .other

def Bound (s : PushStore) (row : PushLoginChallenge) : Prop :=
  ∃ a, s.authenticators.lookup row.authenticatorId = some (.enrolled a) ∧ a.revokedAt = none

/-- The call is a cleanup a day past the expiry of the challenge. -/
def Gone (k : Call) (row : PushLoginChallenge) : Prop :=
  ∃ persist now limit, k = .cleanupExpiredPushRecords persist now limit ∧
    row.expiresAt < now - maxPushWindowSeconds

section

variable (s : PushStore) (id : String) {r : Reply} {t : PushStore}

/-- A step that rewrites the row of `key` is a step of `key` and leaves the others. -/
theorem loginStep_insert {gone : PushLoginChallenge → Prop} {key : String}
    {row : PushLoginChallenge} {l : LoginLabel}
    (h : LoginStep (Bound s) gone (s.logins.lookup key) l (some row)) :
    LoginStep (Bound s) gone (s.logins.lookup id) (if key = id then l else .other)
      ((s.logins.insert key row).lookup id) := by
  rw [KeyMap.lookup_insert_eq]
  by_cases hk : key = id
  · subst hk
    rw [if_pos rfl, if_pos rfl]
    exact h
  · rw [if_neg hk, if_neg (Ne.symm hk)]
    exact LoginStep.other _

/-- Every call is a step of the machine of every challenge. -/
theorem effect_simulates (h : Effect s k r t) :
    LoginStep (Bound s) (Gone k) (s.logins.lookup id)
      (loginLabel id { before := s, call := k, reply := r, after := t }) (t.logins.lookup id) := by
  cases h with
  | kept h =>
    dsimp only [loginLabel]
    split <;> first | cases h | exact LoginStep.other _
  | issuePushRegistration | attemptPushRegistration | revokePushAuthenticator =>
    exact LoginStep.other _
  | issuePushLogin hvalid _ hnew =>
    refine loginStep_insert s id ?_
    rw [hnew]
    exact LoginStep.issue _ hvalid
  | attemptPushLogin _ _ hrow hattempt =>
    refine loginStep_insert s id ?_
    obtain ⟨-, hlive, hundecided, -, hcount, rfl⟩ := loginAttempt_some hattempt
    rw [hrow]
    exact LoginStep.attempt _ _ _ hlive hundecided hcount
  | redeemPushLogin hbound hcurrent hrow hredeem =>
    refine loginStep_insert s id ?_
    obtain ⟨hsame, hlive, happroved, hconsumed, ⟨decidedAt, hdecided, hle⟩, rfl⟩ :=
      redeem_some hredeem
    rw [hrow]
    refine LoginStep.redeem _ _ decidedAt hlive happroved hconsumed hdecided hle ?_
    -- The copy the caller holds is bound to the authenticator of the stored row.
    simp only [current, Bool.and_eq_true] at hcurrent
    refine ⟨_, ?_, Option.isNone_iff_eq_none.mp hcurrent.2⟩
    rw [(sameLogin_iff.mp hsame).2.2.2.1]
    exact hbound
  | resendPushLogin _ _ _ hrow _ hresend =>
    refine loginStep_insert s id ?_
    obtain ⟨-, -, hundecided, -, -, -, rfl⟩ := resend_some hresend
    rw [hrow]
    exact LoginStep.resend _ _ _ hundecided
  | @cleanup persist now limit =>
    rcases (cleanup_pruned persist s now limit).2 id with hk | ⟨hnone, row, issued, hget, hgone⟩
    · have h : (cleanupExpiredPushRecords persist s now limit).2.logins.lookup id =
          s.logins.lookup id := (Prod.mk.inj hk).1
      rw [h]
      exact LoginStep.other _
    · have h : (cleanupExpiredPushRecords persist s now limit).2.logins.lookup id = none :=
        (Prod.mk.inj hnone).1
      have hrow : s.logins.lookup id = some row := (Prod.mk.inj hget).1
      rw [h, hrow]
      exact LoginStep.expire row ⟨persist, now, limit, rfl, hgone⟩

theorem step_simulates (k : Call) :
    LoginStep (Bound s) (Gone k) (s.logins.lookup id) (loginLabel id (eventOf step s k))
      ((step s k).2.logins.lookup id) :=
  effect_simulates s id (effect_step s k)

theorem run_simulates (calls : List Call) :
    LoginRun (s.logins.lookup id) ((run step s calls).map (loginLabel id))
      ((final step s calls).logins.lookup id) := by
  refine run_history step
    (I := fun h t => LoginRun (s.logins.lookup id) (h.map (loginLabel id)) (t.logins.lookup id))
    (h := []) ?_ LoginRun.nil calls
  intro h t k hrun
  rw [List.map_append]
  exact hrun.snoc (step_simulates t id k)

end

section

variable {s : PushStore} {id : String} {c : PushLoginChallenge} (hvalid : validateLogin c = .ok ())
  (hrow : s.logins.lookup id = some c) {calls : List Call}
  (hissue : ∀ x ∈ run step s calls, (loginLabel id x).isIssue = false)
include hvalid hrow hissue

theorem run_labelsSafe :
    LabelsSafe c ((run step s calls).map (loginLabel id)) ∧
      ∀ row, (final step s calls).logins.lookup id = some row →
        RowTracks c ((run step s calls).map (loginLabel id)) row := by
  have hrun := run_simulates s id calls
  rw [hrow] at hrun
  refine hrun.safe hvalid fun l hl => ?_
  obtain ⟨x, hx, rfl⟩ := List.mem_map.mp hl
  exact hissue x hx

/-- A redemption happens while the authenticator of the issued record is usable. -/
theorem run_redeem_bound {x : Event PushStore Call Reply} (hx : x ∈ run step s calls) {now : Nat}
    (hredeem : loginLabel id x = .redeem now) : Bound x.before c := by
  obtain ⟨pre, post, hsplit⟩ := List.append_of_mem hx
  obtain ⟨ks₁, k, ks₂, rfl, hpre, rfl, -⟩ := run_eq_append_cons step hsplit
  have hissue₁ : ∀ y ∈ run step s ks₁, (loginLabel id y).isIssue = false := by
    intro y hy
    refine hissue y ?_
    rw [run_append]
    exact List.mem_append_left _ hy
  have htracks := (run_labelsSafe hvalid hrow hissue₁).2
  have hstep := step_simulates (final step s ks₁) id k
  rw [hredeem] at hstep
  generalize hp : (final step s ks₁).logins.lookup id = p at hstep
  generalize (step (final step s ks₁) k).2.logins.lookup id = q at hstep
  cases hstep with
  | redeem row now decidedAt hlive happroved hconsumed hdecided hle hbound =>
    obtain ⟨a, ha, hrev⟩ := hbound
    rw [(htracks row hp).authenticator] at ha
    exact ⟨a, ha, hrev⟩

/-- A row disappears in a cleanup that runs a day past its expiry. -/
theorem run_removed (hnone : (final step s calls).logins.lookup id = none) :
    ∃ x ∈ run step s calls, Gone x.call c := by
  induction calls using List.reverseRecOn with
  | nil =>
    rw [final_nil, hrow] at hnone
    cases hnone
  | append_singleton ks k ih =>
    rw [run_append] at hissue ⊢
    rw [final_append] at hnone
    have hissue₁ : ∀ x ∈ run step s ks, (loginLabel id x).isIssue = false :=
      fun x hx => hissue x (List.mem_append_left _ hx)
    cases hp : (final step s ks).logins.lookup id with
    | none =>
      obtain ⟨x, hx, hgone⟩ := ih hissue₁ hp
      exact ⟨x, List.mem_append_left _ hx, hgone⟩
    | some row =>
      have hstep := step_simulates (final step s ks) id k
      have hnone' : (step (final step s ks) k).2.logins.lookup id = none := hnone
      rw [hp, hnone'] at hstep
      generalize loginLabel id (eventOf step (final step s ks) k) = l at hstep
      cases hstep with
      | expire _ hgone =>
        obtain ⟨persist, now, limit, hk, hexp⟩ := hgone
        rw [((run_labelsSafe hvalid hrow hissue₁).2 row hp).expires] at hexp
        refine ⟨eventOf step (final step s ks) k, ?_, persist, now, limit, hk, hexp⟩
        exact List.mem_append_cons_self

end

structure LoginHistorySafe (id : String) (events : List (Event PushStore Call Reply)) : Prop where
  /-- From the issue of a record to the next issue of its id, the accepted calls are those of one
  safe challenge, a denied record is not redeemed, and a redemption needs the bound authenticator
  enrolled and not revoked. -/
  issued : ∀ before e seg after c, events = before ++ e :: (seg ++ after) →
    loginLabel id e = .issue c → (∀ x ∈ seg, (loginLabel id x).isIssue = false) →
    LabelsSafe c (seg.map (loginLabel id)) ∧
      (∀ t, .attempt (some .deny) t ∈ seg.map (loginLabel id) →
        ∀ now, .redeem now ∉ seg.map (loginLabel id)) ∧
      ∀ x ∈ seg, ∀ now, loginLabel id x = .redeem now → Bound x.before c
  /-- An id is issued again only after a cleanup a day past the expiry of its record. -/
  reissued : ∀ before e seg e' after c c', events = before ++ e :: (seg ++ e' :: after) →
    loginLabel id e = .issue c → (∀ x ∈ seg, (loginLabel id x).isIssue = false) →
    loginLabel id e' = .issue c' → ∃ x ∈ seg, Gone x.call c
  /-- Nothing is accepted for an id before its first issue. -/
  unissued : ∀ before e after, events = before ++ e :: after →
    (∀ x ∈ before, (loginLabel id x).isIssue = false) →
    loginLabel id e = .other ∨ ∃ c, loginLabel id e = .issue c

theorem issue_installs {s : PushStore} {id : String} {c : PushLoginChallenge}
    (h : loginLabel id (eventOf step s k) = .issue c) :
    validateLogin c = .ok () ∧ s.logins.lookup id = none ∧
      (step s k).2.logins.lookup id = some c := by
  have hstep := step_simulates s id k
  rw [h] at hstep
  generalize s.logins.lookup id = p at hstep
  generalize (step s k).2.logins.lookup id = q at hstep
  cases hstep with
  | issue c hvalid => exact ⟨hvalid, rfl, rfl⟩

/-- In every run from the empty store, with any arguments, any clocks and any failed writes. -/
theorem push_login_history_safe (calls : List Call) (id : String) :
    LoginHistorySafe id (run step PushStore.empty calls) where
  issued := by
    intro before e seg after c hsplit hissue hseg
    obtain ⟨ks₁, k, ks₂, rfl, -, rfl, hrest⟩ := run_eq_append_cons step hsplit
    obtain ⟨ks₃, ks₄, rfl, rfl, -⟩ := run_eq_append step hrest
    obtain ⟨hvalid, -, hrow⟩ := issue_installs hissue
    have hsafe := (run_labelsSafe hvalid hrow hseg).1
    exact ⟨hsafe, fun t hdeny now => hsafe.deny_final hdeny now,
      fun x hx now hredeem => run_redeem_bound hvalid hrow hseg hx hredeem⟩
  reissued := by
    intro before e seg e' after c c' hsplit hissue hseg hissue'
    obtain ⟨ks₁, k, ks₂, rfl, -, rfl, hrest⟩ := run_eq_append_cons step hsplit
    obtain ⟨ks₃, k', ks₄, rfl, rfl, rfl, -⟩ := run_eq_append_cons step hrest
    obtain ⟨hvalid, -, hrow⟩ := issue_installs hissue
    obtain ⟨-, hnone, -⟩ := issue_installs hissue'
    exact run_removed hvalid hrow hseg hnone
  unissued := by
    intro before e after hsplit hbefore
    obtain ⟨ks₁, k, ks₂, rfl, rfl, rfl, -⟩ := run_eq_append_cons step hsplit
    have hrun := run_simulates PushStore.empty id ks₁
    have hnone : (final step PushStore.empty ks₁).logins.lookup id = none := by
      refine (LoginRun.unissued hrun fun l hl => ?_).1
      obtain ⟨x, hx, rfl⟩ := List.mem_map.mp hl
      exact hbefore x hx
    have hstep := step_simulates (final step PushStore.empty ks₁) id k
    rw [hnone] at hstep
    generalize (step (final step PushStore.empty ks₁) k).2.logins.lookup id = q at hstep
    generalize loginLabel id (eventOf step (final step PushStore.empty ks₁) k) = l at hstep ⊢
    cases hstep with
    | other => exact Or.inl rfl
    | issue c => exact Or.inr ⟨c, rfl⟩

/-- A cleanup more than a day later removes the row of a redeemed login, and the id is used for a
second one. -/
def Sample.reuse : List Call :=
  [.issuePushRegistration users .done registration 5 60 100,
    .attemptPushRegistration users .done registration true 110,
    .issuePushLogin .done (login 200) 5 60 200,
    .attemptPushLogin .done (login 200) (some .approve) 210,
    .redeemPushLogin .done (login 200) digest 220,
    .cleanupExpiredPushRecords .done 100000 10,
    .issuePushLogin .done (login 100000) 5 60 100000,
    .attemptPushLogin .done (login 100000) (some .approve) 100010,
    .redeemPushLogin .done (login 100000) digest 100020]

theorem login_id_redeemed_twice :
    ¬ ∀ (calls : List Call) (id : String),
      (run step PushStore.empty calls).countP (fun e => (loginLabel id e).isRedeem) ≤ 1 := by
  intro h
  have htwo : (run step PushStore.empty Sample.reuse).countP
      (fun e => (loginLabel "login" e).isRedeem) = 2 := by decide +kernel
  have hone := h Sample.reuse "login"
  omega

end Qid.Push
