/-
The life of one login challenge.

`LoginStep` is the machine of a single challenge, and what a challenge is safe from is a property of
the labels of a run of this machine. The repository simulates it for every id (`step_simulates`).
-/
import Qid.Push.Record

namespace Qid.Push

variable {c : PushLoginChallenge}

/-- What an accepted call did to one login challenge. -/
inductive LoginLabel where
  | issue (c : PushLoginChallenge)
  | attempt (decision : Option PushDecision) (now : Nat)
  | redeem (now : Nat)
  | resend
  | other
  deriving DecidableEq

namespace LoginLabel

def isIssue : LoginLabel → Bool
  | issue _ => true
  | _ => false

def isAttempt : LoginLabel → Bool
  | attempt _ _ => true
  | _ => false

def isRedeem : LoginLabel → Bool
  | redeem _ => true
  | _ => false

end LoginLabel

/-- `bound` says of a row that the authenticator it is bound to is usable at that moment, and `gone`
that the row may be removed. -/
inductive LoginStep (bound gone : PushLoginChallenge → Prop) :
    Option PushLoginChallenge → LoginLabel → Option PushLoginChallenge → Prop
  | other (o : Option PushLoginChallenge) : LoginStep bound gone o .other o
  | expire (row : PushLoginChallenge) (hgone : gone row) :
      LoginStep bound gone (some row) .other none
  | issue (c : PushLoginChallenge) (hvalid : validateLogin c = .ok ()) :
      LoginStep bound gone none (.issue c) (some c)
  | attempt (row : PushLoginChallenge) (decision : Option PushDecision) (now : Nat)
      (hlive : row.createdAt ≤ now ∧ now < row.expiresAt) (hundecided : row.decision = none)
      (hcount : row.attemptCount < row.maxAttempts) :
      LoginStep bound gone (some row) (.attempt decision now) (some { row with
        attemptCount := row.attemptCount + 1
        decision := decision
        decidedAt := if decision.isSome then some now else row.decidedAt })
  | redeem (row : PushLoginChallenge) (now decidedAt : Nat)
      (hlive : row.createdAt ≤ now ∧ now < row.expiresAt)
      (happroved : row.decision = some .approve) (hconsumed : row.consumedAt = none)
      (hdecided : row.decidedAt = some decidedAt) (hle : decidedAt ≤ now) (hbound : bound row) :
      LoginStep bound gone (some row) (.redeem now) (some { row with consumedAt := some now })
  | resend (row : PushLoginChallenge) (nonceVerifier : String) (now : Nat)
      (hundecided : row.decision = none) :
      LoginStep bound gone (some row) .resend (some { row with
        nonceVerifier := nonceVerifier
        resendAdmittedAt := row.resendAdmittedAt ++ [now] })

inductive LoginRun (o : Option PushLoginChallenge) :
    List LoginLabel → Option PushLoginChallenge → Prop
  | nil : LoginRun o [] o
  | snoc {ls : List LoginLabel} {l : LoginLabel} {p q : Option PushLoginChallenge}
      {bound gone : PushLoginChallenge → Prop} (hrun : LoginRun o ls p)
      (hstep : LoginStep bound gone p l q) : LoginRun o (ls ++ [l]) q

structure LabelsSafe (c : PushLoginChallenge) (ls : List LoginLabel) : Prop where
  redeemed_once : ls.countP LoginLabel.isRedeem ≤ 1
  /-- It is redeemed within its lifetime, after an approval within its lifetime. -/
  redeemed_approved : ∀ pre post now, ls = pre ++ .redeem now :: post →
    (c.createdAt ≤ now ∧ now < c.expiresAt) ∧
      ∃ t, .attempt (some .approve) t ∈ pre ∧ t ≤ now ∧ c.createdAt ≤ t ∧ t < c.expiresAt
  attempts : ls.countP LoginLabel.isAttempt ≤ c.maxAttempts
  /-- After a decision no attempt and no resend is accepted. -/
  decision_final : ∀ pre post d t, ls = pre ++ .attempt (some d) t :: post →
    ∀ l ∈ post, l.isAttempt = false ∧ l ≠ .resend

/-- The label at a split of a history is the last one, or splits what came before. -/
theorem snoc_eq_append_cons {α : Type} {ls pre post : List α} {l x : α}
    (h : ls ++ [l] = pre ++ x :: post) :
    (ls = pre ∧ l = x ∧ post = []) ∨ ∃ post', post = post' ++ [l] ∧ ls = pre ++ x :: post' := by
  rcases List.eq_nil_or_concat post with rfl | ⟨post', y, rfl⟩
  · obtain ⟨rfl, hx⟩ := List.append_inj' h rfl
    exact Or.inl ⟨rfl, (List.cons.inj hx).1, rfl⟩
  · rw [List.concat_eq_append, ← List.cons_append, ← List.append_assoc] at h
    obtain ⟨rfl, hy⟩ := List.append_inj' h rfl
    rw [(List.cons.inj hy).1]
    exact Or.inr ⟨post', List.concat_eq_append, rfl⟩

variable {ls : List LoginLabel} {q : Option PushLoginChallenge} {l : LoginLabel}
  {row : PushLoginChallenge}

theorem LabelsSafe.snoc (h : LabelsSafe c ls)
    (honce : l.isRedeem = true → ls.countP LoginLabel.isRedeem = 0)
    (happroved : ∀ now, l = .redeem now → (c.createdAt ≤ now ∧ now < c.expiresAt) ∧
      ∃ t, .attempt (some .approve) t ∈ ls ∧ t ≤ now ∧ c.createdAt ≤ t ∧ t < c.expiresAt)
    (hcount : l.isAttempt = true → ls.countP LoginLabel.isAttempt < c.maxAttempts)
    (hfinal : ∀ d t, .attempt (some d) t ∈ ls → l.isAttempt = false ∧ l ≠ .resend) :
    LabelsSafe c (ls ++ [l]) where
  redeemed_once := by
    have hle := h.redeemed_once
    rw [List.countP_append, List.countP_singleton]
    split
    · rename_i hl
      exact Nat.le_of_eq (congrArg (· + 1) (honce hl))
    · exact hle
  redeemed_approved := by
    intro pre post now hsplit
    rcases snoc_eq_append_cons hsplit with ⟨rfl, hl, -⟩ | ⟨post', -, hls⟩
    · exact happroved now hl
    · exact h.redeemed_approved pre post' now hls
  attempts := by
    have hle := h.attempts
    rw [List.countP_append, List.countP_singleton]
    split
    · rename_i hl
      exact hcount hl
    · exact hle
  decision_final := by
    intro pre post d t hsplit l' hl'
    rcases snoc_eq_append_cons hsplit with ⟨-, -, rfl⟩ | ⟨post', rfl, hls⟩
    · cases hl'
    · rcases List.mem_append.mp hl' with hl' | hl'
      · exact h.decision_final pre post' d t hls l' hl'
      · rw [List.mem_singleton.mp hl']
        refine hfinal d t ?_
        rw [hls]
        exact List.mem_append_cons_self

/-- A challenge takes one decision, so a denied one is never redeemed. -/
theorem LabelsSafe.deny_final (h : LabelsSafe c ls) {t : Nat} (hdeny : .attempt (some .deny) t ∈ ls)
    (now : Nat) : .redeem now ∉ ls := by
  intro hredeem
  obtain ⟨pre, post, hsplit⟩ := List.append_of_mem hredeem
  obtain ⟨-, t', happrove, -⟩ := h.redeemed_approved pre post now hsplit
  have happrove' : .attempt (some .approve) t' ∈ ls := by
    rw [hsplit]
    exact List.mem_append_left _ happrove
  -- Whichever decision came first rules the other one out.
  obtain ⟨p, q, hpq⟩ := List.append_of_mem happrove'
  have hd := hdeny
  rw [hpq, List.mem_append, List.mem_cons] at hd
  rcases hd with hd | hd | hd
  · obtain ⟨p₁, p₂, rfl⟩ := List.append_of_mem hd
    rw [List.append_assoc] at hpq
    have hmem : .attempt (some .approve) t' ∈
        p₂ ++ LoginLabel.attempt (some .approve) t' :: q :=
      List.mem_append_cons_self
    exact absurd (h.decision_final p₁ _ _ t hpq _ hmem).1 (by simp [LoginLabel.isAttempt])
  · cases hd
  · exact absurd (h.decision_final p q _ t' hpq _ hd).1 (by simp [LoginLabel.isAttempt])

/-- What the row of a challenge issued as `c` says about the labels since. -/
structure RowTracks (c : PushLoginChallenge) (ls : List LoginLabel) (row : PushLoginChallenge) :
    Prop where
  authenticator : row.authenticatorId = c.authenticatorId
  created : row.createdAt = c.createdAt
  expires : row.expiresAt = c.expiresAt
  maxAttempts : row.maxAttempts = c.maxAttempts
  attempts : ls.countP LoginLabel.isAttempt = row.attemptCount
  undecided : row.decision = none → ∀ d t, .attempt (some d) t ∉ ls
  decided : ∀ d, row.decision = some d → ∃ t, row.decidedAt = some t ∧
    .attempt (some d) t ∈ ls ∧ c.createdAt ≤ t ∧ t < c.expiresAt
  unconsumed : row.consumedAt = none → ls.countP LoginLabel.isRedeem = 0

theorem rowTracks_issue (hvalid : validateLogin c = .ok ()) : RowTracks c [] c where
  authenticator := rfl
  created := rfl
  expires := rfl
  maxAttempts := rfl
  attempts := by simp [(validateLogin_eq_ok.mp hvalid).2.1]
  undecided := by simp
  decided := by simp [(validateLogin_eq_ok.mp hvalid).2.2.2.1]
  unconsumed := by simp

/-- A label that is not an attempt leaves what the row says about attempts, and a redemption is
remembered. -/
theorem RowTracks.keep {row' : PushLoginChallenge} (h : RowTracks c ls row)
    (hl : l.isAttempt = false)
    (hsame : row'.authenticatorId = row.authenticatorId ∧ row'.createdAt = row.createdAt ∧
      row'.expiresAt = row.expiresAt ∧ row'.maxAttempts = row.maxAttempts ∧
      row'.attemptCount = row.attemptCount ∧ row'.decision = row.decision ∧
      row'.decidedAt = row.decidedAt)
    (hcon : row'.consumedAt = none → l.isRedeem = false ∧ row.consumedAt = none) :
    RowTracks c (ls ++ [l]) row' := by
  obtain ⟨hauth, hcreated, hexpires, hmax, hcount, hdec, hat⟩ := hsame
  refine ⟨hauth.trans h.authenticator, hcreated.trans h.created, hexpires.trans h.expires,
    hmax.trans h.maxAttempts, ?_, ?_, ?_, ?_⟩
  · rw [List.countP_append, h.attempts, hcount, List.countP_singleton, hl]
    rfl
  · intro hd d t hmem
    rcases List.mem_append.mp hmem with hmem | hmem
    · exact h.undecided (hdec ▸ hd) d t hmem
    · rw [← List.mem_singleton.mp hmem] at hl
      cases hl
  · intro d hd
    obtain ⟨t, ht, hmem, hlive⟩ := h.decided d (hdec ▸ hd)
    exact ⟨t, hat.trans ht, List.mem_append_left _ hmem, hlive⟩
  · intro hc
    obtain ⟨hr, hrow⟩ := hcon hc
    rw [List.countP_append, h.unconsumed hrow, List.countP_singleton, hr]
    rfl

theorem RowTracks.attempt (h : RowTracks c ls row) {decision : Option PushDecision} {now : Nat}
    (hlive : row.createdAt ≤ now ∧ now < row.expiresAt) (hundecided : row.decision = none) :
    RowTracks c (ls ++ [.attempt decision now]) { row with
      attemptCount := row.attemptCount + 1
      decision := decision
      decidedAt := if decision.isSome then some now else row.decidedAt } where
  authenticator := h.authenticator
  created := h.created
  expires := h.expires
  maxAttempts := h.maxAttempts
  attempts := by
    rw [List.countP_append, h.attempts]
    rfl
  undecided := fun hd d t hmem => by
    rcases List.mem_append.mp hmem with hmem | hmem
    · exact h.undecided hundecided d t hmem
    · rw [List.mem_singleton, LoginLabel.attempt.injEq] at hmem
      rw [← hmem.1] at hd
      cases hd
  decided := fun d hd => by
    have hd' : decision = some d := hd
    refine ⟨now, ?_, ?_, ?_⟩
    · simp [hd']
    · rw [hd']
      exact List.mem_append_cons_self
    · rw [← h.created, ← h.expires]
      exact hlive
  unconsumed := fun hc => by
    rw [List.countP_append, h.unconsumed hc]
    rfl

/-- A challenge that is followed from its issue to before the next one is safe, and its row, as long
as there is one, remembers what was accepted. -/
theorem LoginRun.safe (hvalid : validateLogin c = .ok ()) (hrun : LoginRun (some c) ls q)
    (hissue : ∀ l ∈ ls, l.isIssue = false) :
    LabelsSafe c ls ∧ ∀ row, q = some row → RowTracks c ls row := by
  induction hrun with
  | nil =>
    refine ⟨⟨by simp, by simp, by simp, by simp⟩, ?_⟩
    rintro row ⟨⟩
    exact rowTracks_issue hvalid
  | @snoc ls l p q bound gone hrun hstep ih =>
    obtain ⟨hsafe, htracks⟩ := ih fun l' hl' => hissue l' (List.mem_append_left _ hl')
    have hquiet : LabelsSafe c (ls ++ [.other]) := by
      refine hsafe.snoc ?_ ?_ ?_ ?_
      · rintro ⟨⟩
      · rintro now ⟨⟩
      · rintro ⟨⟩
      · exact fun _ _ _ => ⟨rfl, by rintro ⟨⟩⟩
    cases hstep with
    | other =>
      refine ⟨hquiet, fun row hrow => (htracks row hrow).keep rfl ?_ fun hc => ⟨rfl, hc⟩⟩
      exact ⟨rfl, rfl, rfl, rfl, rfl, rfl, rfl⟩
    | expire => exact ⟨hquiet, by rintro row ⟨⟩⟩
    | issue c' =>
      exact absurd (hissue (.issue c') List.mem_append_cons_self) (by simp [LoginLabel.isIssue])
    | attempt row decision now hlive hundecided hcount =>
      have ht := htracks row rfl
      refine ⟨hsafe.snoc ?_ ?_ ?_ ?_, ?_⟩
      · rintro ⟨⟩
      · rintro now' ⟨⟩
      · intro _
        rw [ht.attempts, ← ht.maxAttempts]
        exact hcount
      · intro d t hmem
        exact absurd hmem (ht.undecided hundecided d t)
      · rintro row' ⟨⟩
        exact ht.attempt hlive hundecided
    | redeem row now decidedAt hlive happroved hconsumed hdecided =>
      have ht := htracks row rfl
      obtain ⟨t, hat, hmem, htlive⟩ := ht.decided _ happroved
      have htd : t = decidedAt := Option.some.inj (hat.symm.trans hdecided)
      refine ⟨hsafe.snoc ?_ ?_ ?_ ?_, ?_⟩
      · exact fun _ => ht.unconsumed hconsumed
      · rintro now' ⟨⟩
        refine ⟨?_, t, hmem, by omega, htlive⟩
        rw [← ht.created, ← ht.expires]
        exact hlive
      · rintro ⟨⟩
      · exact fun _ _ _ => ⟨rfl, by rintro ⟨⟩⟩
      · rintro row' ⟨⟩
        exact ht.keep rfl ⟨rfl, rfl, rfl, rfl, rfl, rfl, rfl⟩ (by rintro ⟨⟩)
    | resend row nonceVerifier now hundecided =>
      have ht := htracks row rfl
      refine ⟨hsafe.snoc ?_ ?_ ?_ ?_, ?_⟩
      · rintro ⟨⟩
      · rintro now' ⟨⟩
      · rintro ⟨⟩
      · intro d t hmem
        exact absurd hmem (ht.undecided hundecided d t)
      · rintro row' ⟨⟩
        exact ht.keep rfl ⟨rfl, rfl, rfl, rfl, rfl, rfl, rfl⟩ fun hc => ⟨rfl, hc⟩

theorem LoginRun.unissued (hrun : LoginRun none ls q) (hissue : ∀ l ∈ ls, l.isIssue = false) :
    q = none ∧ ∀ l ∈ ls, l = .other := by
  induction hrun with
  | nil => exact ⟨rfl, by simp⟩
  | @snoc ls l p q bound gone hrun hstep ih =>
    obtain ⟨rfl, hothers⟩ := ih fun l' hl' => hissue l' (List.mem_append_left _ hl')
    have hlast : l.isIssue = false := hissue l List.mem_append_cons_self
    have hsnoc : l = .other → ∀ l' ∈ ls ++ [l], l' = LoginLabel.other := by
      intro hl l' hl'
      rcases List.mem_append.mp hl' with hl' | hl'
      · exact hothers l' hl'
      · rw [List.mem_singleton.mp hl', hl]
    cases hstep with
    | other => exact ⟨rfl, hsnoc rfl⟩
    | issue => cases hlast

end Qid.Push
