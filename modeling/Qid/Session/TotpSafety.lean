/-
TOTP codes are single-use.

`consume_totp_step` accepts a step only past the last step that is stored, and stores it; no call
moves the stored step backward, a confirmation that writes its copy of the credential back included.
-/
import Qid.Session.Endpoint

namespace Qid.Session

open Lib Storage

variable {c : Call} {h : List StoreEvent} {id : String} {s : Store}

def TotpCredential.nextStep (cred : TotpCredential) : Nat := cred.lastUsedStep.elim 0 (· + 1)

theorem nextStep_replacePreservingLastUsedStep (stored cred : TotpCredential) :
    (stored.replacePreservingLastUsedStep cred).nextStep = max stored.nextStep cred.nextStep := by
  rw [TotpCredential.nextStep, TotpCredential.replacePreservingLastUsedStep,
    TotpCredential.nextStep, TotpCredential.nextStep]
  cases stored.lastUsedStep with
  | none => simp
  | some m =>
    cases cred.lastUsedStep with
    | none => simp
    | some n =>
      show max m n + 1 = max (m + 1) (n + 1)
      omega

namespace Store

variable {cred : TotpCredential}

def nextStep (s : Store) (id : String) : Nat := (s.totpCredentials.find id).elim 0 (·.nextStep)

theorem nextStep_of_find (h : s.totpCredentials.find id = some cred) :
    s.nextStep id = cred.nextStep := by
  rw [nextStep, h]
  rfl

theorem nextStep_le_put (h : s.nextStep cred.id ≤ cred.nextStep) :
    s.nextStep id ≤
      ({ s with totpCredentials := s.totpCredentials.put cred } : Store).nextStep id := by
  by_cases hid : id = cred.id
  · subst hid
    have hput := nextStep_of_find (s.totpCredentials.find_put_self cred)
      (s := { s with totpCredentials := s.totpCredentials.put cred })
    rw [hput]
    exact h
  · have hsame := s.totpCredentials.find_put_of_ne hid
    show _ ≤ ((s.totpCredentials.put cred).find id).elim 0 (·.nextStep)
    rw [hsame]
    exact Nat.le_refl _

variable (persist : Persist) (cred : TotpCredential)

theorem nextStep_le_storeTotpCredential :
    s.nextStep id ≤ (s.storeTotpCredential persist cred).2.nextStep id := by
  rw [storeTotpCredential]
  cases hfind : s.totpCredentials.find cred.id with
  | none =>
    refine nextStep_le_put ?_
    rw [nextStep, hfind]
    exact Nat.zero_le _
  | some stored =>
    by_cases huser : stored.userId = cred.userId
    · simp only [huser]
      refine nextStep_le_put ?_
      rw [nextStep_replacePreservingLastUsedStep]
      exact Nat.le_trans (Nat.le_of_eq (nextStep_of_find hfind)) (Nat.le_max_left _ _)
    · simp only [huser]
      exact Nat.le_refl _

/-- A step is claimed past the steps that are used, and is then used. Otherwise nothing
changes. -/
theorem consumeTotpStep_cases (step : Nat) :
    s.consumeTotpStep persist cred step = (.ok false, s) ∨
      ∃ stored, s.totpCredentials.find cred.id = some stored ∧ stored.nextStep ≤ step ∧
        s.consumeTotpStep persist cred step =
          (persist.result.map fun _ => true,
            { s with
              totpCredentials :=
                s.totpCredentials.put { stored with lastUsedStep := some step } }) := by
  rw [consumeTotpStep]
  cases hfind : s.totpCredentials.find cred.id with
  | none => exact Or.inl rfl
  | some stored =>
    by_cases hused : stored.userId ≠ cred.userId ∨ stored.lastUsedStep.any (step ≤ ·)
    · exact Or.inl (if_pos hused)
    · refine Or.inr ⟨stored, rfl, ?_, if_neg hused⟩
      rw [TotpCredential.nextStep]
      cases hlast : stored.lastUsedStep with
      | none => exact Nat.zero_le _
      | some last =>
        have hnot : ¬ step ≤ last := by
          intro hle
          refine hused (Or.inr ?_)
          rw [hlast]
          exact decide_eq_true hle
        show last + 1 ≤ step
        omega

theorem nextStep_le_consumeTotpStep (step : Nat) :
    s.nextStep id ≤ (s.consumeTotpStep persist cred step).2.nextStep id := by
  rcases s.consumeTotpStep_cases persist cred step with hsame | ⟨stored, hfind, hle, hwrite⟩
  · rw [hsame]
  · rw [hwrite]
    have hkey : stored.id = cred.id := Table.key_of_find hfind
    refine nextStep_le_put ?_
    rw [hkey, nextStep_of_find hfind]
    exact Nat.le_succ_of_le hle

end Store

theorem totpCredentials_answer (env : Env) (s : Store) (c : Call) :
    (∃ cred, c = .storeTotpCredential cred) ∨ (∃ cred step, c = .consumeTotpStep cred step) ∨
      (answer env s c).2.totpCredentials = s.totpCredentials := by
  cases c with
  | storeTotpCredential cred => exact Or.inl ⟨cred, rfl⟩
  | consumeTotpStep cred step => exact Or.inr (Or.inl ⟨cred, step, rfl⟩)
  | updateUser user realm =>
    refine Or.inr (Or.inr ?_)
    show (s.updateUser env.persist user realm).2.totpCredentials = _
    rcases s.updateUser_cases env.persist user realm with ⟨e, hsame, -⟩ | hwrite
    · rw [hsame]
    · rw [hwrite]
  | updatePasswordCredentialInRealm cred realm =>
    refine Or.inr (Or.inr ?_)
    show (s.updatePasswordCredentialInRealm env.persist cred realm).2.totpCredentials = _
    rw [Store.updatePasswordCredentialInRealm]
    split <;> rfl
  | createSession session =>
    refine Or.inr (Or.inr ?_)
    show (s.createSession env.persist session).2.totpCredentials = _
    rw [Store.createSession]
    split <;> rfl
  | revokeSession sid realm =>
    refine Or.inr (Or.inr ?_)
    show (s.revokeSession env.persist sid realm).2.totpCredentials = _
    rw [Store.revokeSession]
    split
    · rfl
    · split <;> rfl
  | _ => exact Or.inr (Or.inr rfl)

theorem nextStep_le_answer (env : Env) (s : Store) (c : Call) (id : String) :
    s.nextStep id ≤ (answer env s c).2.nextStep id := by
  rcases totpCredentials_answer env s c with ⟨cred, rfl⟩ | ⟨cred, step, rfl⟩ | hsame
  · exact Store.nextStep_le_storeTotpCredential env.persist cred
  · exact Store.nextStep_le_consumeTotpStep ..
  · rw [Store.nextStep, Store.nextStep, hsame]

def acceptedStep (id : String) : Option ((c : Call) × c.Answer) → Option Nat
  | some ⟨.consumeTotpStep cred step, .ok true⟩ => if cred.id = id then some step else none
  | _ => none

def acceptedSteps (id : String) (h : List StoreEvent) : List Nat :=
  h.filterMap fun e => acceptedStep id e.reply

theorem of_acceptedStep {env : Env} {n : Nat}
    (h : acceptedStep id (some ⟨c, (answer env s c).1⟩) = some n) :
    s.nextStep id ≤ n ∧ n < (answer env s c).2.nextStep id := by
  cases c with
  | consumeTotpStep cred step =>
    show s.nextStep id ≤ n ∧ n < (s.consumeTotpStep env.persist cred step).2.nextStep id
    change acceptedStep id (some ⟨.consumeTotpStep cred step,
      (s.consumeTotpStep env.persist cred step).1⟩) = some n at h
    rcases s.consumeTotpStep_cases env.persist cred step with hsame | ⟨stored, hfind, hle, hwrite⟩
    · rw [hsame] at h
      cases h
    · rw [hwrite] at h ⊢
      cases hresult : env.persist.result with
      | error =>
        rw [hresult] at h
        cases h
      | ok _ =>
        rw [hresult] at h
        change (if cred.id = id then some step else none) = some n at h
        by_cases hid : cred.id = id
        · rw [if_pos hid, Option.some.injEq] at h
          subst hid h
          have hkey : stored.id = cred.id := Table.key_of_find hfind
          have hput := s.totpCredentials.find_put_self { stored with lastUsedStep := some step }
          refine ⟨(Store.nextStep_of_find hfind).trans_le hle, ?_⟩
          show step < ((s.totpCredentials.put _).find cred.id).elim 0 (·.nextStep)
          rw [← hkey, hput]
          exact Nat.lt_succ_self step
        · rw [if_neg hid] at h
          cases h
  | _ => cases h

/-- The steps accepted so far increase, and none of them can be claimed again. -/
structure StepsIncrease (id : String) (h : List StoreEvent) (s : Store) : Prop where
  increasing : (acceptedSteps id h).Pairwise (· < ·)
  used : ∀ n ∈ acceptedSteps id h, n < s.nextStep id

theorem acceptedSteps_append (id : String) (h : List StoreEvent) (e : StoreEvent) :
    acceptedSteps id (h ++ [e]) = acceptedSteps id h ++ (acceptedStep id e.reply).toList := by
  cases hstep : acceptedStep id e.reply with
  | _ => simp [acceptedSteps, hstep]

theorem StepsIncrease.idle (hs : StepsIncrease id h s) (a : Act) :
    StepsIncrease id (h ++ [{ before := s, call := a, reply := none, after := s }]) s := by
  have hsame : acceptedSteps id (h ++ [{ before := s, call := a, reply := none, after := s }]) =
      acceptedSteps id h := (acceptedSteps_append id h _).trans (List.append_nil _)
  exact ⟨hsame ▸ hs.increasing, fun n hn => hs.used n (hsame ▸ hn)⟩

theorem StepsIncrease.call (hs : StepsIncrease id h s) (a : Act) (c : Call) (env : Env) :
    StepsIncrease id
      (h ++ [{ before := s, call := a, reply := some ⟨c, (answer env s c).1⟩
               after := (answer env s c).2 }]) (answer env s c).2 := by
  have hmono := nextStep_le_answer env s c id
  refine ⟨?_, fun n hn => ?_⟩
  · rw [acceptedSteps_append, List.pairwise_append]
    refine ⟨hs.increasing, ?_, fun m hm n hn => ?_⟩
    · cases acceptedStep id (some ⟨c, (answer env s c).1⟩) with
      | none => exact List.Pairwise.nil
      | some n => exact List.pairwise_singleton _ n
    · have hn := of_acceptedStep (Option.mem_toList.mp hn)
      have hm := hs.used m hm
      omega
  · rw [acceptedSteps_append] at hn
    rcases List.mem_append.mp hn with hn | hn
    · exact Nat.lt_of_lt_of_le (hs.used n hn) hmono
    · exact (of_acceptedStep (Option.mem_toList.mp hn)).2

/-- In every interleaving, the steps that `consume_totp_step` accepts for a credential increase
strictly, so no step is accepted twice. -/
theorem accepted_steps_increase (st : SharedState) (s : Store) (acts : List Act) (id : String) :
    (acceptedSteps id (trace st (Service.opened s) acts)).Pairwise (· < ·) ∧
      (acceptedSteps id (trace st (Service.opened s) acts)).Nodup := by
  have hstart : StepsIncrease id [] s := ⟨List.Pairwise.nil, fun n hn => (by cases hn)⟩
  have hrun := Service.trace_history (serve st) answer (w := Service.opened s)
    (fun _ _ a hs => hs.idle a)
    (fun _ _ a c env hs => hs.call a c env) hstart acts
  exact ⟨hrun.increasing, hrun.increasing.imp Nat.ne_of_lt⟩

end Qid.Session
