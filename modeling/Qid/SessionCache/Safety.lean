/-
Ended sessions are not honoured.

Only `session_revoke` clears the caches when it revokes a session. Single logout and a new login do
not, and a handler that has read a session before its end goes on with it.
-/
import Qid.SessionCache.Invariant

namespace Qid.SessionCache

open Lib Storage
open Models (Session)

section

variable {realms : Realms} {s : System} {i : Nat} {env : Env} {job job' : Job} {store : Store}
  {id realm : String} {now : Nat} {act : Act}

theorem Sound.arrive (h : Sound s) (request : Request) :
    Sound { s with jobs := s.jobs ++ [request.start] } where
  jobs := by
    refine h.jobs.append ?_
    cases request with
    | _ => exact .idle rfl rfl rfl rfl
  cached level id e he := (h.cached level id e he).imp_left fun hany => hany.append _

theorem Sound.step (h : Sound s) (horderly : OrderlyAct realms s act) :
    Sound (step realms s act).2 := by
  refine Jobs.step_induction (motive := fun r => Sound r.2) (fun request _ => h.arrive request) h ?_
  rintro i env job job' store rfl hi hadvance
  have horderly := horderly job hi
  cases job <;>
    obtain ⟨next, hnext, heq⟩ := Option.map_eq_some_iff.mp hadvance <;>
    cases heq
  · exact h.issueAssertion hi horderly hnext
  · exact h.sso hi hnext
  · exact h.sessionRefresh hi horderly hnext
  · exact h.sessionRevoke hi horderly hnext
  · exact h.slo hi horderly hnext
  · exact h.login hi horderly hnext

theorem IssuePhase.withSession_ne_issued (realm : String) (session : Session) (now time : Nat) :
    IssuePhase.withSession realm session now ≠ .issued time := by
  rw [IssuePhase.withSession]
  split
  all_goals
    intro h
    cases h

/-- Only an issuance that has made its last call succeeds. -/
theorem IssuePhase.of_issued {edge : QidResult Unit} {phase : IssuePhase} {s : Store}
    (h : phase.advance realm id edge env s = some (.issued now, store)) :
    store = s ∧ ∃ session read, phase = .reading session now read := by
  cases phase with
  | start | sharedGet time =>
    rw [IssuePhase.advance] at h
    split at h
    · obtain ⟨hphase, -⟩ := Prod.mk.inj (Option.some.inj h)
      rw [IssuePhase.withCached] at hphase
      split at hphase
      · exact absurd hphase (withSession_ne_issued _ _ _ _)
      · cases hphase
    · cases h
  | getSession =>
    rw [IssuePhase.advance] at h
    split at h
    · cases h
    · cases h
    · obtain ⟨hphase, -⟩ := Prod.mk.inj (Option.some.inj h)
      rw [IssuePhase.withStored] at hphase
      split at hphase
      · cases hphase
      · exact absurd hphase (withSession_ne_issued _ _ _ _)
  | sharedSet => cases h
  | localPut =>
    obtain ⟨hphase, -⟩ := Prod.mk.inj (Option.some.inj h)
    exact absurd hphase (withSession_ne_issued _ _ _ _)
  | reading session time read =>
    rw [IssuePhase.advance] at h
    split at h
    · cases h
    · cases h
    · cases h
      exact ⟨rfl, session, read, rfl⟩
  | _ => cases h

theorem JobSound.stored_active {sessions : Table Session (·.id)}
    (h : JobSound sessions job) {session : Session} (hhand : job.inHand = some (id, session))
    (hjudged : job.judged = some (session, now)) :
    ∃ stored, sessions.find id = some stored ∧ stored.isActive now = true := by
  obtain ⟨stored, hstored, hcopy⟩ := h.copy id session hhand
  exact ⟨stored, hstored, hcopy now (h.active session now hjudged)⟩

/-- A job that succeeds does so for a session that is active at the time it has looked at. -/
theorem Sound.stored_active (h : Sound s) (hi : s.jobs[i]? = some job)
    (hadvance : job.advance realms env s.store = some (job', store))
    (hhonoured : job'.honoured = some (id, now)) :
    ∃ stored, store.sessions.find id = some stored ∧ stored.isActive now = true := by
  have hjob := h.jobs i job hi
  cases job with
  | issueAssertion =>
    obtain ⟨⟨phase', store'⟩, hnext, heq⟩ := Option.map_eq_some_iff.mp hadvance
    cases heq
    cases phase' with
    | issued =>
      cases hhonoured
      obtain ⟨rfl, session, read, rfl⟩ := IssuePhase.of_issued hnext
      exact hjob.stored_active rfl rfl
    | _ => cases hhonoured
  | sso realm id' response phase =>
    obtain ⟨⟨phase', store'⟩, hnext, heq⟩ := Option.map_eq_some_iff.mp hadvance
    cases heq
    cases phase' with
    | signedOn =>
      cases hhonoured
      cases phase with
      | start =>
        rw [SsoPhase.advance] at hnext
        split at hnext
        · cases hnext
        · cases hnext
        · split at hnext <;> cases hnext
      | user session =>
        unfold SsoPhase.advance at hnext
        simp only at hnext
        split at hnext
        · cases hnext
        · cases hnext
        · cases hnext
        · cases hnext
          exact hjob.stored_active rfl rfl
      | _ => cases hnext
    | _ => cases hhonoured
  | _ =>
    obtain ⟨next, -, heq⟩ := Option.map_eq_some_iff.mp hadvance
    cases heq
    cases hhonoured

def Ended (s : System) (id : String) : Prop :=
  Jobs.Any (fun job => job.hasReturned = true ∧ id ∈ job.stopped) s.jobs

def Request.subject : Request → Option String
  | .issueAssertion _ id _ | .sso _ id _ => some id
  | _ => none

def Job.subject : Job → Option String
  | .issueAssertion _ id _ _ | .sso _ id _ _ => some id
  | _ => none

theorem subject_of_honoured (h : job.honoured = some (id, now)) : job.subject = some id := by
  cases job with
  | issueAssertion realm id' edge phase =>
    cases phase with
    | issued =>
      cases h
      rfl
    | _ => cases h
  | sso realm id' response phase =>
    cases phase with
    | signedOn =>
      cases h
      rfl
    | _ => cases h
  | _ => cases h

/-- A handler that has returned takes no step. -/
theorem advance_of_hasReturned (h : job.hasReturned = true) :
    job.advance realms env store = none := by
  cases job with
  | sessionRevoke realm id phase | slo realm phase =>
    cases phase with
    | done => rfl
    | _ => cases h
  | login realm user old phase =>
    cases phase with
    | created ended session | refused ended e => rfl
    | _ => cases h
  | _ => cases h

theorem Sound.revoked (h : Sound s) (hended : Ended s id) : Revoked s.store.sessions id := by
  obtain ⟨j, job, hjob, -, hid⟩ := hended
  exact (h.jobs j job hjob).revoked id hid

/-- A request that arrives after the session has ended, and has not succeeded. -/
structure Late (k : Nat) (id : String) (s : System) : Prop where
  sound : Sound s
  ended : Ended s id
  refused : ∃ job, s.jobs[k]? = some job ∧ job.subject = some id ∧ job.honoured = none

theorem Late.step {k : Nat} (h : Late k id s) (horderly : OrderlyAct realms s act) :
    Late k id (step realms s act).2 := by
  have hsound := h.sound.step horderly
  have hended : Ended (SessionCache.step realms s act).2 id := by
    obtain ⟨j, job, hj, hreturned, hid⟩ := h.ended
    rcases Jobs.step_job Request.start (Job.advance realms) act hj with
      hkept | ⟨env, job', store, rfl, hadvance, -⟩
    · exact ⟨j, job, hkept, hreturned, hid⟩
    · rw [advance_of_hasReturned hreturned] at hadvance
      cases hadvance
  obtain ⟨late, hlate, hsubject, hnone⟩ := h.refused
  rcases Jobs.step_job Request.start (Job.advance realms) act hlate with
    hkept | ⟨env, job', store, rfl, hadvance, hstep⟩
  · exact ⟨hsound, hended, late, hkept, hsubject, hnone⟩
  · obtain ⟨stored, hstored, hrevoked⟩ := hsound.revoked hended
    rw [SessionCache.step, hstep] at hsound hended hstored ⊢
    have hsubject' : job'.subject = some id := by
      rw [← hsubject]
      cases late with
      | _ =>
        obtain ⟨next, -, heq⟩ := Option.map_eq_some_iff.mp hadvance
        cases heq
        rfl
    refine ⟨hsound, hended, job', List.getElem?_set_self (Jobs.lt_length hlate), hsubject', ?_⟩
    cases hhonoured : job'.honoured with
    | none => rfl
    | some answer =>
      obtain ⟨stored', hstored', hactive⟩ := h.sound.stored_active hlate hadvance hhonoured
      have hid := subject_of_honoured hhonoured
      rw [hsubject', Option.some.injEq] at hid
      rw [← hid, show store.sessions.find id = some stored from hstored] at hstored'
      cases hstored'
      rw [Models.Session.isActive, hrevoked] at hactive
      cases hactive

end

def sampleSession : Session where
  id := "sid_1"
  realmId := "corp"
  userId := "alice"
  idleExpiresAt := 1800
  absoluteExpiresAt := 28800
  revoked := false

def advances (count i : Nat) : List Act :=
  List.replicate count
    (.advance i { clock := 0, answer := .present, persist := .done, newId := "sid_2" })

end Qid.SessionCache
