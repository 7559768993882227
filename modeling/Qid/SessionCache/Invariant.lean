/-
The invariant of the interleaved handlers.

Whatever session a handler or a cache holds is a copy of the stored one that is active at no time at
which the stored one is not. The caches are exempt for a session between the write of a
`session_revoke` and its deletion from the level in question.
-/
import Qid.SessionCache.Orderly

namespace Qid.SessionCache

open Lib Storage
open Models (Session)

variable {phase : IssuePhase} {session : Session} {job : Job} {level : Level} {id : String}

structure JobSound (sessions : Table Session (·.id)) (job : Job) : Prop where
  copy : ∀ id session, job.inHand = some (id, session) → Copy sessions id session
  active : ∀ session now, job.judged = some (session, now) → session.isActive now = true
  revoked : ∀ id ∈ job.stopped, Revoked sessions id
  inRealm : ∀ realm id, job.located = some (realm, id) →
    ∃ stored, sessions.find id = some stored ∧ stored.realmId = realm

/-- A job that has revoked a session and has still to delete it from the level. -/
def Job.before (id : String) : Level → Job → Bool
  | .shared => beforeShared id
  | .own => beforeLocal id

structure Sound (s : System) : Prop where
  jobs : Jobs.All (JobSound s.store.sessions) s.jobs
  cached : ∀ level id e, s.store.Holds level id e →
    Jobs.Any (fun job => job.before id level = true) s.jobs ∨ Copy s.store.sessions id e.value

section

variable {sessions : Table Session (·.id)}

/-- A job without a session knows of those that it has ended. -/
theorem JobSound.of_stopped (hhand : job.inHand = none) (hjudged : job.judged = none)
    (hlocated : ∀ realm id, job.located = some (realm, id) →
      ∃ stored, sessions.find id = some stored ∧ stored.realmId = realm)
    (hrevoked : ∀ id ∈ job.stopped, Revoked sessions id) : JobSound sessions job where
  copy id session h := by rw [hhand] at h; cases h
  active session now h := by rw [hjudged] at h; cases h
  revoked := hrevoked
  inRealm := hlocated

theorem JobSound.idle (hhand : job.inHand = none) (hjudged : job.judged = none)
    (hstopped : job.stopped = []) (hlocated : job.located = none) : JobSound sessions job :=
  .of_stopped hhand hjudged (fun _ _ h => by rw [hlocated] at h; cases h)
    (hstopped ▸ List.forall_mem_nil _)

theorem JobSound.holding (hhand : job.inHand = some (id, session))
    (hcopy : Copy sessions id session)
    (hactive : ∀ found now, job.judged = some (found, now) → found.isActive now = true)
    (hstopped : job.stopped = []) (hlocated : job.located = none) : JobSound sessions job where
  copy id' found h := by
    rw [hhand] at h
    cases h
    exact hcopy
  active := hactive
  revoked := hstopped ▸ List.forall_mem_nil _
  inRealm realm id h := by rw [hlocated] at h; cases h

end

variable {s : System} {i : Nat} {store : Store}

section

variable {job' : Job}

/-- A cached session is exempt, or a copy, or was there before and is no less exempt and no less a
copy. -/
theorem Sound.move (h : Sound s) (hi : s.jobs[i]? = some job)
    (hkept : Kept s.store.sessions store.sessions)
    (hcopies : ∀ other ∈ s.jobs, ∀ id session, other.inHand = some (id, session) →
      KeepsCopies s.store.sessions store.sessions id)
    (hjob : JobSound store.sessions job')
    (hcached : ∀ level id e, store.Holds level id e →
      job'.before id level = true ∨ Copy store.sessions id e.value ∨
      s.store.Holds level id e ∧ KeepsCopies s.store.sessions store.sessions id ∧
        (job.before id level = true → job'.before id level = true)) :
    Sound { store := store, jobs := s.jobs.set i job' } where
  jobs := by
    intro j found hfound
    rcases Jobs.of_getElem?_set hfound with ⟨-, rfl⟩ | ⟨-, hold⟩
    · exact hjob
    · have hfound := h.jobs j found hold
      refine ⟨fun id session hhand => ?_, hfound.active,
        fun id hid => hkept.revoked (hfound.revoked id hid), fun realm id hlocated => ?_⟩
      · exact hcopies found (List.mem_of_getElem? hold) id session hhand session
          (hfound.copy id session hhand)
      · obtain ⟨stored, hstored, hrealm⟩ := hfound.inRealm realm id hlocated
        obtain ⟨stored', hstored', hrealm', -⟩ := hkept id stored hstored
        exact ⟨stored', hstored', hrealm'.trans hrealm⟩
  cached := by
    intro level id e he
    rcases hcached level id e he with hbefore | hcopy | ⟨hold, hkeeps, hstays⟩
    · exact Or.inl ⟨i, job', List.getElem?_set_self (Jobs.lt_length hi), hbefore⟩
    · exact Or.inr hcopy
    · exact (h.cached level id e hold).imp (fun hany => hany.set hi hstays) (hkeeps _)

theorem beforeLocal_of_before (h : job.before id level = true) : job.beforeLocal id = true := by
  cases level with
  | own => exact h
  | shared =>
    cases job with
    | sessionRevoke realm id' phase =>
      cases phase with
      | sharedDelete => exact h
      | _ => cases h
    | _ => cases h

theorem not_before (hfree : ∀ id, job.beforeLocal id = false) (level : Level) (id : String) :
    ¬job.before id level = true := by
  intro hb
  have hlocal := beforeLocal_of_before hb
  rw [hfree] at hlocal
  cases hlocal

variable (h : Sound s) (hi : s.jobs[i]? = some job) (hfree : ∀ id, job.beforeLocal id = false)
include h hi hfree

/-- A step that keeps every copy, of a job that deletes nothing next. -/
theorem Sound.move_keep (hkept : Kept s.store.sessions store.sessions)
    (hkeeps : ∀ id, KeepsCopies s.store.sessions store.sessions id)
    (hjob : JobSound store.sessions job')
    (hcached : ∀ level id e, store.Holds level id e →
      Copy store.sessions id e.value ∨ s.store.Holds level id e) :
    Sound { store := store, jobs := s.jobs.set i job' } := by
  refine h.move hi hkept (fun _ _ id _ _ => hkeeps id) hjob fun level id e he => ?_
  exact Or.inr ((hcached level id e he).imp_right fun hold =>
    ⟨hold, hkeeps id, fun hb => absurd hb (not_before hfree level id)⟩)

/-- Such a step that does not write the sessions. -/
theorem Sound.move_read (hsessions : store.sessions = s.store.sessions)
    (hjob : JobSound s.store.sessions job')
    (hcached : ∀ level id e, store.Holds level id e →
      Copy s.store.sessions id e.value ∨ s.store.Holds level id e) :
    Sound { store := store, jobs := s.jobs.set i job' } := by
  refine h.move_keep hi hfree ?_ ?_ ?_ ?_
  · exact hsessions ▸ .refl _
  · exact fun id copy hcopy => hsessions ▸ hcopy
  · exact hsessions ▸ hjob
  · exact hsessions ▸ hcached

theorem Sound.move_idle (hjob : JobSound s.store.sessions job') :
    Sound { store := s.store, jobs := s.jobs.set i job' } :=
  h.move_read hi hfree rfl hjob (fun _ _ _ => Or.inr)

end

/-! ## Issuing an assertion -/

variable {realm : String}

section

variable {sessions : Table Session (·.id)} {edge : QidResult Unit} {now : Nat}

theorem jobSound_withSession (hcopy : Copy sessions id session) :
    JobSound sessions (.issueAssertion realm id edge (.withSession realm session now)) := by
  rw [IssuePhase.withSession]
  cases hvalid : validateAssertionSession session realm now with
  | error => exact .idle rfl rfl rfl rfl
  | ok _ =>
    refine .holding rfl hcopy (fun found time hjudged => ?_) rfl rfl
    cases hjudged
    rw [validateAssertionSession] at hvalid
    split_ifs at hvalid with _ hrevoked hdeadlines
    simp only [Models.Session.isActive, Bool.and_eq_true, Bool.not_eq_true', decide_eq_true_eq,
      Bool.not_eq_true] at hrevoked ⊢
    exact ⟨⟨hrevoked, by omega⟩, by omega⟩

theorem jobSound_withCached (hcopy : Copy sessions id session) :
    JobSound sessions (.issueAssertion realm id edge (.withCached realm session now)) := by
  rw [IssuePhase.withCached, decodeCachedSession]
  split
  · rename_i found hfound
    split at hfound
    · cases hfound
      exact jobSound_withSession hcopy
    · cases hfound
  · exact .idle rfl rfl rfl rfl

end

variable {realms : Realms} {env : Env} {user : String} {old : Option String}
  {next : ChangePhase × Store} {sessions : Table Session (·.id)}

theorem of_getSession (h : env.getSession store id = .ok (some session)) :
    store.sessions.find id = some session := by
  rw [Env.getSession] at h
  split at h
  · cases h
  · exact Except.ok.inj h

/-- A cached session that no `session_revoke` has still to delete is a copy. -/
theorem Sound.copy_of_holds (h : Sound s) (hfree : ∀ other ∈ s.jobs, other.beforeLocal id = false)
    {e : Timed Session} (he : s.store.Holds level id e) : Copy s.store.sessions id e.value := by
  rcases h.cached level id e he with ⟨j, job, hjob, hbefore⟩ | hcopy
  · have hlocal := beforeLocal_of_before hbefore
    rw [hfree job (List.mem_of_getElem? hjob)] at hlocal
    cases hlocal
  · exact hcopy

/-- A read of a level of the cache, which `miss` follows when it holds no session. -/
theorem Sound.readCache (h : Sound s) {edge : QidResult Unit}
    (hi : s.jobs[i]? = some (.issueAssertion realm id edge phase))
    (hfree : ∀ other ∈ s.jobs, other.beforeLocal id = false) (r : Option Session × Store)
    (now : Nat) (miss : IssuePhase) {next : IssuePhase × Store}
    (hnext : (match r with
      | (some cached, store) => some (IssuePhase.withCached realm cached now, store)
      | (none, store) => some (miss, store)) = some next) (hr : Reads s.store id r)
    (hmiss : JobSound s.store.sessions (.issueAssertion realm id edge miss)) :
    Sound { store := next.2, jobs := s.jobs.set i (.issueAssertion realm id edge next.1) } := by
  obtain ⟨found, store⟩ := r
  have hread : ∀ phase', JobSound s.store.sessions (.issueAssertion realm id edge phase') →
      Sound { store := store, jobs := s.jobs.set i (.issueAssertion realm id edge phase') } :=
    fun _ hjob => h.move_read hi (fun _ => rfl) hr.sessions hjob
      fun _ _ _ he => Or.inr (hr.holds _ _ _ he)
  cases found with
  | none =>
    cases hnext
    exact hread _ hmiss
  | some cached =>
    cases hnext
    obtain ⟨level, e, he, rfl⟩ := hr.cached cached rfl
    exact hread _ (jobSound_withCached (h.copy_of_holds hfree he))

theorem Sound.issueAssertion (h : Sound s) {edge : QidResult Unit}
    (hi : s.jobs[i]? = some (.issueAssertion realm id edge phase))
    (horderly : Orderly realms s env (.issueAssertion realm id edge phase))
    {next : IssuePhase × Store} (hadvance : phase.advance realm id edge env s.store = some next) :
    Sound { store := next.2, jobs := s.jobs.set i (.issueAssertion realm id edge next.1) } := by
  have hjob : JobSound s.store.sessions (.issueAssertion realm id edge phase) := h.jobs i _ hi
  have hfree : ∀ id', (Job.issueAssertion realm id edge phase).beforeLocal id' = false :=
    fun _ => rfl
  have hrefused : ∀ e, Sound
      { store := s.store, jobs := s.jobs.set i (.issueAssertion realm id edge (.refused e)) } :=
    fun e => h.move_idle hi hfree (.idle rfl rfl rfl rfl)
  cases phase with
  | start =>
    exact h.readCache hi (horderly.1 id rfl) (s.store.localGet env.clock id) env.seconds
      (.sharedGet env.seconds) hadvance (reads_localGet _ _ _) (.idle rfl rfl rfl rfl)
  | sharedGet now =>
    exact h.readCache hi (horderly.1 id rfl) (s.store.sharedGet env.clock id) now
      (.getSession now) hadvance (reads_sharedGet _ _ _) (.idle rfl rfl rfl rfl)
  | getSession now =>
    rw [IssuePhase.advance] at hadvance
    split at hadvance
    · cases hadvance
      exact hrefused _
    · cases hadvance
      exact hrefused _
    · rename_i session hget
      cases hadvance
      refine h.move_idle hi hfree ?_
      have hcopy := copy_of_find (of_getSession hget)
      rw [IssuePhase.withStored]
      cases sessionCachePut session now with
      | none => exact jobSound_withSession hcopy
      | some => exact .holding rfl hcopy (fun found time hjudged => by cases hjudged) rfl rfl
  | sharedSet session =>
    cases hadvance
    have hcopy : Copy s.store.sessions id session := hjob.copy id session rfl
    refine h.move_read hi hfree rfl
      (.holding rfl hcopy (fun found time hjudged => by cases hjudged) rfl rfl)
      fun level id' e he => ?_
    cases level with
    | own => exact Or.inr he
    | shared =>
      rcases HashMap.of_lookup_insert he with ⟨hkey, rfl⟩ | ⟨-, hold⟩
      · exact Or.inl (sharedKey_injective hkey ▸ hcopy)
      · exact Or.inr hold
  | localPut session =>
    cases hadvance
    have hcopy : Copy s.store.sessions id session := hjob.copy id session rfl
    refine h.move_read hi hfree rfl (jobSound_withSession hcopy) fun level id' e he => ?_
    cases level with
    | shared => exact Or.inr he
    | own =>
      rcases Lru.mem_put he with heq | ⟨hold, -⟩
      · cases heq
        exact Or.inl hcopy
      · exact Or.inr hold
  | reading session now read =>
    rw [IssuePhase.advance] at hadvance
    split at hadvance
    · cases hadvance
      exact hrefused _
    · cases hadvance
      refine h.move_idle hi hfree (.holding rfl (hjob.copy id session rfl) ?_ rfl rfl)
      exact hjob.active
    · cases hadvance
      exact h.move_idle hi hfree (.idle rfl rfl rfl rfl)
  | _ => cases hadvance

/-! ## SAML single sign-on -/

theorem Sound.sso (h : Sound s) {response : Except String Unit} {phase : SsoPhase}
    (hi : s.jobs[i]? = some (.sso realm id response phase)) {next : SsoPhase × Store}
    (hadvance : phase.advance realm id response env s.store = some next) :
    Sound { store := next.2, jobs := s.jobs.set i (.sso realm id response next.1) } := by
  have hidle : ∀ phase', phase'.session = none →
      Sound { store := s.store, jobs := s.jobs.set i (.sso realm id response phase') } := by
    intro phase' hnone
    cases phase' with
    | user => cases hnone
    | _ => exact h.move_idle hi (fun _ => rfl) (.idle rfl rfl rfl rfl)
  cases phase with
  | start =>
    rw [SsoPhase.advance] at hadvance
    split at hadvance
    · cases hadvance
      exact hidle _ rfl
    · cases hadvance
      exact hidle _ rfl
    · rename_i session hget
      split at hadvance
      · rename_i hactive
        cases hadvance
        refine h.move_idle hi (fun _ => rfl) (.holding rfl (copy_of_find (of_getSession hget))
          (fun found now hjudged => ?_) rfl rfl)
        cases hjudged
        simp only [isActiveSessionForRealm, Models.Session.isActive, Bool.and_eq_true] at hactive ⊢
        exact ⟨⟨hactive.1.1.2, hactive.2⟩, hactive.1.2⟩
      · cases hadvance
        exact hidle _ rfl
  | user =>
    unfold SsoPhase.advance at hadvance
    simp only at hadvance
    split at hadvance <;> cases hadvance <;> exact hidle _ rfl
  | _ => cases hadvance

/-! ## Refreshing a session -/

theorem Sound.sessionRefresh (h : Sound s) {phase : ChangePhase}
    (hi : s.jobs[i]? = some (.sessionRefresh realm id phase))
    (horderly : Orderly realms s env (.sessionRefresh realm id phase))
    (hadvance : phase.advance realm id (fun s =>
      s.updateSessionIdleExpiry env.persist id (newIdle (realms realm) env) realm) env s.store =
        some next) :
    Sound { store := next.2, jobs := s.jobs.set i (.sessionRefresh realm id next.1) } := by
  have hfree : ∀ id', (Job.sessionRefresh realm id phase).beforeLocal id' = false := fun _ => rfl
  have hjob : ∀ sessions phase', JobSound sessions (.sessionRefresh realm id phase') :=
    fun sessions phase' => .idle rfl rfl rfl rfl
  cases phase with
  | start =>
    rw [ChangePhase.advance] at hadvance
    split at hadvance <;> cases hadvance <;> exact h.move_idle hi hfree (hjob _ _)
  | write =>
    cases hadvance
    simp only [Store.updateSessionIdleExpiry]
    cases hinRealm : s.store.inRealm id realm with
    | none => exact h.move_idle hi hfree (hjob _ _)
    | some session =>
      have hfind := (inRealm_eq_some hinRealm).1
      have hstored : ∀ stored, s.store.sessions.find session.id = some stored →
          stored = session := fun stored hs =>
            Option.some.inj (hs.symm.trans (Table.find_key hfind))
      refine h.move_keep hi hfree (kept_put fun stored hs => ?_)
        (fun id' => keepsCopies_put fun _ stored hs => ?_) (hjob _ _) (fun _ _ _ => Or.inr)
      · rw [hstored stored hs]
        exact ⟨rfl, fun hr => hr⟩
      · rw [hstored stored hs]
        have hidle := horderly.2.2.2 (realm, id) rfl session hfind
        intro now hactive
        simp only [Models.Session.isActive, Bool.and_eq_true, decide_eq_true_eq] at hactive ⊢
        exact ⟨hactive.1, Nat.le_trans hactive.2 hidle⟩
  | sharedDelete =>
    cases hadvance
    exact h.move_read hi hfree rfl (hjob _ _) (fun _ _ _ he => Or.inr (holds_sharedDelete he).1)
  | localDelete =>
    cases hadvance
    exact h.move_read hi hfree rfl (hjob _ _) (fun _ _ _ he => Or.inr (holds_localDelete he).1)
  | _ => cases hadvance

/-! ## Revoking a session -/

variable (persist : Persist)

theorem kept_revokeSession (store : Store) (id realm : String) :
    Kept store.sessions (store.revokeSession persist id realm).2.sessions := by
  rcases revokeSession_cases persist store id realm with ⟨hsame, -⟩ | ⟨session, hfind, -, -, hput⟩
  · rw [hsame]
    exact .refl _
  · rw [hput]
    refine kept_put fun stored hs => ?_
    rw [← Option.some.inj ((Table.find_key hfind).symm.trans hs)]
    exact ⟨rfl, fun _ => rfl⟩

theorem revoked_put (hfind : sessions.find id = some session) :
    Revoked (sessions.put { session with revoked := true }) id := by
  obtain rfl : session.id = id := Table.key_of_find hfind
  exact ⟨_, Table.find_put_self _ _, rfl⟩

theorem revoked_of_revokeSession {persist : Persist}
    (h : (store.revokeSession persist id realm).1 = .ok true) :
    Revoked (store.revokeSession persist id realm).2.sessions id := by
  rcases revokeSession_cases persist store id realm with ⟨hsame, -⟩ | ⟨session, hfind, -, -, hput⟩
  · rw [hsame] at h
    cases h
  · rw [hput]
    exact revoked_put hfind

theorem revoked_of_inRealm {stored : Session}
    (hfind : store.sessions.find id = some stored) (hrealm : stored.realmId = realm) :
    Revoked (store.revokeSession persist id realm).2.sessions id := by
  rcases revokeSession_cases persist store id realm with
    ⟨hsame, hrevoked⟩ | ⟨session, hfind', -, -, hput⟩
  · rw [hsame]
    exact ⟨stored, hfind, hrevoked stored hfind hrealm⟩
  · rw [hput]
    exact revoked_put hfind'

/-- A session that a job ends is stored, and `revoke_session` writes it. -/
theorem revokeSession_of_ends (hrevokes : job.revokes = some (realm, id)) (h : id' ∈ job.ends store)
    (hdone : env.persist = .done) :
    (store.revokeSession env.persist id realm).1 = .ok true ∧ id' = id := by
  rw [Job.ends, hrevokes] at h
  obtain ⟨session, hsession, hid⟩ := Option.map_eq_some_iff.mp h
  obtain ⟨hinRealm, hrev⟩ := Option.filter_eq_some_iff.mp hsession
  obtain ⟨hfind, hrealm⟩ := inRealm_eq_some hinRealm
  rcases revokeSession_cases env.persist store id realm with
    ⟨-, hrevoked⟩ | ⟨session', -, -, -, hput⟩
  · rw [hrevoked session hfind hrealm] at hrev
    cases hrev
  · rw [hput, hdone]
    exact ⟨rfl, hid.symm⟩

/-- Nobody has the session in hand, and it is not cached or the job deletes it next. -/
theorem Sound.move_revoke (h : Sound s) {job' : Job} (hi : s.jobs[i]? = some job)
    (horderly : Orderly realms s env job) (hrevokes : job.revokes = some (realm, id))
    (hclears : ∀ id' ∈ job.ends s.store, job.clearsCache = true → env.persist = .done →
      ∀ level, job'.before id' level = true) (hfree : ∀ id', job.beforeLocal id' = false)
    (hjob : JobSound (s.store.revokeSession env.persist id realm).2.sessions job') :
    Sound { store := (s.store.revokeSession env.persist id realm).2,
            jobs := s.jobs.set i job' } := by
  rcases revokeSession_cases env.persist s.store id realm with
    ⟨hsame, -⟩ | ⟨session, hfind, hrealm, hrevoked, hput⟩
  · rw [hsame] at hjob ⊢
    exact h.move_idle hi hfree hjob
  · obtain ⟨-, hunheld, huncached, -⟩ := horderly
    have hends : job.ends s.store = some id := by
      rw [Job.ends, hrevokes, Option.bind_some, Store.inRealm, hfind, Option.filter_some,
        if_pos (decide_eq_true hrealm), Option.filter_some, hrevoked]
      rfl
    have hself : session.id = id := Table.key_of_find hfind
    have hkept := kept_revokeSession env.persist s.store id realm
    rw [hput] at hjob hkept ⊢
    have hkeeps : ∀ id', id' ≠ id → KeepsCopies s.store.sessions
        (s.store.sessions.put { session with revoked := true }) id' :=
      fun id' hne => keepsCopies_put fun heq => absurd (heq.trans hself) hne
    refine h.move hi hkept ?_ hjob (fun level id' e he => ?_)
    · intro other hother id' held hhand
      exact hkeeps id' (hunheld id hends other hother _ hhand)
    · by_cases hid : id' = id
      · subst hid
        rcases huncached id' hends with ⟨hclear, hdone⟩ | ⟨hlocal, hshared⟩
        · exact Or.inl (hclears id' hends hclear hdone level)
        · rw [Option.isNone_iff_eq_none] at hlocal hshared
          cases level with
          | shared => cases hshared.symm.trans he
          | own => exact absurd he (Lru.notMem_of_peek hlocal e)
      · exact Or.inr (Or.inr ⟨he, hkeeps id' hid, fun hb => absurd hb (not_before hfree level id')⟩)

theorem Sound.sessionRevoke (h : Sound s) {phase : ChangePhase}
    (hi : s.jobs[i]? = some (.sessionRevoke realm id phase))
    (horderly : Orderly realms s env (.sessionRevoke realm id phase))
    (hadvance : phase.advance realm id (fun s => s.revokeSession env.persist id realm) env
      s.store = some next) :
    Sound { store := next.2, jobs := s.jobs.set i (.sessionRevoke realm id next.1) } := by
  have hjob : JobSound s.store.sessions (.sessionRevoke realm id phase) := h.jobs i _ hi
  cases phase with
  | start =>
    rw [ChangePhase.advance] at hadvance
    split at hadvance <;> cases hadvance <;>
      exact h.move_idle hi (fun _ => rfl) (.idle rfl rfl rfl rfl)
  | write =>
    cases hadvance
    refine h.move_revoke hi horderly rfl (fun id' hid' _ hdone => ?_) (fun id' => rfl) ?_
    · -- the session is revoked and saved, so the deletions come next
      have hwritten := revokeSession_of_ends rfl hid' hdone
      rw [hwritten.1, hwritten.2]
      intro level
      cases level with
      | _ => exact beq_self_eq_true id
    · refine .of_stopped rfl rfl (fun _ _ h => by cases h) fun id' hid' => ?_
      cases hresult : (s.store.revokeSession env.persist id realm).1 with
      | error => simp only [hresult] at hid'; cases hid'
      | ok answer =>
        simp only [hresult] at hid'
        cases answer with
        | false => cases hid'
        | true =>
          rw [List.mem_singleton.mp hid']
          exact revoked_of_revokeSession hresult
  | sharedDelete =>
    cases hadvance
    refine h.move hi (.refl _) (fun _ _ _ _ _ _ hcopy => hcopy)
      (.of_stopped rfl rfl (fun _ _ h => by cases h) hjob.revoked) fun level id' e he => ?_
    obtain ⟨hold, hne⟩ := holds_sharedDelete he
    refine Or.inr (Or.inr ⟨hold, fun _ hcopy => hcopy, fun hb => ?_⟩)
    cases level with
    | shared => exact absurd (eq_of_beq hb).symm (hne rfl)
    | own => exact hb
  | localDelete =>
    cases hadvance
    refine h.move hi (.refl _) (fun _ _ _ _ _ _ hcopy => hcopy)
      (.of_stopped rfl rfl (fun _ _ h => by cases h) hjob.revoked) fun level id' e he => ?_
    obtain ⟨hold, hne⟩ := holds_localDelete he
    refine Or.inr (Or.inr ⟨hold, fun _ hcopy => hcopy, fun hb => ?_⟩)
    cases level with
    | shared => cases hb
    | own => exact absurd (eq_of_beq hb).symm (hne rfl)
  | _ => cases hadvance

/-! ## SAML single logout -/

theorem Sound.slo (h : Sound s) {phase : LogoutPhase} (hi : s.jobs[i]? = some (.slo realm phase))
    (horderly : Orderly realms s env (.slo realm phase))
    {next : LogoutPhase × Store} (hadvance : phase.advance realm env s.store = some next) :
    Sound { store := next.2, jobs := s.jobs.set i (.slo realm next.1) } := by
  have hjob : JobSound s.store.sessions (.slo realm phase) := h.jobs i _ hi
  have hidle : ∀ phase', JobSound s.store.sessions (.slo realm phase') →
      Sound { store := s.store, jobs := s.jobs.set i (.slo realm phase') } :=
    fun phase' => h.move_idle hi (fun _ => rfl)
  cases phase with
  | lookup indexes revoked =>
    have hrevoked : ∀ id ∈ revoked, Revoked s.store.sessions id := hjob.revoked
    have hlookup : ∀ indexes, JobSound s.store.sessions (.slo realm (.lookup indexes revoked)) :=
      fun indexes => .of_stopped rfl rfl (fun _ _ h => by cases h) hrevoked
    cases indexes with
    | nil =>
      cases hadvance
      exact hidle _ (.of_stopped rfl rfl (fun _ _ h => by cases h) hrevoked)
    | cons =>
      rw [LogoutPhase.advance] at hadvance
      split at hadvance
      · cases hadvance
        exact hidle _ (.idle rfl rfl rfl rfl)
      · cases hadvance
        exact hidle _ (hlookup _)
      · rename_i session hget
        split at hadvance
        · rename_i hrealm
          cases hadvance
          refine hidle _ (.of_stopped rfl rfl (fun _ _ h => ?_) hrevoked)
          cases h
          exact ⟨session, of_getSession hget, hrealm⟩
        · cases hadvance
          exact hidle _ (hlookup _)
  | revoke index indexes revoked =>
    obtain ⟨stored, hfind, hrealm⟩ := hjob.inRealm realm index rfl
    have hkept := kept_revokeSession env.persist s.store index realm
    have hmove : ∀ phase', JobSound
        (s.store.revokeSession env.persist index realm).2.sessions (.slo realm phase') →
        Sound { store := (s.store.revokeSession env.persist index realm).2,
                jobs := s.jobs.set i (.slo realm phase') } :=
      fun phase' => h.move_revoke hi horderly rfl (fun _ _ hclears => by cases hclears)
        (fun id' => rfl)
    rw [LogoutPhase.advance] at hadvance
    split at hadvance
    · rename_i e store' hresult
      cases hadvance
      rw [hresult] at hmove
      exact hmove _ (.idle rfl rfl rfl rfl)
    · rename_i answer store' hresult
      cases hadvance
      have hnow := revoked_of_inRealm env.persist hfind hrealm
      rw [hresult] at hmove hkept hnow
      refine hmove _ (.of_stopped rfl rfl (fun _ _ h => by cases h) fun id hid => ?_)
      rcases List.mem_append.mp hid with hold | hnew
      · exact hkept.revoked (hjob.revoked id hold)
      · rw [List.mem_singleton.mp hnew]
        exact hnow
  | _ => cases hadvance

/-! ## A new login -/

theorem jobSound_login {phase : LoginPhase}
    (h : phase.ended = true → ∀ id ∈ old, Revoked sessions id) :
    JobSound sessions (.login realm user old phase) := by
  refine .of_stopped rfl rfl (fun _ _ h => by cases h) fun id hid => ?_
  rw [Job.stopped] at hid
  split at hid
  · rename_i hended
    exact h hended id (Option.mem_toList.mp hid)
  · cases hid

theorem Sound.login (h : Sound s) {config : BrowserSessionConfig} {phase : LoginPhase}
    (hi : s.jobs[i]? = some (.login realm user old phase))
    (horderly : Orderly realms s env (.login realm user old phase)) {next : LoginPhase × Store}
    (hadvance : phase.advance config realm user old env s.store = some next) :
    Sound { store := next.2, jobs := s.jobs.set i (.login realm user old next.1) } := by
  have hjob : JobSound s.store.sessions (.login realm user old phase) := h.jobs i _ hi
  cases phase with
  | start =>
    cases old with
    | none =>
      cases hadvance
      exact h.move_idle hi (fun _ => rfl) (jobSound_login fun hended => by cases hended)
    | some id =>
      cases hadvance
      refine h.move_revoke hi horderly rfl (fun _ _ hclears => by cases hclears)
        (fun id' => rfl) (jobSound_login fun hended id' hid' => ?_)
      cases hid'
      cases hresult : (s.store.revokeSession env.persist id realm).1 with
      | error =>
        rw [hresult] at hended
        cases hended
      | ok =>
        rw [hresult] at hended
        exact revoked_of_revokeSession (hresult.trans (congrArg Except.ok hended))
  | create ended =>
    have hended : ended = true → ∀ id ∈ old, Revoked s.store.sessions id := by
      intro he id hid
      refine hjob.revoked id ?_
      rw [Job.stopped, if_pos (show (LoginPhase.create ended).ended = true from he)]
      exact Option.mem_toList.mpr hid
    have hnext : next.1.ended = ended ∧
        next.2 = (s.store.createSession env.persist (newSession config realm user env)).2 := by
      rw [LoginPhase.advance] at hadvance
      split at hadvance
      · rename_i store' hresult
        cases hadvance
        exact ⟨rfl, by rw [hresult]⟩
      · rename_i e store' hresult
        cases hadvance
        exact ⟨rfl, by rw [hresult]⟩
    rw [hnext.2]
    have hphase : ∀ sessions, Kept s.store.sessions sessions →
        JobSound sessions (.login realm user old next.1) := by
      intro sessions hkept
      refine jobSound_login fun hended' id hid => ?_
      rw [hnext.1] at hended'
      exact hkept.revoked (hended hended' id hid)
    rw [Store.createSession]
    cases hnew : s.store.sessions.find (newSession config realm user env).id with
    | some => exact h.move_idle hi (fun _ => rfl) (hphase _ (.refl _))
    | none =>
      -- a new session is none of those that were there
      have hkept := kept_put fun stored hs => by rw [hnew] at hs; cases hs
      exact h.move_keep hi (fun _ => rfl) hkept
        (fun id => keepsCopies_put fun _ stored hs => by rw [hnew] at hs; cases hs) (hphase _ hkept)
        (fun _ _ _ => Or.inr)
  | _ => cases hadvance

end Qid.SessionCache
