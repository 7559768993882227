/-
The retention job, and appends between its steps.

The job plans a purge from one read of the audit log and archives what a second read gives: the
newest events, as many as the plan has counted. An event that is appended in between takes the place
of the oldest one, and so does the bound of the SQL back end on what it lists.
-/
import Qid.Audit.Chain

namespace Qid.Audit

open Lib Json Storage

inductive Backend where
  | file
  | sql
  deriving DecidableEq

def inScope (realm : Option String) (e : AuditEvent) : Bool := realm.isNone || e.realmId == realm

/-- `ORDER BY created_at DESC, id DESC`. -/
def newestFirst (a b : AuditEvent) : Bool :=
  b.createdAt < a.createdAt || (b.createdAt == a.createdAt && b.id ≤ a.id)

def listAuditEvents (backend : Backend) (events : List AuditEvent) (realm : Option String)
    (limit : Nat) : List AuditEvent :=
  let sorted := (events.filter (inScope realm)).insertionSort (newestFirst · ·)
  match backend with
  | .file => sorted.take limit
  | .sql => sorted.take (min limit 1000)

def allAuditEvents (backend : Backend) (events : List AuditEvent) (realm : Option String) :
    List AuditEvent :=
  match backend with
  | .file => events.filter (inScope realm)
  | .sql => (events.filter (inScope realm)).insertionSort fun a b => newestFirst b a

section

variable (sha256 : AuditEvent → String)

/-- The new event follows the newest one that no other event of the realm follows. -/
def sqlAppendAuditEvent (persist : Persist) (events : List AuditEvent) (event : AuditEvent) :
    QidResult Unit × List AuditEvent :=
  let realm := events.filter (·.realmId == event.realmId)
  let tips := realm.filter fun e =>
    e.eventHash.isSome && !realm.any fun n => n.previousHash == e.eventHash
  let previousHash := ((tips.insertionSort (newestFirst · ·)).head?).bind (·.eventHash)
  if events.any (·.id == event.id) then
    (.error (.conflict ("Audit event ID " ++ event.id ++ " already exists")), events)
  else
    match persist.result with
    | .ok () => (.ok (), events ++ [event.withChainHashes sha256 previousHash])
    | .error e => (.error e, events)

def Backend.append (backend : Backend) (persist : Persist) (events : List AuditEvent)
    (event : AuditEvent) : QidResult Unit × List AuditEvent :=
  match backend with
  | .file => appendAuditEvent sha256 persist events event
  | .sql => sqlAppendAuditEvent sha256 persist events event

end

structure AuditRetentionConfig where
  realmId : Option String
  retentionDays : Nat
  legalHold : Bool

structure AuditRetentionEnforcementPlan where
  realmId : Option String
  retentionDays : Nat
  legalHold : Bool
  cutoffEpoch : Option Nat
  checkedEvents : Nat
  retainedEventIds : List String
  expiredEventIds : List String

def planAuditRetentionEnforcement (config : AuditRetentionConfig) (nowEpoch : Nat)
    (events : List AuditEvent) : AuditRetentionEnforcementPlan :=
  if config.legalHold then
    { realmId := config.realmId, retentionDays := config.retentionDays, legalHold := true
      cutoffEpoch := none, checkedEvents := events.length
      retainedEventIds := events.map (·.id), expiredEventIds := [] }
  else
    -- `saturating_mul` and `saturating_sub` on `u64`
    let cutoff := nowEpoch - min (config.retentionDays * (24 * 60 * 60)) (2 ^ 64 - 1)
    let retained := events.filter fun e => !decide (e.createdAt < cutoff)
    let expired := events.filter fun e => decide (e.createdAt < cutoff)
    { realmId := config.realmId, retentionDays := config.retentionDays, legalHold := false
      cutoffEpoch := some cutoff, checkedEvents := retained.length + expired.length
      retainedEventIds := retained.map (·.id), expiredEventIds := expired.map (·.id) }

structure AuditRetentionExecutionConfig where
  realmId : Option String
  nowEpoch : Nat
  archiveRequired : Bool
  actor : String
  reason : String
  recordAuditEvent : Bool

inductive AuditRetentionExecutionStatus where
  | skippedChainInvalid
  | skippedNoPolicy
  | skippedLegalHold
  | skippedNoExpiredEvents
  | skippedArchiveRequired
  | ready
  deriving DecidableEq

/-- The archive, by the events its body has a line of. -/
structure AuditWormArchiveReport where
  body : List AuditEvent
  auditEventId : Option String

structure AuditRetentionExecutionReport where
  status : AuditRetentionExecutionStatus
  chainVerification : AuditChainVerification
  retentionPlan : Option AuditRetentionEnforcementPlan := none
  archiveReport : Option AuditWormArchiveReport := none
  purgeEventIds : List String := []
  auditEventId : Option String := none

/-- What the job does next, with what it has read. -/
inductive Phase where
  | verify
  | plan (v : AuditChainVerification)
  | archive (v : AuditChainVerification) (plan : AuditRetentionEnforcementPlan)
  /-- The events have been listed, and the objects are put. -/
  | put (v : AuditChainVerification) (plan : AuditRetentionEnforcementPlan) (body : List AuditEvent)
  | recordArchive (v : AuditChainVerification) (plan : AuditRetentionEnforcementPlan)
      (body : List AuditEvent)
  | record (v : AuditChainVerification) (plan : AuditRetentionEnforcementPlan)
      (archive : Option AuditWormArchiveReport)
  | returned (r : QidResult AuditRetentionExecutionReport)

/-- The plan is made and the archive not yet listed. -/
def Phase.archiving : Phase → Bool
  | .archive _ _ => true
  | _ => false

/-- How a call of the job ends, and the id and metadata of an event it records. -/
structure Env where
  fault : Option QidError
  persist : Persist
  id : String
  metadata : Value

section

variable (sha256 : AuditEvent → String) (backend : Backend)
  (policy : Option AuditRetentionConfig) (config : AuditRetentionExecutionConfig)

def jobEvent (env : Env) (action targetType targetId : String) : AuditEvent :=
  { id := env.id, realmId := config.realmId, actor := config.actor, action := action
    targetType := targetType, targetId := targetId, reason := config.reason
    metadataJson := env.metadata, createdAt := config.nowEpoch, previousHash := none
    eventHash := none }

/-- The next call of `run_audit_retention_execution_job`, with `run_audit_worm_archive_job` within
it. -/
def Phase.advance (events : List AuditEvent) (env : Env) : Phase → Option (Phase × List AuditEvent)
  | .returned _ => none
  | .verify =>
    match env.fault with
    | some e => some (.returned (.error e), events)
    | none =>
      (verifyAuditChain sha256 events.length (allAuditEvents backend events config.realmId)
        config.realmId).map fun v =>
          if v.valid then (.plan v, events)
          else (.returned (.ok { status := .skippedChainInvalid, chainVerification := v }), events)
  | .plan v =>
    match env.fault with
    | some e => some (.returned (.error e), events)
    | none =>
      match policy with
      | none =>
        some (.returned (.ok { status := .skippedNoPolicy, chainVerification := v }), events)
      | some policy =>
        let planned := planAuditRetentionEnforcement policy config.nowEpoch
          (allAuditEvents backend events config.realmId)
        some (if planned.legalHold then
            .returned (.ok { status := .skippedLegalHold, chainVerification := v
                             retentionPlan := some planned })
          else if planned.expiredEventIds = [] then
            .returned (.ok { status := .skippedNoExpiredEvents, chainVerification := v
                             retentionPlan := some planned })
          else if config.archiveRequired then .archive v planned
          else .record v planned none, events)
  | .archive v planned =>
    match env.fault with
    | some e => some (.returned (.error e), events)
    | none =>
      let body := listAuditEvents backend events config.realmId planned.checkedEvents
      some (if body.isEmpty then
          .returned (.ok { status := .skippedArchiveRequired, chainVerification := v
                           retentionPlan := some planned, archiveReport := some ⟨[], none⟩ })
        else .put v planned body, events)
  | .put v planned body =>
    match env.fault with
    | some e => some (.returned (.error e), events)
    | none => some (.recordArchive v planned body, events)
  | .recordArchive v planned body =>
    let r := backend.append sha256 env.persist events
      (jobEvent config env "audit_worm.archive" "audit_worm" "audit")
    match r.1 with
    | .error e => some (.returned (.error e), r.2)
    | .ok () => some (.record v planned (some ⟨body, some env.id⟩), r.2)
  | .record v planned archived =>
    let report : AuditRetentionExecutionReport :=
      { status := .ready, chainVerification := v, retentionPlan := some planned
        archiveReport := archived, purgeEventIds := planned.expiredEventIds }
    if config.recordAuditEvent then
      let r := backend.append sha256 env.persist events
        (jobEvent config env "audit_retention.ready" "audit_retention"
          (config.realmId.getD "__global__"))
      match r.1 with
      | .error e => some (.returned (.error e), r.2)
      | .ok () => some (.returned (.ok { report with auditEventId := some env.id }), r.2)
    else some (.returned (.ok report), events)

structure System where
  events : List AuditEvent
  phase : Phase

inductive Act where
  | append (persist : Persist) (event : AuditEvent)
  | advance (env : Env)

def step (s : System) : Act → Unit × System
  | .append persist event => ((), { s with
      events := (backend.append sha256 persist s.events event).2 })
  | .advance env =>
    match s.phase.advance sha256 backend policy config s.events env with
    | none => ((), s)
    | some (phase, events) => ((), { events := events, phase := phase })

/-- Between the plan and the archive no event of the realm is appended, and the SQL back end has
no more of them than it lists. -/
def Orderly (s : System) : Act → Prop
  | .append _ event => s.phase.archiving = true → inScope config.realmId event = false
  | .advance _ => s.phase.archiving = true → backend = .sql →
      (s.events.filter (inScope config.realmId)).length ≤ 1000

instance (s : System) : (act : Act) → Decidable (Orderly backend config s act)
  | .append _ _ => inferInstanceAs (Decidable (_ → _))
  | .advance _ => inferInstanceAs (Decidable (_ → _ → _))

end

def Covers (ids : List String) (events : List AuditEvent) : Prop :=
  ∀ id ∈ ids, ∃ e ∈ events, e.id = id

section

variable {sha256 : AuditEvent → String} {backend : Backend} {policy : Option AuditRetentionConfig}
  {config : AuditRetentionExecutionConfig} {events : List AuditEvent}
  {realm : Option String} {event : AuditEvent}

variable (config) in
/-- The report names an archive with every event to be purged. -/
def Archived (archive : Option AuditWormArchiveReport) (ids : List String) : Prop :=
  config.archiveRequired = true → ∃ report ∈ archive, Covers ids report.body

variable (config) in
def Sound (events : List AuditEvent) : Phase → Prop
  | .verify | .plan _ => True
  | .archive _ plan =>
    plan.checkedEvents = (events.filter (inScope config.realmId)).length ∧
      Covers plan.expiredEventIds (events.filter (inScope config.realmId))
  | .put _ plan body | .recordArchive _ plan body => Covers plan.expiredEventIds body
  | .record _ plan archive => Archived config archive plan.expiredEventIds
  | .returned r => ∀ report, r = .ok report → report.status = .ready →
      Archived config report.archiveReport report.purgeEventIds

theorem plan_spec (policy : AuditRetentionConfig) (now : Nat) (events : List AuditEvent) :
    (planAuditRetentionEnforcement policy now events).checkedEvents = events.length ∧
      Covers (planAuditRetentionEnforcement policy now events).expiredEventIds events := by
  rw [planAuditRetentionEnforcement]
  split
  · exact ⟨rfl, fun id hid => (by cases hid)⟩
  · refine ⟨?_, fun id hid => ?_⟩
    · dsimp only
      rw [Nat.add_comm]
      exact (List.length_eq_length_filter_add _).symm
    · obtain ⟨e, he, rfl⟩ := List.mem_map.mp hid
      exact ⟨e, List.mem_of_mem_filter he, rfl⟩

theorem filter_append (persist : Persist) (events : List AuditEvent)
    (h : inScope realm event = false) :
    (backend.append sha256 persist events event).2.filter (inScope realm) =
      events.filter (inScope realm) := by
  have hnew : ∀ previousHash,
      (events ++ [event.withChainHashes sha256 previousHash]).filter (inScope realm) =
        events.filter (inScope realm) := by
    intro previousHash
    have hlast : [event.withChainHashes sha256 previousHash].filter (inScope realm) = [] :=
      List.filter_cons_of_neg (Bool.not_eq_true _ ▸ h)
    rw [List.filter_append, hlast, List.append_nil]
  cases backend with
  | file =>
    simp only [Backend.append, appendAuditEvent]
    split
    · rfl
    · exact hnew _
  | sql =>
    simp only [Backend.append, sqlAppendAuditEvent]
    split
    · rfl
    · split
      · exact hnew _
      · rfl

variable {phase : Phase}

theorem Sound.append (h : Sound config events phase) (persist : Persist)
    (horderly : phase.archiving = true → inScope config.realmId event = false) :
    Sound config (backend.append sha256 persist events event).2 phase := by
  cases phase with
  | archive =>
    rw [Sound, filter_append persist events (horderly rfl)]
    exact h
  | _ => exact h

theorem sound_archive (policy : AuditRetentionConfig) (v : AuditChainVerification) :
    Sound config events (.archive v (planAuditRetentionEnforcement policy config.nowEpoch
      (allAuditEvents backend events config.realmId))) := by
  obtain ⟨hchecked, hcovers⟩ := plan_spec policy config.nowEpoch
    (allAuditEvents backend events config.realmId)
  have hperm : (allAuditEvents backend events config.realmId).Perm
      (events.filter (inScope config.realmId)) := by
    cases backend with
    | file => exact List.Perm.refl _
    | sql => exact List.perm_insertionSort _ _
  refine ⟨hchecked.trans hperm.length_eq, fun id hid => ?_⟩
  obtain ⟨e, he, hide⟩ := hcovers id hid
  exact ⟨e, hperm.mem_iff.mp he, hide⟩

/-- A list as long as the plan has counted leaves nothing out. -/
theorem Sound.covers {v : AuditChainVerification} {plan : AuditRetentionEnforcementPlan}
    (h : Sound config events (.archive v plan))
    (hsql : backend = .sql → (events.filter (inScope config.realmId)).length ≤ 1000) :
    Covers plan.expiredEventIds
      (listAuditEvents backend events config.realmId plan.checkedEvents) := by
  intro id hid
  obtain ⟨e, he, hide⟩ := h.2 id hid
  have hlength := List.length_insertionSort (newestFirst · ·)
    (events.filter (inScope config.realmId))
  have hcount := h.1
  refine ⟨e, ?_, hide⟩
  cases backend <;> rw [listAuditEvents, List.take_of_length_le (by grind)] <;>
    exact (List.mem_insertionSort (newestFirst · ·)).mpr he

theorem Sound.advance (h : Sound config events phase) {env : Env}
    (horderly : phase.archiving = true → backend = .sql →
      (events.filter (inScope config.realmId)).length ≤ 1000) {next : Phase × List AuditEvent}
    (hadvance : phase.advance sha256 backend policy config events env = some next) :
    Sound config next.2 next.1 := by
  have hfault : ∀ events e, Sound config events (.returned (.error e)) :=
    fun _ _ _ hr => by cases hr
  have hskipped : ∀ events report, report.status ≠ .ready →
      Sound config events (.returned (.ok report)) := by
    intro events report hstatus report' hr hready
    cases hr
    exact absurd hready hstatus
  cases phase with
  | returned => cases hadvance
  | verify =>
    rw [Phase.advance] at hadvance
    split at hadvance
    · cases hadvance
      exact hfault _ _
    · obtain ⟨v, -, rfl⟩ := Option.map_eq_some_iff.mp hadvance
      split
      · exact trivial
      · exact hskipped _ _ nofun
  | plan v =>
    rw [Phase.advance.eq_def] at hadvance
    dsimp only at hadvance
    split at hadvance
    · cases hadvance
      exact hfault _ _
    · split at hadvance
      · cases hadvance
        exact hskipped _ _ nofun
      · rename_i policy
        cases hadvance
        split
        · exact hskipped _ _ nofun
        · split
          · exact hskipped _ _ nofun
          · split
            · exact sound_archive policy v
            · rename_i hrequired
              exact fun h => absurd h hrequired
  | archive =>
    rw [Phase.advance] at hadvance
    split at hadvance
    · cases hadvance
      exact hfault _ _
    · cases hadvance
      split
      · exact hskipped _ _ nofun
      · exact h.covers (horderly rfl)
  | put =>
    rw [Phase.advance] at hadvance
    split at hadvance
    · cases hadvance
      exact hfault _ _
    · cases hadvance
      exact h
  | recordArchive =>
    rw [Phase.advance] at hadvance
    split at hadvance
    · cases hadvance
      exact hfault _ _
    · cases hadvance
      exact fun _ => ⟨_, rfl, h⟩
  | record =>
    rw [Phase.advance] at hadvance
    dsimp only at hadvance
    split at hadvance
    · split at hadvance
      · cases hadvance
        exact hfault _ _
      · cases hadvance
        intro report hr _
        cases hr
        exact h
    · cases hadvance
      intro report hr _
      cases hr
      exact h

end

variable {sha256 : AuditEvent → String} {backend : Backend}
  {policy : Option AuditRetentionConfig} {config : AuditRetentionExecutionConfig}

/-- Nothing is released for purging without being archived: in every run in which no event of the
realm is appended between the plan and the archive, and the SQL back end then has no more than 1000
of them, a report that is ready names only ids of events in the body of the archive, if one is
required. -/
theorem purged_events_archived (events : List AuditEvent) (acts : List Act)
    (horderly : ∀ e ∈ run (step sha256 backend policy config) ⟨events, .verify⟩ acts,
      Orderly backend config e.before e.call)
    (report : AuditRetentionExecutionReport)
    (hreturned : (final (step sha256 backend policy config) ⟨events, .verify⟩ acts).phase =
      .returned (.ok report))
    (hready : report.status = .ready) (hrequired : config.archiveRequired = true) :
    ∃ archive ∈ report.archiveReport, ∀ id ∈ report.purgeEventIds,
      ∃ e ∈ archive.body, e.id = id := by
  have hsound := (run_invariant (step sha256 backend policy config)
    (I := fun s => Sound config s.events s.phase) (fun s act h hG => by
      cases act with
      | append => exact h.append _ hG
      | advance =>
        rw [step]
        split
        · exact h
        · rename_i hadvance
          exact h.advance hG hadvance)
    (by trivial) horderly).2
  rw [hreturned] at hsound
  exact hsound report rfl hready hrequired

def sampleConfig : AuditRetentionExecutionConfig :=
  { realmId := some "r", nowEpoch := 200000, archiveRequired := true, actor := "worker"
    reason := "", recordAuditEvent := false }

def samplePolicy : AuditRetentionConfig := ⟨some "r", 1, false⟩

def oldLog : List AuditEvent := history (·.id) [(.done, sampleEvent "a")]

def sampleEnv : Env := { fault := none, persist := .done, id := "archive", metadata := .null }

def newEvent : AuditEvent := { sampleEvent "b" with createdAt := 200000 }

def displacingActs : List Act :=
  [.advance sampleEnv, .advance sampleEnv, .append .done newEvent, .advance sampleEnv,
    .advance sampleEnv, .advance sampleEnv, .advance sampleEnv]

def orderlyActs : List Act :=
  [.append .done newEvent, .advance sampleEnv, .advance sampleEnv, .advance sampleEnv,
    .advance sampleEnv, .advance sampleEnv, .advance sampleEnv]

/-- The ids to be purged and the ids in the archive. -/
def Phase.released : Phase → Option (List String × List String)
  | .returned (.ok report) =>
    if report.status = .ready then
      report.archiveReport.map fun archive => (report.purgeEventIds, archive.body.map (·.id))
    else none
  | _ => none

/-- An event appended between the plan and the archive takes the place of the old one in the
archive, and the old one is released. -/
theorem released_event_not_archived :
    (final (step (·.id) .file (some samplePolicy) sampleConfig) ⟨oldLog, .verify⟩
      displacingActs).phase.released = some (["a"], ["b"]) ∧
    (final (step (·.id) .sql (some samplePolicy) sampleConfig) ⟨oldLog, .verify⟩
      displacingActs).phase.released = some (["a"], ["b"]) := by
  decide +kernel

theorem purged_events_archived_sample :
    ∃ report, (final (step (·.id) .sql (some samplePolicy) sampleConfig) ⟨oldLog, .verify⟩
      orderlyActs).phase = .returned (.ok report) ∧ report.purgeEventIds = ["a"] ∧
      ∃ archive ∈ report.archiveReport, ∃ e ∈ archive.body, e.id = "a" := by
  have horderly : ∀ e ∈ run (step (·.id) .sql (some samplePolicy) sampleConfig)
      ⟨oldLog, .verify⟩ orderlyActs, Orderly .sql sampleConfig e.before e.call := by
    decide +kernel
  obtain ⟨archive, harchive, hcovers⟩ :=
    purged_events_archived oldLog orderlyActs horderly _ rfl rfl rfl
  exact ⟨_, rfl, rfl, archive, harchive, hcovers "a" List.mem_cons_self⟩

end Qid.Audit
