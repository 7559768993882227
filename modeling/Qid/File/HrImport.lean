/-
Imports are ordered, applied once and applied whole.
-/
import Qid.File.Directory
import Qid.File.Hr

namespace Qid.File

open Lib Storage Scim

/-! ## What a checked batch guarantees -/

variable {batch : HrBatch} {changes : List HrUserChange}

section

variable {users : List ScimUser} {seen seen' : HrSeen} {change : HrUserChange}

/-- It is of the realm, and it creates a user with a new id, or replaces the one user that has its
external id and is as expected. -/
structure HrChecked (batch : HrBatch) (users : List ScimUser) (change : HrUserChange) : Prop where
  realm : change.user.realmId = batch.realmId
  created : change.expected = none → ∀ u ∈ users, u.id ≠ change.user.id
  replaced : ∀ e, change.expected = some e → ∃ u ∈ users, u.realmId = batch.realmId ∧
    sameJson u e = true ∧ e.id = change.user.id ∧
    e.directoryProviderId = change.user.directoryProviderId

theorem of_hrTargetMatches (h : hrTargetMatches batch users change = true)
    (hrealm : change.user.realmId = batch.realmId) : HrChecked batch users change := by
  rw [hrTargetMatches] at h
  cases hexpected : change.expected with
  | none =>
    simp only [hexpected, Bool.and_eq_true, Bool.not_eq_true', List.any_eq_false, beq_iff_eq] at h
    exact ⟨hrealm, fun _ u hu => h.2 u hu, fun e he => by rw [hexpected] at he; cases he⟩
  | some =>
    rw [hexpected] at h
    dsimp only at h
    split at h
    · rename_i target htargets
      rw [Bool.and_eq_true, Bool.and_eq_true, beq_iff_eq, beq_iff_eq] at h
      have hmem : target ∈ hrTargets batch users change.user.externalId := by
        rw [htargets]
        exact List.mem_cons_self
      rw [hrTargets, List.mem_filter, Bool.and_eq_true, beq_iff_eq] at hmem
      refine ⟨hrealm, fun hnone => (by rw [hexpected] at hnone; cases hnone), fun e he => ?_⟩
      rw [hexpected] at he
      cases he
      exact ⟨target, hmem.1, hmem.2.1, h.1.1, h.1.2, h.2⟩
    · cases h

theorem of_validateHrChange (h : validateHrChange batch users seen change = .ok seen') :
    HrChecked batch users change ∧ change.user.id ∉ seen.ids ∧
      (∀ i ∈ seen.names.lookup change.user.userName, i = change.user.id) ∧
      seen' = seen.add change.user := by
  obtain ⟨hnew, h⟩ := guard_eq_ok.mp h
  obtain ⟨hok, h⟩ := guard_eq_ok.mp h
  cases h
  rw [not_or, not_or, not_not] at hnew
  rw [not_or, Bool.not_eq_true, Bool.not_eq_false'] at hok
  refine ⟨of_hrTargetMatches hok.1 hnew.1, hnew.2.2, fun i hi => ?_, rfl⟩
  by_contra hne
  exact hok.2 (Option.any_eq_true _ _ |>.mpr ⟨i, hi, decide_eq_true hne⟩)

/-- What the whole loop establishes, from what it had seen. -/
structure HrPlanned (batch : HrBatch) (users : List ScimUser) (seen : HrSeen)
    (changes : List HrUserChange) (names : HashMap String) : Prop where
  checked : ∀ c ∈ changes, HrChecked batch users c
  nodup : (changes.map (·.user.id)).Nodup
  new : ∀ c ∈ changes, c.user.id ∉ seen.ids
  /-- A name stays with the user that has it. -/
  kept : ∀ name id, seen.names.lookup name = some id → names.lookup name = some id
  named : ∀ c ∈ changes, names.lookup c.user.userName = some c.user.id

theorem of_validateHrChanges_loop
    (h : changes.foldlM (validateHrChange batch users) seen = .ok seen') :
    HrPlanned batch users seen changes seen'.names := by
  induction changes generalizing seen with
  | nil =>
    cases h
    exact ⟨List.forall_mem_nil _, List.nodup_nil, List.forall_mem_nil _, fun _ _ hn => hn,
      List.forall_mem_nil _⟩
  | cons c changes ih =>
    rw [List.foldlM_cons, bind_eq_ok] at h
    obtain ⟨next, hc, hrest⟩ := h
    obtain ⟨hchecked, hnew, hname, rfl⟩ := of_validateHrChange hc
    have hplan := ih hrest
    have hself : seen'.names.lookup c.user.userName = some c.user.id :=
      hplan.kept _ _ (AList.lookup_insert _)
    obtain ⟨hnodup, hfresh⟩ := (nodup_cons_new (a := c)).mpr ⟨hnew, hplan.nodup, hplan.new⟩
    refine ⟨List.forall_mem_cons.mpr ⟨hchecked, hplan.checked⟩, hnodup, hfresh,
      fun name id hn => hplan.kept name id ?_, List.forall_mem_cons.mpr ⟨hself, hplan.named⟩⟩
    show (seen.names.insert c.user.userName c.user.id).lookup name = some id
    by_cases heq : name = c.user.userName
    · subst heq
      rw [AList.lookup_insert, hname id hn]
    · rw [AList.lookup_insert_ne heq, hn]

end

/-! ## What a batch does to the users -/

variable {s : Store}

section

variable {u : ScimUser}

theorem Store.applyHr_scimUsers (s : Store) (batch : HrBatch) (changes : List HrUserChange) :
    (s.applyHr batch changes).scimUsers = s.scimUsers.putAll (changes.map (·.user)) := by
  rw [Table.putAll, List.foldl_map]
  rfl

theorem Store.hrReceipt_applyHr (s : Store) (batch : HrBatch) (changes : List HrUserChange)
    (realm provider : String) :
    (s.applyHr batch changes).hrReceipt realm provider =
      if batch.realmId = realm ∧ batch.providerId = provider then some batch.receipt
      else s.hrReceipt realm provider := by
  rw [Store.hrReceipt, Store.applyHr, KeyMap.lookup_insert_eq]
  by_cases hrealm : realm = batch.realmId
  · subst hrealm
    rw [if_pos rfl, Option.bind_some, KeyMap.lookup_insert_eq]
    by_cases hprovider : provider = batch.providerId
    · rw [if_pos hprovider, if_pos ⟨rfl, hprovider.symm⟩]
    · rw [if_neg hprovider, if_neg fun h => hprovider h.2.symm, Store.hrReceipt]
      cases s.hrReceipts.lookup batch.realmId with
      | none => exact AList.lookup_empty provider
      | some => rfl
  · rw [if_neg hrealm, if_neg fun h => hrealm h.1.symm, Store.hrReceipt]

theorem of_sameJson {e : ScimUser} (h : sameJson u e = true) :
    u.id = e.id ∧ u.directoryProviderId = e.directoryProviderId := by
  simp only [sameJson, Bool.and_eq_true, beq_iff_eq] at h
  exact ⟨h.1.1.1.1.1.1.1.1.1, h.1.1.2⟩

structure HrApplied (batch : HrBatch) (changes : List HrUserChange)
    (users users' : Table ScimUser (·.id)) : Prop where
  whole : ∀ c ∈ changes, users'.find c.user.id = some c.user
  /-- A user stays as it was, or is the user of the realm that a change expected. -/
  stored : ∀ id u, users.find id = some u → ∃ u', users'.find id = some u' ∧
    u'.realmId = u.realmId ∧ u'.directoryProviderId = u.directoryProviderId ∧
    (u' = u ∨ u.realmId = batch.realmId ∧ ∃ c ∈ changes, ∃ e, c.user = u' ∧
      c.expected = some e ∧ sameJson u e = true)
  /-- A new user is of the realm, and a change expected none. -/
  created : ∀ id u', users'.find id = some u' → users.find id = none →
    u'.realmId = batch.realmId ∧ ∃ c ∈ changes, c.user = u' ∧ c.expected = none

theorem of_validateHrChanges {users : List ScimUser}
    (h : validateHrChanges batch users = .ok changes) :
    batch.changes = some changes ∧ ∃ names, HrPlanned batch users
      { externalIds := [], ids := [], names := hrNames batch users } changes names := by
  rw [validateHrChanges] at h
  split at h
  · cases h
  · rename_i cs hcs
    rw [bind_eq_ok] at h
    obtain ⟨seen, hloop, hret⟩ := h
    cases hret
    exact ⟨hcs, seen.names, of_validateHrChanges_loop hloop⟩

/-- A checked change expects no user, and none is stored, or it expects the stored one. -/
theorem HrChecked.cases {change : HrUserChange} (h : HrChecked batch s.scimUsers.values change) :
    change.expected = none ∧ s.scimUsers.find change.user.id = none ∨
      ∃ e u, change.expected = some e ∧ s.scimUsers.find change.user.id = some u ∧
        u.realmId = batch.realmId ∧ sameJson u e = true ∧
        u.directoryProviderId = change.user.directoryProviderId := by
  cases hexpected : change.expected with
  | none =>
    refine Or.inl ⟨rfl, Option.eq_none_iff_forall_ne_some.mpr fun u hu => ?_⟩
    exact h.created hexpected u (Table.mem_values.mpr (Table.find_key hu)) (Table.key_of_find hu)
  | some e =>
    obtain ⟨u, hu, hrealm, hjson, heid, hprovider⟩ := h.replaced e hexpected
    have hfound : s.scimUsers.find u.id = some u := Table.mem_values.mp hu
    rw [(of_sameJson hjson).1, heid] at hfound
    exact Or.inr ⟨e, u, rfl, hfound, hrealm, hjson, (of_sameJson hjson).2.trans hprovider⟩

theorem hrApplied_applyHr (h : validateHrChanges batch s.scimUsers.values = .ok changes) :
    HrApplied batch changes s.scimUsers (s.applyHr batch changes).scimUsers := by
  obtain ⟨-, names, hplan⟩ := of_validateHrChanges h
  have hkeys : ((changes.map (·.user)).map (·.id)).Nodup := by
    rw [List.map_map]
    exact hplan.nodup
  rw [Store.applyHr_scimUsers]
  have hwhole : ∀ c ∈ changes,
      (s.scimUsers.putAll (changes.map (·.user))).find c.user.id = some c.user :=
    fun c hc => Table.find_putAll_of_mem hkeys (List.mem_map_of_mem hc) s.scimUsers
  refine ⟨hwhole, fun id u hu => ?_, fun id u' hu' hnone => ?_⟩
  · by_cases hex : id ∈ (changes.map (·.user)).map (·.id)
    · obtain ⟨_, hmem, rfl⟩ := List.mem_map.mp hex
      obtain ⟨c, hc, rfl⟩ := List.mem_map.mp hmem
      rcases (hplan.checked c hc).cases with ⟨-, hnone⟩ | ⟨e, u', he, hu', hrealm, hjson, hprovider⟩
      · rw [hnone] at hu
        cases hu
      · rw [hu'] at hu
        cases hu
        exact ⟨c.user, hwhole c hc, (hplan.checked c hc).realm.trans hrealm.symm, hprovider.symm,
          Or.inr ⟨hrealm, c, hc, e, rfl, he, hjson⟩⟩
    · exact ⟨u, (Table.find_putAll_of_notMem hex _).trans hu, rfl, rfl, Or.inl rfl⟩
  · have hid := Table.key_of_find hu'
    rcases Table.of_find_putAll hkeys (Table.find_key hu') with hmem | ⟨-, hold⟩
    · obtain ⟨c, hc, rfl⟩ := List.mem_map.mp hmem
      rcases (hplan.checked c hc).cases with ⟨he, -⟩ | ⟨e, u, -, hu, -⟩
      · exact ⟨(hplan.checked c hc).realm, c, hc, rfl, he⟩
      · rw [hid, hnone] at hu
        cases hu
    · rw [hid, hnone] at hold
      cases hold

/-- The index of names has every user of the realm, as names are unique. -/
theorem lookup_hrNames (hd : s.scimUsers.Distinct scimUserIdentity.identity)
    (hu : s.scimUsers.find u.id = some u) (hrealm : u.realmId = batch.realmId) :
    (hrNames batch s.scimUsers.values).lookup u.userName = some u.id := by
  refine HashMap.lookup_foldl_insert (List.mem_filter.mpr ⟨Table.mem_values.mpr hu, ?_⟩)
    (fun w hw hname => ?_) ∅
  · rw [hrealm, beq_self_eq_true]
  · rw [List.mem_filter, beq_iff_eq] at hw
    have hwu : w = u := hd w u (Table.mem_values.mp hw.1) hu (batch.realmId, u.userName)
      (scimUserIdentity_eq_some.mpr ⟨hw.2, hname⟩) (scimUserIdentity_eq_some.mpr ⟨hrealm, rfl⟩)
    rw [hwu]

/-- A batch keeps the names apart, also where its changes rename each other. -/
theorem distinct_applyHr (hd : s.scimUsers.Distinct scimUserIdentity.identity)
    (h : validateHrChanges batch s.scimUsers.values = .ok changes) :
    (s.applyHr batch changes).scimUsers.Distinct scimUserIdentity.identity := by
  obtain ⟨-, names, hplan⟩ := of_validateHrChanges h
  rw [Store.applyHr_scimUsers]
  refine hd.putAll ?_ ?_ ?_
  · rw [List.map_map]
    exact hplan.nodup
  · intro v hv w hw i hi hi'
    obtain ⟨c, hc, rfl⟩ := List.mem_map.mp hv
    obtain ⟨d, hd, rfl⟩ := List.mem_map.mp hw
    rw [scimUserIdentity_eq_some] at hi hi'
    have hname : c.user.userName = d.user.userName := hi.2.trans hi'.2.symm
    have hid : c.user.id = d.user.id := by
      have hc' := hplan.named c hc
      rw [hname, hplan.named d hd] at hc'
      exact (Option.some.inj hc').symm
    rw [List.inj_on_of_nodup_map hplan.nodup hc hd hid]
  · intro v hv w hw hnot i hi hi'
    obtain ⟨c, hc, rfl⟩ := List.mem_map.mp hv
    rw [scimUserIdentity_eq_some] at hi hi'
    have hrealm : w.realmId = batch.realmId :=
      hi'.1.trans (hi.1.symm.trans (hplan.checked c hc).realm)
    have hkept := hplan.kept _ _ (lookup_hrNames hd hw hrealm)
    rw [hi'.2, ← hi.2, hplan.named c hc] at hkept
    exact hnot (List.mem_map.mpr ⟨c.user, List.mem_map_of_mem hc, Option.some.inj hkept⟩)

end

section

variable {persist : Persist} {synced : Bool} {incoming : HrReceipt}

theorem hrWritten_eq_ok : hrWritten persist = .ok () ↔ persist.result = .ok () := by
  cases persist with
  | done => exact Iff.rfl
  | unserializable => exact ⟨fun h => (by cases h), fun h => (by cases h)⟩
  | failed => exact Iff.rfl

/-- A batch is new when it carries the next number. -/
theorem of_hrOrder_eq_none {current : Option HrReceipt} (h : hrOrder current incoming = .ok none) :
    validSequence incoming.sequence = true ∧
      incoming.sequence = current.elim 0 (·.sequence) + 1 := by
  obtain ⟨hvalid, h⟩ := guard_eq_ok.mp h
  rw [Bool.not_eq_true, Bool.not_eq_false'] at hvalid
  refine ⟨hvalid, ?_⟩
  cases current with
  | none => exact not_not.mp (guard_eq_ok.mp h).1
  | some receipt =>
    obtain ⟨-, h⟩ := guard_eq_ok.mp h
    split at h
    · cases h
    · exact (not_not.mp (guard_eq_ok.mp h).1).symm

inductive Committed (persist : Persist) (synced : Bool) (s : Store) (batch : HrBatch) :
    QidResult HrBatchResult × Option Store → Prop
  | refused (e : QidError) : Committed persist synced s batch (.error e, none)
  | replayed (result : HrBatchResult)
      (horder : hrOrder (s.hrReceipt batch.realmId batch.providerId) batch.receipt =
        .ok (some result)) :
      Committed persist synced s batch ((syncHrDirectory synced).map fun _ => result, none)
  | applied (changes : List HrUserChange)
      (horder : hrOrder (s.hrReceipt batch.realmId batch.providerId) batch.receipt = .ok none)
      (hvalid : validateHrChanges batch s.scimUsers.values = .ok changes)
      (hwritten : persist.result = .ok ()) :
      Committed persist synced s batch
        ((syncHrDirectory synced).map fun _ =>
          { summary := batch.receipt.summary, sequence := batch.receipt.sequence
            replayed := false }, some (s.applyHr batch changes))

theorem committed (persist : Persist) (synced : Bool) (s : Store) (batch : HrBatch) :
    Committed persist synced s batch (commitHrInner persist synced s batch) := by
  rw [commitHrInner]
  split
  · exact Committed.refused _
  · rename_i result horder
    exact Committed.replayed result horder
  · rename_i horder
    split
    · exact Committed.refused _
    · rename_i changes hvalid
      split
      · exact Committed.refused _
      · rename_i hwritten
        exact Committed.applied changes horder hvalid (hrWritten_eq_ok.mp hwritten)

end

namespace Hr

structure Repository where
  store : Store
  file : Option Store

/-- Another write changes the store only; the file is written by the save that follows it, or by a
flush, and other calls may come first. -/
inductive Call where
  | applyHrBatch (persist : Persist) (synced : Bool) (batch : HrBatch)
  | createScimUser (user : ScimUser)
  | mutateScimUser (id : String) (mutation : ScimUser → QidResult (ScimMutation ScimUser))
  | createScimGroup (group : ScimGroup)
  | mutateScimGroup (id : String) (mutation : ScimGroup → QidResult (ScimMutation ScimGroup))
  | save (persist : Persist)

def step (r : Repository) : Call → Option (QidResult HrBatchResult) × Repository
  | .applyHrBatch persist synced batch =>
    let c := commitHrInner persist synced r.store batch
    (some c.1, c.2.elim r fun store => { store := store, file := some store })
  | .createScimUser user => (none, { r with store := (createScimUser .done r.store user).2 })
  | .mutateScimUser id mutation =>
    (none, { r with store := (mutateScimUser .done r.store id mutation).2 })
  | .createScimGroup group => (none, { r with store := (createScimGroup .done r.store group).2 })
  | .mutateScimGroup id mutation =>
    (none, { r with store := (mutateScimGroup .done r.store id mutation).2 })
  | .save persist => (none, if persist.result = .ok () then { r with file := some r.store } else r)

def Call.publishes (r : Repository) : Call → Option HrBatch
  | .applyHrBatch persist synced batch =>
    if (commitHrInner persist synced r.store batch).2.isSome then some batch else none
  | _ => none

def isFor (realm provider : String) (b : HrBatch) : Bool :=
  b.realmId == realm && b.providerId == provider

abbrev Step : Type := Event Repository Call (Option (QidResult HrBatchResult))

def published (e : Step) : Option HrBatch := e.call.publishes e.before

def applied (realm provider : String) (events : List Step) : List HrBatch :=
  (events.filterMap published).filter (isFor realm provider)

variable {r : Repository}

section

variable (realm provider : String)

theorem isFor_iff {realm provider : String} :
    isFor realm provider batch = true ↔ batch.realmId = realm ∧ batch.providerId = provider := by
  rw [isFor, Bool.and_eq_true, beq_iff_eq, beq_iff_eq]

/-- Another write keeps the receipts, and keeps names apart. -/
structure Kept (s s' : Store) : Prop where
  receipts : s'.hrReceipts = s.hrReceipts
  names : s.scimUsers.Distinct scimUserIdentity.identity →
    s'.scimUsers.Distinct scimUserIdentity.identity

theorem Kept.refl (s : Store) : Kept s s := ⟨rfl, id⟩

/-- What a call may do to the repository. -/
inductive Stepped (r : Repository) : Call → Option (QidResult HrBatchResult) × Repository → Prop
  | other (k : Call) (r' : Repository) (hnone : k.publishes r = none)
      (hother : ∀ persist synced batch, k ≠ .applyHrBatch persist synced batch)
      (hkept : Kept r.store r'.store) : Stepped r k (none, r')
  | unchanged (persist : Persist) (synced : Bool) (batch : HrBatch)
      (result : QidResult HrBatchResult)
      (hcommit : commitHrInner persist synced r.store batch = (result, none)) :
      Stepped r (.applyHrBatch persist synced batch) (some result, r)
  | applied (persist : Persist) (synced : Bool) (batch : HrBatch)
      (changes : List HrUserChange) (result : QidResult HrBatchResult)
      (hcommit : commitHrInner persist synced r.store batch =
        (result, some (r.store.applyHr batch changes)))
      (horder : hrOrder (r.store.hrReceipt batch.realmId batch.providerId) batch.receipt = .ok none)
      (hvalid : validateHrChanges batch r.store.scimUsers.values = .ok changes)
      (hwritten : persist.result = .ok ())
      (hresult : ∀ m, result ≠ .error (.conflict m)) :
      Stepped r (.applyHrBatch persist synced batch)
        (some result, { store := r.store.applyHr batch changes
                        file := some (r.store.applyHr batch changes) })

theorem stepped (r : Repository) (k : Call) : Stepped r k (step r k) := by
  cases k with
  | applyHrBatch persist synced batch =>
    have h := committed persist synced r.store batch
    rw [step]
    generalize hcommit : commitHrInner persist synced r.store batch = c at h ⊢
    cases h with
    | refused e | replayed result horder => exact Stepped.unchanged persist synced batch _ hcommit
    | applied changes horder hvalid hwritten =>
      exact Stepped.applied persist synced batch changes _ hcommit horder hvalid hwritten
        fun m => by cases synced <;> exact fun h => by cases h
  | createScimUser user =>
    refine Stepped.other _ _ rfl (by simp) ?_
    rw [createScimUser]
    split
    · exact Kept.refl _
    · rename_i users h
      exact ⟨rfl, fun hd => distinct_insertNew hd h⟩
  | mutateScimUser id mutation =>
    refine Stepped.other _ _ rfl (by simp) ?_
    rw [mutateScimUser]
    split
    · exact Kept.refl _
    · exact Kept.refl _
    · rename_i user users h
      exact ⟨rfl, fun hd => distinct_mutateResource hd h⟩
  | createScimGroup group =>
    refine Stepped.other _ _ rfl (by simp) ?_
    rw [createScimGroup]
    split <;> exact ⟨rfl, id⟩
  | mutateScimGroup id mutation =>
    refine Stepped.other _ _ rfl (by simp) ?_
    rw [mutateScimGroup]
    split <;> exact ⟨rfl, fun hd => hd⟩
  | save =>
    refine Stepped.other _ _ rfl (by simp) ?_
    split <;> exact Kept.refl r.store

theorem publishes_of_commit {persist : Persist} {synced : Bool}
    {result : QidResult HrBatchResult} {published : Option Store}
    (h : commitHrInner persist synced r.store batch = (result, published)) :
    (Call.applyHrBatch persist synced batch).publishes r =
      if published.isSome then some batch else none := by
  rw [Call.publishes, h]

/-- No two users of a realm share a name. -/
def Named (r : Repository) : Prop := r.store.scimUsers.Distinct scimUserIdentity.identity

theorem names_step (hd : Named r) (k : Call) : Named (step r k).2 := by
  have h := stepped r k
  generalize step r k = next at h ⊢
  cases h with
  | other k r' hnone hother hkept => exact hkept.names hd
  | unchanged => exact hd
  | applied persist synced batch changes result hcommit horder hvalid =>
    exact distinct_applyHr hd hvalid

theorem hrReceipt_step (r : Repository) (k : Call) :
    (step r k).2.store.hrReceipt realm provider =
      ((k.publishes r).filter (isFor realm provider)).elim
        (r.store.hrReceipt realm provider) fun b => some b.receipt := by
  have h := stepped r k
  generalize step r k = next at h ⊢
  cases h with
  | other k r' hnone hother hkept =>
    rw [hnone, Store.hrReceipt, hkept.receipts]
    rfl
  | unchanged persist synced batch result hcommit =>
    rw [publishes_of_commit hcommit]
    rfl
  | applied persist synced batch changes result hcommit =>
    rw [publishes_of_commit hcommit, Store.hrReceipt_applyHr, Option.isSome_some, if_pos rfl]
    by_cases hfor : isFor realm provider batch = true
    · rw [Option.filter_some_pos hfor, if_pos (isFor_iff.mp hfor)]
      rfl
    · rw [if_neg fun h => hfor (isFor_iff.mpr h),
        Option.filter_some_neg (Bool.not_eq_true _ ▸ hfor)]
      rfl

theorem sequence_of_publishes {k : Call} (h : k.publishes r = some batch) :
    validSequence batch.receipt.sequence = true ∧ batch.receipt.sequence =
      (r.store.hrReceipt batch.realmId batch.providerId).elim 0 (·.sequence) + 1 := by
  have hs := stepped r k
  generalize step r k = next at hs
  cases hs with
  | other k r' hnone =>
    rw [hnone] at h
    cases h
  | unchanged persist synced batch' result hcommit =>
    rw [publishes_of_commit hcommit] at h
    cases h
  | applied persist synced batch' changes result hcommit horder =>
    rw [publishes_of_commit hcommit] at h
    cases h
    exact of_hrOrder_eq_none horder

end

/-! ## The order of the imports -/

section

variable {realm provider : String} {events : List Step}

theorem applied_append (e : Step) :
    applied realm provider (events ++ [e]) = applied realm provider events ++
      ((published e).filter (isFor realm provider)).toList := by
  rw [applied, List.filterMap_append, List.filter_append]
  congr 1
  cases hpub : published e with
  | none =>
    rw [List.filterMap_cons_none hpub]
    rfl
  | some b =>
    rw [List.filterMap_cons_some hpub, List.filterMap_nil]
    by_cases hfor : isFor realm provider b = true
    · rw [List.filter_singleton, Option.filter_some_pos hfor, hfor]
      rfl
    · rw [Bool.not_eq_true] at hfor
      rw [List.filter_singleton, Option.filter_some_neg hfor, hfor]
      rfl

/-- The batches applied so far carry the numbers from one on, and the last of them left its
receipt. -/
structure Ordered (realm provider : String) (events : List Step) (r : Repository) : Prop where
  numbered : (applied realm provider events).map (·.receipt.sequence) =
    List.range' 1 (applied realm provider events).length
  valid : ∀ b ∈ applied realm provider events, validSequence b.receipt.sequence = true
  latest : r.store.hrReceipt realm provider =
    (applied realm provider events).getLast?.map (·.receipt)

theorem Ordered.sequence (h : Ordered realm provider events r) :
    (r.store.hrReceipt realm provider).elim 0 (·.sequence) =
      (applied realm provider events).length := by
  have hlast := congrArg List.getLast? h.numbered
  rw [List.getLast?_map, List.getLast?_range'] at hlast
  rw [h.latest]
  cases hcase : (applied realm provider events).getLast? with
  | none =>
    rw [List.getLast?_eq_none_iff.mp hcase]
    rfl
  | some b =>
    rw [hcase] at hlast
    split at hlast
    · cases hlast
    · have hb : b.receipt.sequence = 1 + (applied realm provider events).length - 1 :=
        Option.some.inj hlast
      show b.receipt.sequence = _
      omega

theorem Ordered.step (h : Ordered realm provider events r) (k : Call) :
    Ordered realm provider (events ++ [eventOf step r k]) (step r k).2 := by
  have happend : applied realm provider (events ++ [eventOf Hr.step r k]) =
      applied realm provider events ++ ((k.publishes r).filter (isFor realm provider)).toList :=
    applied_append _
  have hreceipt := hrReceipt_step realm provider r k
  cases hpub : (k.publishes r).filter (isFor realm provider) with
  | none =>
    rw [hpub, Option.toList_none, List.append_nil] at happend
    rw [hpub] at hreceipt
    exact ⟨happend ▸ h.numbered, happend ▸ h.valid, by rw [happend, hreceipt]; exact h.latest⟩
  | some =>
    rw [hpub, Option.toList_some] at happend
    rw [hpub] at hreceipt
    rw [Option.filter_eq_some_iff, isFor_iff] at hpub
    obtain ⟨hvalid, hsequence⟩ := sequence_of_publishes hpub.1
    rw [hpub.2.1, hpub.2.2, h.sequence] at hsequence
    refine ⟨?_, fun c hc => ?_, ?_⟩
    · rw [happend, List.map_append, h.numbered, List.length_append, List.map_singleton,
        List.length_singleton, List.range'_concat, hsequence, Nat.one_mul, Nat.add_comm 1]
    · rw [happend, List.mem_append, List.mem_singleton] at hc
      rcases hc with hc | rfl
      · exact h.valid c hc
      · exact hvalid
    · rw [happend, hreceipt, List.getLast?_append]
      rfl

theorem ordered_run (hnew : r.store.hrReceipt realm provider = none) (calls : List Call) :
    Ordered realm provider (run step r calls) (final step r calls) := by
  have hstart : Ordered realm provider [] r := ⟨rfl, List.forall_mem_nil _, hnew⟩
  exact run_history step (fun _ _ k h => h.step k) hstart calls

end

/-- Imports are ordered, applied once and applied whole. From a store without a receipt of the
provider and in every run, the batches that are applied carry the numbers 1, 2, 3 and so on, and the
stored receipt is that of the last. The latest batch, sent again, is answered from the receipt and
changes nothing, and neither does a batch that conflicts or whose write fails, in memory or in the
file. A batch that is applied is written whole, replaces only users that are as it expected, and
keeps owners, other realms' users and the uniqueness of names. -/
theorem hr_imports_ordered_once_whole (realm provider : String) (r : Repository)
    (hnew : r.store.hrReceipt realm provider = none)
    (hnames : Named r) (calls : List Call) :
    (applied realm provider (run step r calls)).map (·.receipt.sequence) =
      List.range' 1 (applied realm provider (run step r calls)).length ∧
    ((applied realm provider (run step r calls)).map (·.receipt.sequence)).Nodup ∧
    (final step r calls).store.hrReceipt realm provider =
      (applied realm provider (run step r calls)).getLast?.map (·.receipt) ∧
    ∀ e ∈ run step r calls, ∀ persist synced batch,
      e.call = .applyHrBatch persist synced batch →
      (batch.realmId = realm → batch.providerId = provider → ∀ receipt,
        e.before.store.hrReceipt realm provider = some receipt →
        receipt.sequence = batch.receipt.sequence → receipt.digest = batch.receipt.digest →
        e.after = e.before ∧ e.reply = some ((syncHrDirectory synced).map fun _ =>
          { summary := receipt.summary, sequence := receipt.sequence, replayed := true })) ∧
      ((∃ m, e.reply = some (.error (.conflict m))) ∨ persist.result ≠ .ok () →
        e.after = e.before) ∧
      (published e = none → e.after = e.before) ∧
      (published e = some batch →
        ∃ changes, batch.changes = some changes ∧ e.after.file = some e.after.store ∧
          HrApplied batch changes e.before.store.scimUsers e.after.store.scimUsers ∧
          Named e.after) := by
  have hordered := ordered_run hnew calls
  refine ⟨hordered.numbered, ?_, hordered.latest, fun e he persist synced batch hcall => ?_⟩
  · rw [hordered.numbered]
    exact List.nodup_range'
  obtain ⟨before, k, -, rfl⟩ := of_mem_run step he
  have hbefore := ordered_run hnew before
  have hd : Named (final step r before) :=
    final_invariant (I := Named) step (fun _ k hd => names_step hd k) hnames before
  subst hcall
  simp only [eventOf, published]
  generalize final step r before = s at hbefore hd ⊢
  have hs := stepped s (.applyHrBatch persist synced batch)
  refine ⟨fun hrealm hprovider receipt hreceipt hsequence hdigest => ?_, ?_⟩
  · have hvalid : validSequence receipt.sequence = true := by
      rw [hbefore.latest, Option.map_eq_some_iff] at hreceipt
      obtain ⟨b, hb, rfl⟩ := hreceipt
      exact hbefore.valid b (List.mem_of_getLast? hb)
    rw [step, commitHrInner, hrealm, hprovider, hreceipt]
    simp only [hrOrder, hvalid, ← hsequence, hdigest, Bool.not_true, Bool.false_eq_true, if_false,
      and_self, if_true]
    exact ⟨rfl, trivial⟩
  generalize step s (.applyHrBatch persist synced batch) = next at hs ⊢
  cases hs with
  | other k r' hnone hother => exact absurd rfl (hother persist synced batch)
  | unchanged persist synced batch result hcommit =>
    rw [publishes_of_commit hcommit]
    exact ⟨fun _ => rfl, fun _ => rfl, fun h => (by cases h)⟩
  | applied persist synced batch changes result hcommit horder hvalid hwritten hresult =>
    rw [publishes_of_commit hcommit]
    refine ⟨fun h => ?_, fun h => (by cases h), fun _ => ?_⟩
    · rcases h with ⟨m, hm⟩ | hfailed
      · exact absurd (Option.some.inj hm) (hresult m)
      · exact absurd hwritten hfailed
    · exact ⟨changes, (of_validateHrChanges hvalid).1, rfl, hrApplied_applyHr hvalid,
        distinct_applyHr hd hvalid⟩

def sampleUser (userName : String) : ScimUser :=
  { id := "u", realmId := "r", externalId := some "7", userName := userName, nameJson := .null
    emailsJson := .null, enterpriseJson := .null, directoryProviderId := some "p"
    deprovisionedAt := none, active := true }

def sampleBatch (sequence : Nat) (digest : String) (changes : List HrUserChange) : HrBatch :=
  { realmId := "r", providerId := "p"
    receipt := { sequence := sequence, digest := digest
                 summary := { created := 0, updated := 0, deprovisioned := 0 } }
    changes := some changes }

def sampleCalls : List Call :=
  let create := sampleBatch 1 "d1" [⟨none, sampleUser "ann"⟩]
  let rename := sampleBatch 2 "d2" [⟨some (sampleUser "ann"), sampleUser "bea"⟩]
  [.applyHrBatch .done true create, .applyHrBatch (.failed (.rename "disk full")) true rename,
    .applyHrBatch .done true rename, .applyHrBatch .done true rename]

theorem hr_imports_ordered_once_whole_sample :
    (applied "r" "p" (run step ⟨{}, none⟩ sampleCalls)).map (·.receipt.sequence) = [1, 2] ∧
    ((final step ⟨{}, none⟩ sampleCalls).store.hrReceipt "r" "p").map (·.sequence) = some 2 := by
  have h := hr_imports_ordered_once_whole "r" "p" ⟨{}, none⟩ rfl Table.distinct_empty sampleCalls
  have hnumbers := h.1
  refine ⟨hnumbers, ?_⟩
  have hlast := congrArg List.getLast? hnumbers
  exact hlast

end Hr

end Qid.File
