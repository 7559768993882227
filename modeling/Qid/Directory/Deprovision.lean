/-
The time of the last deactivation.

A sync writes only what it makes of the users it has read, so all it can make of a row is said by
one equation (`Stamped`).
-/
import Qid.Directory.Sync

namespace Qid.Directory

open Lib Storage Scim File

/-- A user has a time of deprovisioning if and only if it is not active. -/
def Settled (u : ScimUser) : Prop := u.active = u.deprovisionedAt.isNone

/-- What a sync at `t` makes of a row. -/
def Stamped (t : Nat) (before : Option ScimUser) (u : ScimUser) : Prop :=
  u.deprovisionedAt =
    if u.active then none else (before.bind (·.deprovisionedAt)).or (some t)

variable {t : Nat} {u v : ScimUser} {realmId providerId id : String}

theorem Settled.stamped (h : Settled u) : Stamped t (some u) u := by
  rw [Settled] at h
  cases hd : u.deprovisionedAt <;> simp [Stamped, h, hd]

theorem Stamped.settled {before : Option ScimUser} (h : Stamped t before u) : Settled u := by
  rw [Settled, h]
  cases u.active <;> simp

theorem stamped_applyLdapEntry (entry : LdapDirectoryEntry) :
    Stamped t (some u) (applyLdapEntry u providerId entry t) := by
  rw [applyLdapEntry_eq]
  cases hd : u.deprovisionedAt <;> cases entry.enabled <;> simp [Stamped, hd]

section

variable {s st : Store} {persist : Persist}

/-- The row is what the sync at `t` makes of the one in `s`. -/
structure Row (t : Nat) (id : String) (s st : Store) : Prop where
  stamped : ∀ u, st.scimUsers.find id = some u → Stamped t (s.scimUsers.find id) u
  kept : st.scimUsers.find id = none → s.scimUsers.find id = none

theorem Row.put (h : Row t id s st) (hv : v.id = id → Stamped t (s.scimUsers.find id) v) :
    Row t id s { st with scimUsers := st.scimUsers.put v } := by
  constructor
  · intro u hu
    rw [Table.find_put] at hu
    split at hu
    · cases hu
      exact hv (by simp_all)
    · exact h.stamped u hu
  · intro hnone
    rw [Table.find_put] at hnone
    split at hnone
    · cases hnone
    · exact h.kept hnone

theorem Row.update (h : Row t id s st) (hv : v.id = id → Stamped t (s.scimUsers.find id) v) :
    Row t id s (updateScimUser persist st v).2 := by
  simp only [updateScimUser, mutateScimUser]
  split
  · exact h
  · exact h
  · rename_i hmutated
    obtain ⟨w, -, ⟨hreplace, -, -, -, rfl⟩ | ⟨hdelete, -, -⟩⟩ := of_mutateResource hmutated
    · cases hreplace
      exact h.put hv
    · cases hdelete

theorem Row.create (h : Row t id s st)
    (hv : v.id = id → s.scimUsers.find id = none → Stamped t none v) :
    Row t id s (createScimUser persist st v).2 := by
  rw [createScimUser]
  split
  · exact h
  · rename_i hnew
    obtain ⟨rfl, hnone, -⟩ := of_insertNew hnew
    refine h.put fun hid => ?_
    have hs := h.kept (hid ▸ hnone)
    rw [hs]
    exact hv hid hs

end

section

variable {persist : ScimUser → Persist} {freshId : LdapDirectoryEntry → String} {s : Store}
  {p : LdapProgress}

structure Progress (t : Nat) (id : String) (s : Store) (p : LdapProgress) : Prop where
  owned : ∀ dn u, p.owned.lookup dn = some u → s.scimUsers.find u.id = some u
  row : Row t id s p.store

theorem Progress.entry (h : Progress t id s p) (entry : LdapDirectoryEntry) :
    Progress t id s (syncLdapEntry persist freshId realmId providerId t p entry).2 := by
  have howned : ∀ dn u, (p.owned.erase entry.dn).lookup dn = some u →
      s.scimUsers.find u.id = some u := by
    intro dn u hu
    rw [KeyMap.lookup_erase_eq] at hu
    split at hu
    · cases hu
    · exact h.owned dn u hu
  rw [syncLdapEntry]
  split
  · rename_i before hbefore
    have hfind := h.owned _ before hbefore
    dsimp only
    split
    · exact ⟨howned, h.row⟩
    · refine ⟨howned, h.row.update fun hid => ?_⟩
      have hid : before.id = id := by rw [← hid, applyLdapEntry_eq]
      rw [← hid, hfind]
      exact stamped_applyLdapEntry entry
  · exact ⟨howned, h.row.create fun _ _ => stamped_applyLdapEntry entry⟩

theorem Progress.missing (h : Progress t id s p)
    (hs : ∀ u, s.scimUsers.find id = some u → Settled u) (hu : s.scimUsers.find u.id = some u) :
    Progress t id s (deactivateMissingUser persist t p u).2 := by
  rw [deactivateMissingUser]
  split
  · exact h
  · rename_i hactive
    split
    · exact ⟨h.owned, h.row⟩
    · refine ⟨h.owned, h.row.update fun hid => ?_⟩
      have hid : u.id = id := hid
      rw [← hid] at hs ⊢
      rw [hu]
      have hactive : u.active = true := by simpa using hactive
      have hsettled := hs u hu
      rw [Settled, hactive, eq_comm, Option.isNone_iff_eq_none] at hsettled
      simp [Stamped, markDeprovisioned, projectDeprovisioned, hsettled]

variable (realmId providerId persist freshId) in
theorem row_syncLdapEntries (hs : ∀ u, s.scimUsers.find id = some u → Settled u)
    (entries : List LdapDirectoryEntry) (options : LdapSyncOptions) :
    Row options.syncedAt id s
      (syncLdapEntries persist freshId realmId providerId s entries options).2 := by
  have hstart : Row options.syncedAt id s s :=
    ⟨fun u hu => hu ▸ (hs u hu).stamped, fun hnone => hnone⟩
  rw [syncLdapEntries]
  split
  · exact hstart
  · rename_i existing hchecked
    obtain ⟨rfl, hsnapshot⟩ := checkLdapSnapshot_eq_ok.mp hchecked
    have hloop := forEach_keeps (I := Progress options.syncedAt id s) (l := entries)
      (f := syncLdapEntry persist freshId realmId providerId options.syncedAt)
      (fun p entry _ hp => hp.entry entry)
      (s := ⟨s, ownedByDn (listScimUsers s realmId) providerId, {}⟩)
      ⟨fun dn u hu => ((ownedIndex_ownedByDn hsnapshot.preflight).sound hu).1, hstart⟩
    dsimp only
    split
    · exact hloop.row
    · rw [deactivateMissing]
      split
      · refine (forEach_keeps (fun p u hu hp => ?_) hloop).row
        obtain ⟨dn, hdn⟩ := mem_intoValues.mp hu
        exact hp.missing hs (hloop.owned dn u hdn)
      · exact hloop.row

end

variable (realmId providerId id : String)

/-- A sync of the provider, or any other write. -/
inductive DirectoryAct where
  | sync (persist : ScimUser → Persist) (freshId : LdapDirectoryEntry → String)
      (entries : List LdapDirectoryEntry) (options : LdapSyncOptions)
  | other (after : Store)

def directoryStep (s : Store) : DirectoryAct → Unit × Store
  | .sync persist freshId entries options =>
    ((), (syncLdapEntries persist freshId realmId providerId s entries options).2)
  | .other after => ((), after)

def inactive (s : Store) : Bool := (s.scimUsers.find id).any fun u => !u.active

/-- The time of a sync that turns the user inactive, or creates it so. -/
def turnedInactive (e : Event Store DirectoryAct Unit) : Option Nat :=
  match e.call with
  | .sync _ _ _ options =>
    if inactive id e.after && !inactive id e.before then some options.syncedAt else none
  | .other _ => none

variable {realmId providerId id}

/-- The row is settled, and an inactive one has the last time. -/
def Recorded (id : String) (h : List (Event Store DirectoryAct Unit)) (s : Store) : Prop :=
  ∀ u, s.scimUsers.find id = some u →
    Settled u ∧ (u.active = false → u.deprovisionedAt = latest (turnedInactive id) none h)

theorem Recorded.step {h : List (Event Store DirectoryAct Unit)} {s : Store}
    (hs : Recorded id h s) (act : DirectoryAct)
    (hother : ∀ after, act = .other after → after.scimUsers.find id = s.scimUsers.find id) :
    Recorded id (h ++ [eventOf (directoryStep realmId providerId) s act])
      (directoryStep realmId providerId s act).2 := by
  intro u hu
  rw [latest_append_singleton]
  cases act with
  | other after => exact hs u ((hother after rfl).symm.trans hu)
  | sync persist freshId entries options =>
    have hstamped := (row_syncLdapEntries realmId providerId persist freshId
      (fun u hu => (hs u hu).1) entries options).stamped u hu
    refine ⟨hstamped.settled, fun hinactive => ?_⟩
    have hafter : inactive id (directoryStep realmId providerId s
        (.sync persist freshId entries options)).2 = true := by simp [inactive, hu, hinactive]
    rw [hstamped, hinactive]
    simp only [turnedInactive, eventOf, hafter, Bool.false_eq_true]
    cases hbefore : s.scimUsers.find id with
    | none => simp [inactive, hbefore]
    | some v =>
      obtain ⟨hsettled, hlast⟩ := hs v hbefore
      rw [Settled] at hsettled
      cases hv : v.active with
      | true =>
        rw [hv, eq_comm, Option.isNone_iff_eq_none] at hsettled
        simp [inactive, hbefore, hv, hsettled]
      | false =>
        rw [hv, eq_comm, Option.isNone_eq_false_iff, Option.isSome_iff_exists] at hsettled
        obtain ⟨t, ht⟩ := hsettled
        simp [inactive, hbefore, hv, ht, ← hlast hv]

/-- A user that only the syncs of its provider write is active exactly when it has no time of
deprovisioning, and the time is that of the sync that last turned it inactive. -/
theorem deprovisioned_at_last_deactivation {s : Store} (hstart : s.scimUsers.find id = none)
    (acts : List DirectoryAct)
    (hother : ∀ e ∈ run (directoryStep realmId providerId) s acts, ∀ after, e.call = .other after →
      after.scimUsers.find id = e.before.scimUsers.find id) {u : ScimUser}
    (hu : (final (directoryStep realmId providerId) s acts).scimUsers.find id = some u) :
    (u.active = true ↔ u.deprovisionedAt = none) ∧ (u.active = false → u.deprovisionedAt =
      latest (turnedInactive id) none (run (directoryStep realmId providerId) s acts)) := by
  have hrun := run_history (directoryStep realmId providerId)
    (I := fun h s => (∀ e ∈ h, ∀ after, e.call = .other after →
      after.scimUsers.find id = e.before.scimUsers.find id) → Recorded id h s) (h := [])
    (fun h s act hs hframe => (hs fun e he => hframe e (List.mem_append_left _ he)).step act
      (hframe _ (List.mem_append_right h List.mem_cons_self)))
    (fun _ u hu => by rw [hstart] at hu; cases hu) acts
  obtain ⟨hsettled, hlast⟩ := hrun hother u hu
  refine ⟨?_, hlast⟩
  rw [hsettled, Option.isNone_iff_eq_none]

def sampleSyncs : List DirectoryAct :=
  let entry := fun enabled => ⟨"cn=a", "a", none, none, none, none, enabled⟩
  [([entry false], 5), ([entry true], 7), ([], 9), ([], 11)].map fun sync =>
    .sync (fun _ => .done) (·.uid) sync.1 ⟨true, sync.2⟩

theorem deprovisioned_at_last_deactivation_sample :
    ∃ u, (final (directoryStep "main" "ldap") {} sampleSyncs).scimUsers.find "a" = some u ∧
      (u.active = true ↔ u.deprovisionedAt = none) ∧
      (u.active = false → u.deprovisionedAt = some 9) := by
  have hlast : latest (turnedInactive "a") none
      (run (directoryStep "main" "ldap") {} sampleSyncs) = some 9 := by decide +kernel
  have hsome : ((final (directoryStep "main" "ldap") {} sampleSyncs).scimUsers.find "a").isSome =
      true := by decide +kernel
  obtain ⟨u, hu⟩ := Option.isSome_iff_exists.mp hsome
  have hnone : ∀ act ∈ sampleSyncs, ∀ after, act ≠ .other after := by simp [sampleSyncs]
  have h := deprovisioned_at_last_deactivation rfl sampleSyncs
    (fun e he after hcall => absurd hcall (hnone _ (call_mem_of_mem_run _ he) after)) hu
  exact ⟨u, hu, h⟩

end Qid.Directory
