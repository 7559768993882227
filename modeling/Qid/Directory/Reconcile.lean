/-
What a reconciliation is for.

`reconciled` is the outcome of a sync for one user: an owned user becomes what its entry says, or is
retired if it has none. `Reached` says that a store is the outcome of another.
-/
import Qid.Directory.Ldap

namespace Qid.Directory

open Lib Storage Scim File Json

/-! ## The attributes of an entry -/

/-- The user has the attributes of the entry, as of a sync. -/
structure HasEntry (providerId : String) (syncedAt : Nat) (entry : LdapDirectoryEntry)
    (u : ScimUser) : Prop where
  owner : u.directoryProviderId = some providerId
  dn : u.externalId = some entry.dn
  name : u.userName = entry.uid
  active : u.active = entry.enabled
  nameJson : u.nameJson = ldapName entry
  emailsJson : u.emailsJson = ldapEmails entry
  deprovisioned : u.deprovisionedAt.isSome = !entry.enabled
  isObject : u.enterpriseJson.isObject = true
  source : u.enterpriseJson.get "source" = some (.string ldapSourceSchema)
  ldapDn : u.enterpriseJson.get "ldap_dn" = some (.string entry.dn)
  ldapSyncedAt : u.enterpriseJson.get "ldap_synced_at" = some (.u64 syncedAt)
  department : u.enterpriseJson.get "department" = entry.department.map .string
  manager : u.enterpriseJson.get "manager" = ldapManager entry
  employment : u.enterpriseJson.get "employment_state" = some (ldapEmployment entry).toValue
  deprovisionedAt : u.enterpriseJson.get "deprovisioned_at" = u.deprovisionedAt.map .u64
  lifecycle : entry.enabled = false →
    u.enterpriseJson.get "lifecycle_source" = some (.string lifecycleSchema)

variable {providerId : String} {syncedAt : Nat} {entry : LdapDirectoryEntry} {u v : ScimUser}

def ldapFields (m : Fields) (entry : LdapDirectoryEntry) (syncedAt : Nat) : Fields :=
  setEmploymentStateValue (ldapEmployment entry)
    (Fields.assign "manager" (ldapManager entry)
      (Fields.assign "department" (entry.department.map .string)
        (Fields.insert "ldap_synced_at" (.u64 syncedAt)
          (Fields.insert "ldap_dn" (.string entry.dn)
            (Fields.insert "source" (.string ldapSourceSchema) m)))))

theorem lookup_ldapFields (m : Fields) (key : String) :
    (ldapFields m entry syncedAt).lookup key =
      if key = "employment_state" then some (ldapEmployment entry).toValue
      else if key = "manager" then ldapManager entry
      else if key = "department" then entry.department.map .string
      else if key = "ldap_synced_at" then some (.u64 syncedAt)
      else if key = "ldap_dn" then some (.string entry.dn)
      else if key = "source" then some (.string ldapSourceSchema)
      else m.lookup key := by
  simp only [ldapFields, setEmploymentStateValue, Fields.lookup_insert, Fields.lookup_assign]

/-- What applying an entry makes of the enterprise attributes. -/
def entryFields (m : Fields) (entry : LdapDirectoryEntry) (syncedAt : Nat)
    (deprovisionedAt : Option Nat) : Fields :=
  if entry.enabled then Fields.remove "deprovisioned_at" (ldapFields m entry syncedAt)
  else
    setEmploymentStateValue .inactive
      (Fields.insert "deprovisioned_at" (.u64 (deprovisionedAt.getD syncedAt))
        (Fields.insert "lifecycle_source" (.string lifecycleSchema) (ldapFields m entry syncedAt)))

theorem applyLdapEntry_eq (u : ScimUser) (providerId : String) (entry : LdapDirectoryEntry)
    (syncedAt : Nat) :
    applyLdapEntry u providerId entry syncedAt =
      { u with
        directoryProviderId := some providerId
        externalId := some entry.dn
        userName := entry.uid
        active := entry.enabled
        nameJson := ldapName entry
        emailsJson := ldapEmails entry
        deprovisionedAt := if entry.enabled then none else some (u.deprovisionedAt.getD syncedAt)
        enterpriseJson := .object
          (entryFields u.enterpriseJson.fieldsOrDefault entry syncedAt u.deprovisionedAt) } := by
  rw [applyLdapEntry]
  by_cases h : entry.enabled = true
  · simp only [h, entryFields]
    rfl
  · simp only [h, entryFields]
    rfl

theorem hasEntry_applyLdapEntry :
    HasEntry providerId syncedAt entry (applyLdapEntry u providerId entry syncedAt) := by
  rw [applyLdapEntry_eq]
  by_cases h : entry.enabled = true
  · constructor <;> simp [h, entryFields, Value.get, Value.isObject, Fields.lookup_remove,
      lookup_ldapFields]
  · constructor <;> simp [h, entryFields, Value.get, Value.isObject, setEmploymentStateValue,
      ldapEmployment, Fields.lookup_insert, lookup_ldapFields]

theorem HasEntry.ldapFields_eq {m : Fields} (h : HasEntry providerId syncedAt entry u)
    (hm : u.enterpriseJson = .object m) : ldapFields m entry syncedAt = m := by
  have hget : ∀ key, m.lookup key = u.enterpriseJson.get key := by
    intro key
    rw [hm, Value.get]
  rw [ldapFields, Fields.insert_of_lookup ((hget _).trans h.source),
    Fields.insert_of_lookup ((hget _).trans h.ldapDn),
    Fields.insert_of_lookup ((hget _).trans h.ldapSyncedAt),
    Fields.assign_of_lookup ((hget _).trans h.department),
    Fields.assign_of_lookup ((hget _).trans h.manager), setEmploymentStateValue,
    Fields.insert_of_lookup ((hget _).trans h.employment)]

theorem applyLdapEntry_of_hasEntry (h : HasEntry providerId syncedAt entry u) :
    applyLdapEntry u providerId entry syncedAt = u := by
  obtain ⟨m, hm⟩ := Value.isObject_iff.mp h.isObject
  have hget : ∀ {key v}, u.enterpriseJson.get key = v → m.lookup key = v := by
    intro key v hv
    rwa [hm] at hv
  have hdeprovisioned : (if entry.enabled then none else some (u.deprovisionedAt.getD syncedAt)) =
      u.deprovisionedAt := by
    have hsome := h.deprovisioned
    cases hd : u.deprovisionedAt <;> cases henabled : entry.enabled <;> simp_all
  have hfields : entryFields m entry syncedAt u.deprovisionedAt = m := by
    have hmarker := hget h.deprovisionedAt
    rw [entryFields, h.ldapFields_eq hm]
    cases henabled : entry.enabled with
    | true =>
      rw [henabled] at hdeprovisioned
      rw [← hdeprovisioned] at hmarker
      exact Fields.remove_of_lookup hmarker
    | false =>
      have hemployment := hget h.employment
      rw [ldapEmployment, henabled] at hemployment
      rw [henabled] at hdeprovisioned
      rw [← hdeprovisioned] at hmarker
      rw [Fields.insert_of_lookup (hget (h.lifecycle henabled)), Fields.insert_of_lookup hmarker]
      exact Fields.insert_of_lookup hemployment
  rw [applyLdapEntry_eq, hm, Value.fieldsOrDefault, hfields, hdeprovisioned, ← h.owner, ← h.dn,
    ← h.name, ← h.active, ← h.nameJson, ← h.emailsJson, ← hm]

@[simp] theorem scimUserSemanticEq_self (u : ScimUser) : scimUserSemanticEq u u = true := by
  simp [scimUserSemanticEq]

theorem of_scimUserSemanticEq (h : scimUserSemanticEq u v = true) :
    u.externalId = v.externalId ∧ u.userName = v.userName ∧ (u.nameJson == v.nameJson) = true ∧
      (u.emailsJson == v.emailsJson) = true ∧ (u.enterpriseJson == v.enterpriseJson) = true ∧
      u.directoryProviderId = v.directoryProviderId ∧ u.deprovisionedAt = v.deprovisionedAt ∧
      u.active = v.active := by
  simp only [scimUserSemanticEq, Bool.and_eq_true, beq_iff_eq] at h
  exact ⟨h.1.1.1.1.1.1.1, h.1.1.1.1.1.1.2, h.1.1.1.1.1.2, h.1.1.1.1.2, h.1.1.1.2, h.1.1.2, h.1.2,
    h.2⟩

theorem floatFree_ldapName : (ldapName entry).floatFree = true := by
  rw [ldapName]
  split <;> rfl

theorem floatFree_ldapEmails : (ldapEmails entry).floatFree = true := by
  rw [ldapEmails]
  split <;> rfl

/-- A user that is semantically equal to one with the attributes of an entry has them too. -/
theorem HasEntry.of_semanticEq (hv : HasEntry providerId syncedAt entry v)
    (h : scimUserSemanticEq u v = true) : HasEntry providerId syncedAt entry u := by
  obtain ⟨hdn, hname, hnameJson, hemailsJson, henterprise, howner, hdeprovisioned, hactive⟩ :=
    of_scimUserSemanticEq h
  -- a field that is written without floats is the same in both
  have hget : ∀ {key : String} {x : Option Value}, (∀ w ∈ x, w.floatFree = true) →
      v.enterpriseJson.get key = x → u.enterpriseJson.get key = x := Value.get_eq_of_beq henterprise
  have hstring : ∀ t : String, ∀ w ∈ some (Value.string t), w.floatFree = true :=
    fun t w hw => Option.some.inj hw ▸ rfl
  refine ⟨howner.trans hv.owner, hdn.trans hv.dn, hname.trans hv.name, hactive.trans hv.active,
    ?_, ?_, by rw [hdeprovisioned]; exact hv.deprovisioned, ?_, hget (hstring _) hv.source,
    hget (hstring _) hv.ldapDn, hget (fun w hw => Option.some.inj hw ▸ rfl) hv.ldapSyncedAt,
    hget ?_ hv.department, hget ?_ hv.manager, hget ?_ hv.employment, ?_,
    fun henabled => hget (hstring _) (hv.lifecycle henabled)⟩
  · rw [hv.nameJson] at hnameJson
    exact Value.eq_of_beq _ _ floatFree_ldapName hnameJson
  · rw [hv.emailsJson] at hemailsJson
    exact Value.eq_of_beq _ _ floatFree_ldapEmails hemailsJson
  · obtain ⟨m, hm⟩ := Value.isObject_iff.mp hv.isObject
    rw [hm] at henterprise
    cases hu : u.enterpriseJson with
    | object => rfl
    | null | bool _ | number _ | string _ | array _ =>
      rw [hu] at henterprise
      cases henterprise
  · intro w hw
    obtain ⟨d, -, rfl⟩ := Option.map_eq_some_iff.mp hw
    rfl
  · intro w hw
    obtain ⟨d, -, rfl⟩ := Option.map_eq_some_iff.mp hw
    rfl
  · intro w hw
    cases hw
    cases ldapEmployment entry with
    | active | inactive | leavePending => rfl
  · rw [hdeprovisioned]
    refine hget (fun w hw => ?_) hv.deprovisionedAt
    obtain ⟨t, -, rfl⟩ := Option.map_eq_some_iff.mp hw
    rfl

variable {s : Store} {realmId : String} {entries : List LdapDirectoryEntry}

section

variable {existing : List ScimUser}

theorem mem_listScimUsers :
    u ∈ listScimUsers s realmId ↔ s.scimUsers.find u.id = some u ∧ u.realmId = realmId := by
  rw [listScimUsers, List.mem_insertionSort, List.mem_filter, Table.mem_values, beq_iff_eq]

theorem nodup_listScimUsers : (listScimUsers s realmId).Nodup :=
  (List.perm_insertionSort _ _).nodup_iff.mpr (s.scimUsers.nodup_values.filter _)

def ownershipKey (u : ScimUser) : String × String :=
  (u.directoryProviderId.getD "", u.externalId.getD "")

def ValidOwner (u : ScimUser) : Prop :=
  isBlank (u.directoryProviderId.getD "") = false ∧
    ∃ dn, u.externalId = some dn ∧ isBlank dn = false

theorem preflightUser_eq_ok (seen : List (String × String)) (u : ScimUser)
    (seen' : List (String × String)) :
    preflightUser seen u = .ok seen' ↔
      ValidOwner u ∧ ownershipKey u ∉ seen ∧ seen' = ownershipKey u :: seen := by
  rw [preflightUser, ValidOwner, ownershipKey]
  cases hblank : isBlank (u.directoryProviderId.getD "") with
  | true => simp
  | false =>
    cases hdn : u.externalId with
    | none => simp
    | some dn =>
      cases hdnBlank : isBlank dn with
      | true => simp [hdnBlank]
      | false =>
        by_cases hseen : (u.directoryProviderId.getD "", dn) ∈ seen
        · simp [hseen, hdnBlank]
        · simp only [hdnBlank, hseen, Option.getD_some,
            Option.some.injEq, exists_eq_left', not_false_eq_true, true_and]
          exact ⟨fun h => (Except.ok.inj h).symm, fun h => h ▸ rfl⟩

structure Preflighted (existing : List ScimUser) : Prop where
  valid : ∀ u ∈ existing, u.directoryProviderId.isSome = true → ValidOwner u
  distinct : ∀ u ∈ existing, ∀ v ∈ existing, u.directoryProviderId.isSome = true →
    v.directoryProviderId.isSome = true → ownershipKey u = ownershipKey v → u = v

theorem preflight_eq_ok (hnodup : existing.Nodup) :
    preflightDirectoryOwnership existing = .ok () ↔ Preflighted existing := by
  have hrun : preflightDirectoryOwnership existing = .ok () ↔
      ∃ seen', (existing.filter (·.directoryProviderId.isSome)).foldlM preflightUser [] =
        .ok seen' := by
    rw [preflightDirectoryOwnership, bind_eq_ok]
    exact exists_congr fun _ => ⟨fun h => h.1, fun h => ⟨h, rfl⟩⟩
  rw [hrun, foldlM_distinct preflightUser_eq_ok]
  constructor
  · rintro ⟨hvalid, hkeys, -⟩
    refine ⟨fun u hu hown => hvalid u (List.mem_filter.mpr ⟨hu, hown⟩), ?_⟩
    intro u hu v hv hou hov hkey
    exact List.inj_on_of_nodup_map hkeys (List.mem_filter.mpr ⟨hu, hou⟩)
      (List.mem_filter.mpr ⟨hv, hov⟩) hkey
  · intro h
    refine ⟨fun u hu => ?_, ?_, fun _ _ => List.not_mem_nil⟩
    · have hu := List.mem_filter.mp hu
      exact h.valid u hu.1 hu.2
    · refine (hnodup.filter _).map_on fun u hu v hv hkey => ?_
      have hu := List.mem_filter.mp hu
      have hv := List.mem_filter.mp hv
      exact h.distinct u hu.1 v hv.1 hu.2 hv.2 hkey

def ValidEntry (entry : LdapDirectoryEntry) : Prop :=
  isBlank entry.dn = false ∧ isBlank entry.uid = false

theorem checkLdapEntry_eq_ok (seen : List String) (entry : LdapDirectoryEntry)
    (seen' : List String) :
    checkLdapEntry seen entry = .ok seen' ↔
      ValidEntry entry ∧ entry.dn ∉ seen ∧ seen' = entry.dn :: seen := by
  have hvalid : validateLdapEntry entry = .ok () ↔ ValidEntry entry := by
    rw [validateLdapEntry, ValidEntry]
    cases isBlank entry.dn with
    | true => simp
    | false =>
      cases isBlank entry.uid with
      | _ => simp
  rw [checkLdapEntry, bind_eq_ok]
  simp only [hvalid, exists_const]
  refine and_congr_right fun _ => ?_
  by_cases hseen : entry.dn ∈ seen
  · simp [hseen]
  · simp only [hseen, not_false_eq_true, true_and]
    exact ⟨fun h => (Except.ok.inj h).symm, fun h => h ▸ rfl⟩

structure CheckedSnapshot (s : Store) (realmId providerId : String)
    (entries : List LdapDirectoryEntry) : Prop where
  provider : isBlank providerId = false
  valid : ∀ e ∈ entries, ValidEntry e
  dns : (entries.map (·.dn)).Nodup
  preflight : Preflighted (listScimUsers s realmId)
  unowned : ∀ e ∈ entries, ∀ u ∈ listScimUsers s realmId, u.directoryProviderId = none →
    u.externalId ≠ some e.dn

theorem notMem_unownedDns {dn : String} :
    dn ∉ unownedDns existing ↔
      ∀ u ∈ existing, u.directoryProviderId = none → u.externalId ≠ some dn := by
  simp only [unownedDns, List.mem_filterMap, List.mem_filter, Option.isNone_iff_eq_none, not_exists,
    not_and, and_imp]

theorem checkLdapSnapshot_eq_ok :
    checkLdapSnapshot s realmId providerId entries = .ok existing ↔
      existing = listScimUsers s realmId ∧ CheckedSnapshot s realmId providerId entries := by
  have hentries : (∃ seen', entries.foldlM checkLdapEntry [] = .ok seen') ↔ _ :=
    foldlM_distinct checkLdapEntry_eq_ok
  have hpreflight : preflightDirectoryOwnership (listScimUsers s realmId) = .ok () ↔ _ :=
    preflight_eq_ok nodup_listScimUsers
  have hunowned : forM entries (checkUnowned (listScimUsers s realmId)) = .ok () ↔
      ∀ e ∈ entries, e.dn ∉ unownedDns (listScimUsers s realmId) :=
    forM_eq_ok.trans (forall₂_congr fun _ _ => ensure_eq_ok)
  rw [checkLdapSnapshot]
  simp only [bind_eq_ok, ensure_eq_ok, exists_const, hpreflight, hunowned, pure_eq_ok]
  constructor
  · rintro ⟨hprovider, seen, hloop, hpre, hdns, rfl⟩
    obtain ⟨hvalid, hnodup, -⟩ := hentries.mp ⟨seen, hloop⟩
    exact ⟨rfl, hprovider, hvalid, hnodup, hpre, fun e he => notMem_unownedDns.mp (hdns e he)⟩
  · rintro ⟨rfl, h⟩
    obtain ⟨seen, hloop⟩ := hentries.mpr ⟨h.valid, h.dns, fun _ _ => List.not_mem_nil⟩
    exact ⟨h.provider, seen, hloop, h.preflight,
      fun e he => notMem_unownedDns.mpr (h.unowned e he), rfl⟩

end

/-! ## What a sync is for -/

section

variable (realmId providerId : String) (syncedAt : Nat) (entries : List LdapDirectoryEntry)
  (u : ScimUser)

def Owns : Prop := u.realmId = realmId ∧ u.directoryProviderId = some providerId

instance (u : ScimUser) : Decidable (Owns realmId providerId u) :=
  inferInstanceAs (Decidable (_ ∧ _))

def entryOf : Option LdapDirectoryEntry := entries.find? fun e => u.externalId == some e.dn

def updated (entry : LdapDirectoryEntry) : ScimUser :=
  if scimUserSemanticEq u (applyLdapEntry u providerId entry syncedAt) then u
  else applyLdapEntry u providerId entry syncedAt

def retired : ScimUser :=
  if u.active && !isBreakGlassUser u then markDeprovisioned { u with active := false } syncedAt
  else u

def met : ScimUser :=
  if Owns realmId providerId u then (entryOf entries u).elim u (updated providerId syncedAt u)
  else u

def reconciled (deactivateMissing : Bool) (u : ScimUser) : ScimUser :=
  if Owns realmId providerId u ∧ entryOf entries u = none ∧ deactivateMissing then
    retired syncedAt u
  else met realmId providerId syncedAt entries u

end

section

theorem met_of_not_owns (h : ¬ Owns realmId providerId u) :
    met realmId providerId syncedAt entries u = u := if_neg h

theorem met_of_entryOf_none (h : entryOf entries u = none) :
    met realmId providerId syncedAt entries u = u := by
  rw [met, h]
  split <;> rfl

theorem entryOf_eq_none : entryOf entries u = none ↔ ∀ e ∈ entries, u.externalId ≠ some e.dn := by
  simp only [entryOf, List.find?_eq_none, beq_iff_eq]

theorem met_append_of_ne (h : Owns realmId providerId u → u.externalId ≠ some entry.dn) :
    met realmId providerId syncedAt (entries ++ [entry]) u =
      met realmId providerId syncedAt entries u := by
  by_cases howns : Owns realmId providerId u
  · have hentry : entryOf (entries ++ [entry]) u = entryOf entries u := by
      rw [entryOf, List.find?_append, List.find?_singleton,
        if_neg (by rw [beq_iff_eq]; exact h howns), Option.or_none, entryOf]
    rw [met, met, hentry]
  · rw [met_of_not_owns howns, met_of_not_owns howns]

theorem hasEntry_updated :
    HasEntry providerId syncedAt entry (updated providerId syncedAt u entry) := by
  rw [updated]
  split
  · rename_i h
    exact hasEntry_applyLdapEntry.of_semanticEq h
  · exact hasEntry_applyLdapEntry

/-- The identity of a user in its directory and in the store. -/
structure SameIdentity (u v : ScimUser) : Prop where
  id : v.id = u.id
  realm : v.realmId = u.realmId
  owner : v.directoryProviderId = u.directoryProviderId
  dn : v.externalId = u.externalId

theorem SameIdentity.refl (u : ScimUser) : SameIdentity u u := ⟨rfl, rfl, rfl, rfl⟩

theorem sameIdentity_updated (howns : Owns realmId providerId u)
    (h : u.externalId = some entry.dn) :
    SameIdentity u (updated providerId syncedAt u entry) := by
  rw [updated]
  split
  · exact SameIdentity.refl u
  · rw [applyLdapEntry_eq]
    exact ⟨rfl, rfl, howns.2.symm, h.symm⟩

theorem sameIdentity_retired : SameIdentity u (retired syncedAt u) := by
  rw [retired]
  split
  · exact ⟨rfl, rfl, rfl, rfl⟩
  · exact SameIdentity.refl u

theorem of_entryOf_eq_some (h : entryOf entries u = some entry) :
    entry ∈ entries ∧ u.externalId = some entry.dn := by
  refine ⟨List.mem_of_find?_eq_some h, ?_⟩
  have hp := List.find?_some h
  rw [beq_iff_eq] at hp
  exact hp

/-- The three things a sync may do to a user that is stored. -/
inductive Outcome (realmId providerId : String) (syncedAt : Nat)
    (entries : List LdapDirectoryEntry) (deactivateMissing : Bool) (u : ScimUser) :
    ScimUser → Prop
  | updated (e : LdapDirectoryEntry) (howns : Owns realmId providerId u)
      (hentry : entryOf entries u = some e) :
      Outcome realmId providerId syncedAt entries deactivateMissing u
        (updated providerId syncedAt u e)
  | retired (howns : Owns realmId providerId u) (hentry : entryOf entries u = none)
      (hmissing : deactivateMissing = true) :
      Outcome realmId providerId syncedAt entries deactivateMissing u (retired syncedAt u)
  | kept (h : Owns realmId providerId u →
      entryOf entries u = none ∧ deactivateMissing = false) :
      Outcome realmId providerId syncedAt entries deactivateMissing u u

variable (deactivateMissing : Bool)

theorem outcome_reconciled (u : ScimUser) :
    Outcome realmId providerId syncedAt entries deactivateMissing u
      (reconciled realmId providerId syncedAt entries deactivateMissing u) := by
  by_cases howns : Owns realmId providerId u
  · cases hentry : entryOf entries u with
    | some e =>
      have heq : reconciled realmId providerId syncedAt entries deactivateMissing u =
          Directory.updated providerId syncedAt u e := by
        rw [reconciled, if_neg (fun h => by rw [hentry] at h; cases h.2.1), met, if_pos howns,
          hentry]
        rfl
      rw [heq]
      exact Outcome.updated e howns hentry
    | none =>
      cases deactivateMissing with
      | true =>
        rw [reconciled, if_pos ⟨howns, hentry, rfl⟩]
        exact Outcome.retired howns hentry rfl
      | false =>
        rw [reconciled, if_neg (fun h => by cases h.2.2), met_of_entryOf_none hentry]
        exact Outcome.kept fun _ => ⟨hentry, rfl⟩
  · rw [reconciled, if_neg fun h => howns h.1, met_of_not_owns howns]
    exact Outcome.kept fun h => absurd h howns

theorem sameIdentity_reconciled (u : ScimUser) :
    SameIdentity u (reconciled realmId providerId syncedAt entries deactivateMissing u) := by
  have h : Outcome realmId providerId syncedAt entries deactivateMissing u _ :=
    outcome_reconciled deactivateMissing u
  generalize reconciled realmId providerId syncedAt entries deactivateMissing u = v at h ⊢
  cases h with
  | updated e howns hentry => exact sameIdentity_updated howns (of_entryOf_eq_some hentry).2
  | retired => exact sameIdentity_retired
  | kept => exact SameIdentity.refl u

end

/-! ## Writes that follow an outcome -/

/-- The users of `s` have become what `stage` says, and the new ones are there. -/
structure Reached (s : Store) (stage : ScimUser → ScimUser) (new : List ScimUser) (t : Store) :
    Prop where
  frame : t = { s with scimUsers := t.scimUsers }
  stored : ∀ id u, s.scimUsers.find id = some u → t.scimUsers.find id = some (stage u)
  created : ∀ id, s.scimUsers.find id = none → t.scimUsers.find id = new.find? fun v => v.id == id

variable {t : Store} {stage stage' : ScimUser → ScimUser} {new : List ScimUser}

theorem Reached.congr (h : Reached s stage new t)
    (heq : ∀ id u, s.scimUsers.find id = some u → stage' u = stage u) :
    Reached s stage' new t :=
  ⟨h.frame, fun id u hu => by rw [h.stored id u hu, heq id u hu], h.created⟩

theorem Reached.update (h : Reached s stage new t) (hu : s.scimUsers.find u.id = some u)
    (hid : v.id = u.id) (hv : stage' u = v)
    (hother : ∀ w, s.scimUsers.find w.id = some w → w.id ≠ u.id → stage' w = stage w) :
    Reached s stage' new { t with scimUsers := t.scimUsers.put v } := by
  refine ⟨by rw [h.frame], fun id w hw => ?_, fun id hnone => ?_⟩
  · rw [Table.find_put]
    split_ifs with hidv
    · have hwu : w = u := by
        rw [hidv, hid, hu] at hw
        exact (Option.some.inj hw).symm
      rw [hwu, hv]
    · rw [h.stored id w hw, hother w (Table.find_key hw)]
      rw [Table.key_of_find hw, ← hid]
      exact hidv
  · rw [Table.find_put, if_neg, h.created id hnone]
    intro hidv
    rw [hidv, hid, hu] at hnone
    cases hnone

theorem Reached.create (h : Reached s stage new t) (hnew : t.scimUsers.find v.id = none) :
    Reached s stage (new ++ [v]) { t with scimUsers := t.scimUsers.put v } := by
  have hnone : s.scimUsers.find v.id = none := by
    cases hs : s.scimUsers.find v.id with
    | none => rfl
    | some =>
      rw [h.stored _ _ hs] at hnew
      cases hnew
  refine ⟨by rw [h.frame], fun id w hw => ?_, fun id hid => ?_⟩
  · rw [Table.find_put_of_ne, h.stored id w hw]
    intro hidv
    rw [hidv, hnone] at hw
    cases hw
  · rw [Table.find_put, List.find?_append, ← h.created id hid, List.find?_singleton]
    by_cases hidv : id = v.id
    · rw [if_pos hidv, hidv, hnew, Option.none_or, if_pos (beq_self_eq_true _)]
    · rw [if_neg hidv, if_neg (fun heq => hidv (beq_iff_eq.mp heq).symm), Option.or_none]

end Qid.Directory
