/-
What a sync that succeeds has done.

`Underway` is the invariant of the loop over the entries: the entries that are done have made of the
users what `met` says, and `owned` has the owned users whose entries are still to come.
-/
import Qid.Directory.Reconcile

namespace Qid.Directory

open Lib Storage Scim File Json

variable {u : ScimUser} {s : Store} {realmId providerId : String}

section

variable {owned : HashMap ScimUser}

/-- The index has exactly the owned users, under their DNs. -/
structure OwnedIndex (s : Store) (realmId providerId : String) (owned : HashMap ScimUser) :
    Prop where
  sound : ∀ {dn u}, owned.lookup dn = some u →
    s.scimUsers.find u.id = some u ∧ Owns realmId providerId u ∧ u.externalId = some dn
  complete : ∀ {dn u}, s.scimUsers.find u.id = some u → Owns realmId providerId u →
    u.externalId = some dn → owned.lookup dn = some u

theorem Preflighted.eq_of_dn (h : Preflighted (listScimUsers s realmId)) {v : ScimUser}
    {dn : String} (hu : s.scimUsers.find u.id = some u) (hv : s.scimUsers.find v.id = some v)
    (hou : Owns realmId providerId u) (hov : Owns realmId providerId v)
    (hdu : u.externalId = some dn) (hdv : v.externalId = some dn) : u = v := by
  refine h.distinct u (mem_listScimUsers.mpr ⟨hu, hou.1⟩) v (mem_listScimUsers.mpr ⟨hv, hov.1⟩)
    ?_ ?_ ?_
  · rw [hou.2, Option.isSome_some]
  · rw [hov.2, Option.isSome_some]
  · rw [ownershipKey, ownershipKey, hou.2, hov.2, hdu, hdv]

theorem ownedIndex_ownedByDn (h : Preflighted (listScimUsers s realmId)) :
    OwnedIndex s realmId providerId (ownedByDn (listScimUsers s realmId) providerId) := by
  have hpair : ∀ {p : String × ScimUser},
      p ∈ ((listScimUsers s realmId).filter fun u =>
        u.directoryProviderId == some providerId).filterMap
          (fun u => u.externalId.map fun dn => (dn, u)) ↔
        s.scimUsers.find p.2.id = some p.2 ∧ Owns realmId providerId p.2 ∧
          p.2.externalId = some p.1 := by
    rintro ⟨dn, u⟩
    simp only [List.mem_filterMap, List.mem_filter, mem_listScimUsers, beq_iff_eq,
      Option.map_eq_some_iff, Prod.mk.injEq]
    constructor
    · rintro ⟨w, ⟨⟨hw, hrealm⟩, howner⟩, d, hd, rfl, rfl⟩
      exact ⟨hw, ⟨hrealm, howner⟩, hd⟩
    · rintro ⟨hu, ⟨hrealm, howner⟩, hdn⟩
      exact ⟨u, ⟨⟨hu, hrealm⟩, howner⟩, dn, hdn, rfl, rfl⟩
  constructor
  · intro dn u hlookup
    rcases HashMap.of_lookup_foldl_insert hlookup with ⟨p, hp, rfl, rfl⟩ | hempty
    · exact hpair.mp hp
    · cases hempty
  · intro dn u hu howns hdn
    have hmem := hpair (p := (dn, u)).mpr ⟨hu, howns, hdn⟩
    refine HashMap.lookup_foldl_insert (f := Prod.fst) hmem (fun p hp hkey => ?_) ∅
    have hp := hpair.mp hp
    exact h.eq_of_dn hp.1 hu hp.2.1 howns (hp.2.2.trans (congrArg some hkey)) hdn

end

variable {index : HashMap ScimUser} {p : LdapProgress}

section

variable (persist : ScimUser → Persist) (freshId : LdapDirectoryEntry → String)
  (realmId providerId : String) (syncedAt : Nat)

def newUsers (index : HashMap ScimUser) (entries : List LdapDirectoryEntry) : List ScimUser :=
  (entries.filter fun e => (index.lookup e.dn).isNone).map fun e =>
    scimUserFromLdapEntry (freshId e) realmId providerId e syncedAt

structure Underway (s : Store) (index : HashMap ScimUser) (done : List LdapDirectoryEntry)
    (p : LdapProgress) : Prop where
  reached : Reached s (met realmId providerId syncedAt done)
    (newUsers freshId realmId providerId syncedAt index done) p.store
  owned : ∀ dn, p.owned.lookup dn = if dn ∈ done.map (·.dn) then none else index.lookup dn

variable {persist freshId realmId providerId syncedAt} {done : List LdapDirectoryEntry}
  {entry : LdapDirectoryEntry}

theorem underway_start (result : LdapSyncResult) :
    Underway freshId realmId providerId syncedAt s index []
      { store := s, owned := index, result := result } :=
  ⟨⟨rfl, fun id u hu => by rw [hu, met_of_entryOf_none rfl], fun _ hid => hid⟩, fun _ => rfl⟩

theorem lookup_erase_dn (howned : ∀ dn, p.owned.lookup dn =
      if dn ∈ done.map (·.dn) then none else index.lookup dn) (dn : String) :
    (p.owned.erase entry.dn).lookup dn =
      if dn ∈ (done ++ [entry]).map (·.dn) then none else index.lookup dn := by
  rw [KeyMap.lookup_erase_eq, howned, List.map_append, List.map_singleton]
  by_cases hdn : dn = entry.dn
  · rw [if_pos hdn, if_pos (List.mem_append_right _ (List.mem_singleton.mpr hdn))]
  · rw [if_neg hdn]
    simp only [List.mem_append, List.mem_singleton, hdn, or_false]

theorem Underway.find_owned (h : Underway freshId realmId providerId syncedAt s index done p)
    (hindex : OwnedIndex s realmId providerId index) (hnew : entry.dn ∉ done.map (·.dn))
    (hu : index.lookup entry.dn = some u) :
    entryOf done u = none ∧ p.store.scimUsers.find u.id = some u := by
  obtain ⟨hfind, -, hdn⟩ := hindex.sound hu
  have hnone : entryOf done u = none := by
    rw [entryOf_eq_none]
    intro e he heq
    rw [hdn] at heq
    exact hnew (Option.some.inj heq ▸ List.mem_map_of_mem he)
  refine ⟨hnone, ?_⟩
  rw [h.reached.stored _ _ hfind, met_of_entryOf_none hnone]

theorem newUsers_append_of_some (h : index.lookup entry.dn = some u) :
    newUsers freshId realmId providerId syncedAt index (done ++ [entry]) =
      newUsers freshId realmId providerId syncedAt index done := by
  rw [newUsers, List.filter_append, List.filter_singleton, h]
  exact congrArg _ (List.append_nil _)

theorem scimUserFromLdapEntry_id (id : String) :
    (scimUserFromLdapEntry id realmId providerId entry syncedAt).id = id := by
  rw [scimUserFromLdapEntry, applyLdapEntry_eq]

theorem Underway.step (h : Underway freshId realmId providerId syncedAt s index done p)
    (hindex : OwnedIndex s realmId providerId index) (hnew : entry.dn ∉ done.map (·.dn))
    (hok : (syncLdapEntry persist freshId realmId providerId syncedAt p entry).1 = .ok ()) :
    Underway freshId realmId providerId syncedAt s index (done ++ [entry])
      (syncLdapEntry persist freshId realmId providerId syncedAt p entry).2 := by
  have hlookup : p.owned.lookup entry.dn = index.lookup entry.dn := by rw [h.owned, if_neg hnew]
  rw [syncLdapEntry, hlookup] at hok ⊢
  cases hu : index.lookup entry.dn with
  | some u =>
    rw [hu] at hok
    obtain ⟨hfind, howns, hdn⟩ := hindex.sound hu
    obtain ⟨hnone, hcurrent⟩ := h.find_owned hindex hnew hu
    have hself : met realmId providerId syncedAt (done ++ [entry]) u =
        updated providerId syncedAt u entry := by
      rw [entryOf] at hnone
      rw [met, if_pos howns, entryOf, List.find?_append, hnone,
        List.find?_singleton, if_pos (beq_iff_eq.mpr hdn)]
      rfl
    have hother : ∀ w, s.scimUsers.find w.id = some w → w.id ≠ u.id →
        met realmId providerId syncedAt (done ++ [entry]) w =
          met realmId providerId syncedAt done w := by
      intro w hw hne
      refine met_append_of_ne fun hownsw hdnw => hne ?_
      have hlookupw := hindex.complete hw hownsw hdnw
      rw [hu] at hlookupw
      rw [Option.some.inj hlookupw]
    dsimp only at hok ⊢
    split
    · rename_i heq
      refine ⟨?_, lookup_erase_dn h.owned⟩
      rw [newUsers_append_of_some hu]
      refine h.reached.congr fun id w hw => ?_
      by_cases hid : w.id = u.id
      · have hwu : w = u := by
          have hw := Table.find_key hw
          rw [hid, hfind] at hw
          exact (Option.some.inj hw).symm
        rw [hwu, hself, updated, if_pos heq, met_of_entryOf_none hnone]
      · exact hother w (Table.find_key hw) hid
    · rename_i hne
      rw [if_neg hne] at hok
      have hid : (applyLdapEntry u providerId entry syncedAt).id = u.id := by rw [applyLdapEntry_eq]
      refine ⟨?_, lookup_erase_dn h.owned⟩
      obtain ⟨-, hwritten⟩ := of_updateScimUser_ok (hid.symm ▸ hcurrent) hok
      rw [newUsers_append_of_some hu]
      rw [hwritten]
      exact h.reached.update hfind hid (hself.trans (if_neg hne)) hother
  | none =>
    rw [hu] at hok
    obtain ⟨hnone, -, hwritten⟩ := of_createScimUser_ok hok
    refine ⟨?_, lookup_erase_dn h.owned⟩
    rw [newUsers, List.filter_append, List.filter_singleton, hu, List.map_append]
    show Reached s _ _ (createScimUser _ _ _).2
    rw [hwritten]
    refine (h.reached.create hnone).congr fun id w hw => ?_
    refine met_append_of_ne fun hownsw hdnw => ?_
    have hlookupw := hindex.complete (Table.find_key hw) hownsw hdnw
    rw [hu] at hlookupw
    cases hlookupw

end

variable {persist : ScimUser → Persist} {freshId : LdapDirectoryEntry → String}
  {entries : List LdapDirectoryEntry}

section

variable {syncedAt : Nat} {new : List ScimUser}

theorem mem_intoValues {owned : HashMap ScimUser} :
    u ∈ intoValues owned ↔ ∃ dn, owned.lookup dn = some u := by
  simp only [intoValues, List.mem_map, List.mem_insertionSort, Prod.exists, HashMap.mem_pairs,
    exists_eq_right]

theorem Underway.mem_missing (h : Underway freshId realmId providerId syncedAt s index entries p)
    (hindex : OwnedIndex s realmId providerId index)
    (hvalid : ∀ u, s.scimUsers.find u.id = some u → Owns realmId providerId u →
      u.externalId.isSome = true) :
    u ∈ intoValues p.owned ↔ s.scimUsers.find u.id = some u ∧ Owns realmId providerId u ∧
      entryOf entries u = none := by
  rw [mem_intoValues]
  constructor
  · rintro ⟨dn, hdn⟩
    rw [h.owned] at hdn
    split at hdn
    · cases hdn
    · rename_i hmissing
      obtain ⟨hfind, howns, hext⟩ := hindex.sound hdn
      refine ⟨hfind, howns, entryOf_eq_none.mpr fun e he heq => ?_⟩
      rw [hext] at heq
      exact hmissing (Option.some.inj heq ▸ List.mem_map_of_mem he)
  · rintro ⟨hfind, howns, hnone⟩
    obtain ⟨dn, hdn⟩ := Option.isSome_iff_exists.mp (hvalid u hfind howns)
    refine ⟨dn, ?_⟩
    rw [h.owned, if_neg, hindex.complete hfind howns hdn]
    intro hmem
    obtain ⟨e, he, heq⟩ := List.mem_map.mp hmem
    exact entryOf_eq_none.mp hnone e he (hdn.trans (congrArg some heq.symm))

/-- What a user is once some of the missing users are retired. -/
def retiredAmong (realmId providerId : String) (syncedAt : Nat) (entries : List LdapDirectoryEntry)
    (done : List ScimUser) (u : ScimUser) : ScimUser :=
  if u.id ∈ done.map (·.id) then retired syncedAt u else met realmId providerId syncedAt entries u

theorem reached_deactivate {done : List ScimUser}
    (h : Reached s (retiredAmong realmId providerId syncedAt entries done) new p.store)
    (hfind : s.scimUsers.find u.id = some u) (hentry : entryOf entries u = none)
    (hok : (deactivateMissingUser persist syncedAt p u).1 = .ok ()) :
    Reached s (retiredAmong realmId providerId syncedAt entries (done ++ [u])) new
      (deactivateMissingUser persist syncedAt p u).2.store := by
  have hself : retiredAmong realmId providerId syncedAt entries (done ++ [u]) u =
      retired syncedAt u := by
    rw [retiredAmong, if_pos]
    rw [List.map_append]
    exact List.mem_append_cons_self
  have hother : ∀ w, s.scimUsers.find w.id = some w → w.id ≠ u.id →
      retiredAmong realmId providerId syncedAt entries (done ++ [u]) w =
        retiredAmong realmId providerId syncedAt entries done w := by
    intro w _ hne
    rw [retiredAmong, retiredAmong, List.map_append]
    simp only [List.map_singleton, List.mem_append, List.mem_singleton, hne, or_false]
  -- where nothing is written the user is retired as it is
  have hkept : retired syncedAt u = u →
      Reached s (retiredAmong realmId providerId syncedAt entries (done ++ [u])) new p.store := by
    intro hretired
    refine h.congr fun id w hw => ?_
    by_cases hid : w.id = u.id
    · have hwu : w = u := by
        have hw := Table.find_key hw
        rw [hid, hfind] at hw
        exact (Option.some.inj hw).symm
      rw [hwu, hself, retiredAmong, met_of_entryOf_none hentry, hretired, ite_self]
    · exact hother w (Table.find_key hw) hid
  simp only [deactivateMissingUser] at hok ⊢
  split
  · rename_i hinactive
    refine hkept ?_
    rw [retired, Bool.not_eq_eq_eq_not.mp hinactive]
    rfl
  · rename_i hactive
    split
    · rename_i hglass
      refine hkept ?_
      rw [retired, hglass, Bool.not_true, Bool.and_false]
      rfl
    · rename_i hglass
      rw [if_neg hactive, if_neg hglass] at hok
      rw [Bool.not_eq_true, Bool.not_eq_false'] at hactive
      rw [Bool.not_eq_true] at hglass
      have hretired : retired syncedAt u =
          markDeprovisioned { u with active := false } syncedAt := by
        rw [retired, hactive, hglass]
        rfl
      obtain ⟨-, hwritten⟩ : _ ∧ (updateScimUser _ p.store
          (markDeprovisioned { u with active := false } syncedAt)).2 = _ :=
        of_updateScimUser_ok (h.stored u.id u hfind) hok
      rw [hwritten]
      exact h.update hfind rfl (hself.trans hretired) hother

end

variable {options : LdapSyncOptions} {result : LdapSyncResult}

theorem CheckedSnapshot.externalId_isSome (h : CheckedSnapshot s realmId providerId entries)
    (u : ScimUser) (hfind : s.scimUsers.find u.id = some u) (howns : Owns realmId providerId u) :
    u.externalId.isSome = true := by
  have hvalid := h.preflight.valid u (mem_listScimUsers.mpr ⟨hfind, howns.1⟩)
    (by rw [howns.2, Option.isSome_some])
  obtain ⟨dn, hdn, -⟩ := hvalid.2
  rw [hdn, Option.isSome_some]

section

variable (hchecked : CheckedSnapshot s realmId providerId entries)
  (hindex : OwnedIndex s realmId providerId index)
  (h : Underway freshId realmId providerId options.syncedAt s index entries p)

include hchecked hindex h

theorem retiredAmong_missing {id : String} (hu : s.scimUsers.find id = some u) :
    reconciled realmId providerId options.syncedAt entries true u =
      retiredAmong realmId providerId options.syncedAt entries (intoValues p.owned) u := by
  have hfind := Table.find_key hu
  rw [reconciled, retiredAmong]
  by_cases hmissing : Owns realmId providerId u ∧ entryOf entries u = none
  · rw [if_pos ⟨hmissing.1, hmissing.2, rfl⟩, if_pos]
    exact List.mem_map_of_mem
      ((h.mem_missing hindex hchecked.externalId_isSome).mpr ⟨hfind, hmissing⟩)
  · rw [if_neg fun hh => hmissing ⟨hh.1, hh.2.1⟩, if_neg]
    intro hid
    obtain ⟨w, hw, hwid⟩ := List.mem_map.mp hid
    have hw' := (h.mem_missing hindex hchecked.externalId_isSome).mp hw
    have hwu : w = u := by
      have hwfind := hw'.1
      rw [hwid, hfind] at hwfind
      exact (Option.some.inj hwfind).symm
    exact hmissing (hwu ▸ hw'.2)

theorem of_deactivateMissing_ok
    (hok : (deactivateMissing persist options p).1 = .ok result) :
    Reached s (reconciled realmId providerId options.syncedAt entries options.deactivateMissing)
      (newUsers freshId realmId providerId options.syncedAt index entries)
      (deactivateMissing persist options p).2 := by
  cases hmissing : options.deactivateMissing with
  | false =>
    rw [deactivateMissing, hmissing]
    refine h.reached.congr fun id u _ => ?_
    rw [reconciled, if_neg (fun hh => by cases hh.2.2)]
  | true =>
    rw [deactivateMissing, hmissing] at hok ⊢
    dsimp only at hok ⊢
    have hended : (forEach (deactivateMissingUser persist options.syncedAt) p
        (intoValues p.owned)).1 = .ok () := by
      cases hrun : (forEach (deactivateMissingUser persist options.syncedAt) p
          (intoValues p.owned)).1 with
      | error =>
        rw [hrun] at hok
        cases hok
      | ok => rfl
    have hstart : Reached s (retiredAmong realmId providerId options.syncedAt entries [])
        (newUsers freshId realmId providerId options.syncedAt index entries) p.store :=
      h.reached.congr fun _ _ _ => rfl
    have hreached := forEach_invariant
      (I := fun done q =>
        Reached s (retiredAmong realmId providerId options.syncedAt entries done)
          (newUsers freshId realmId providerId options.syncedAt index entries) q.store)
      (fun pre u post hms q hq hstep => by
        have hu := (h.mem_missing hindex hchecked.externalId_isSome).mp
          (hms ▸ List.mem_append_cons_self)
        exact reached_deactivate hq hu.1 hu.2.2 hstep) hstart hended
    exact hreached.congr fun id u hu => retiredAmong_missing hchecked hindex h hu

end

theorem CheckedSnapshot.dn_notMem (h : CheckedSnapshot s realmId providerId entries)
    {pre post : List LdapDirectoryEntry} {e : LdapDirectoryEntry}
    (hentries : entries = pre ++ e :: post) : e.dn ∉ pre.map (·.dn) := by
  intro hmem
  have hdns := h.dns
  rw [hentries, List.map_append, List.nodup_append] at hdns
  exact hdns.2.2 _ hmem _ List.mem_cons_self rfl

/-- A sync that succeeds has passed the checks and written every entry. -/
theorem written_of_syncLdapEntries_ok
    (h : (syncLdapEntries persist freshId realmId providerId s entries options).1 = .ok result) :
    CheckedSnapshot s realmId providerId entries ∧
      (forEach (syncLdapEntry persist freshId realmId providerId options.syncedAt)
        ⟨s, ownedByDn (listScimUsers s realmId) providerId, {}⟩ entries).1 = .ok () := by
  simp only [syncLdapEntries] at h
  split at h
  · cases h
  · rename_i existing hcheck
    obtain ⟨rfl, hchecked⟩ := checkLdapSnapshot_eq_ok.mp hcheck
    refine ⟨hchecked, ?_⟩
    split at h
    · cases h
    · assumption

theorem underway_of_forEach_ok (hchecked : CheckedSnapshot s realmId providerId entries)
    (hindex : OwnedIndex s realmId providerId index) {pre post : List LdapDirectoryEntry}
    (hentries : entries = pre ++ post)
    (hok : (forEach (syncLdapEntry persist freshId realmId providerId options.syncedAt)
      ⟨s, index, {}⟩ pre).1 = .ok ()) :
    Underway freshId realmId providerId options.syncedAt s index pre
      (forEach (syncLdapEntry persist freshId realmId providerId options.syncedAt)
        ⟨s, index, {}⟩ pre).2 := by
  refine forEach_invariant (fun done e rest hpre p hp hstep => ?_) (underway_start {}) hok
  rw [hpre, List.append_assoc] at hentries
  exact hp.step hindex (hchecked.dn_notMem hentries) hstep

theorem of_syncLdapEntries_ok
    (h : (syncLdapEntries persist freshId realmId providerId s entries options).1 = .ok result) :
    CheckedSnapshot s realmId providerId entries ∧
      Reached s (reconciled realmId providerId options.syncedAt entries options.deactivateMissing)
        (newUsers freshId realmId providerId options.syncedAt
          (ownedByDn (listScimUsers s realmId) providerId) entries)
        (syncLdapEntries persist freshId realmId providerId s entries options).2 := by
  obtain ⟨hchecked, hsynced⟩ := written_of_syncLdapEntries_ok h
  have hindex : OwnedIndex s realmId providerId _ := ownedIndex_ownedByDn hchecked.preflight
  have hunderway := underway_of_forEach_ok hchecked hindex (List.append_nil entries).symm hsynced
  refine ⟨hchecked, ?_⟩
  simp only [syncLdapEntries, checkLdapSnapshot_eq_ok.mpr ⟨rfl, hchecked⟩, hsynced] at h ⊢
  exact of_deactivateMissing_ok hchecked hindex hunderway h

end Qid.Directory
