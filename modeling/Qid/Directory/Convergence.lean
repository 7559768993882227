/-
A sync converges, if its renames come in an order that the store accepts.

Names are unique in a realm, and every entry is written on its own. Two users that swap their names,
or a new entry that takes the name of a user that the snapshot no longer has, stop the sync half
way.
-/
import Qid.Directory.Sync

namespace Qid.Directory

open Lib Storage Scim File Json

variable {persist : ScimUser → Persist} {freshId : LdapDirectoryEntry → String}
  {realmId providerId : String} {s t : Store} {entries : List LdapDirectoryEntry}
  {options : LdapSyncOptions} {syncedAt : Nat} {w u : ScimUser} {e d : LdapDirectoryEntry}

/-- That names are unique is an invariant of the store. -/
structure Snapshot (s : Store) (realmId providerId : String) (entries : List LdapDirectoryEntry) :
    Prop where
  names : s.scimUsers.Distinct scimUserIdentity.identity
  preflight : preflightDirectoryOwnership (listScimUsers s realmId) = .ok ()
  dns : (entries.map (·.dn)).Nodup
  uids : (entries.map (·.uid)).Nodup
  unowned : ∀ e ∈ entries, ∀ u ∈ listScimUsers s realmId, u.directoryProviderId = none →
    u.externalId ≠ some e.dn
  foreign : ∀ e ∈ entries, ∀ u ∈ listScimUsers s realmId,
    u.directoryProviderId ≠ some providerId → u.userName ≠ e.uid

/-- Nothing is blank, and an owned user that has the name of an entry is the user of the entry
or has been renamed by an earlier one. -/
structure InOrder (s : Store) (realmId providerId : String) (entries : List LdapDirectoryEntry) :
    Prop where
  provider : isBlank providerId = false
  valid : ∀ e ∈ entries, ValidEntry e
  renamed : ∀ pre e post, entries = pre ++ e :: post → ∀ u ∈ listScimUsers s realmId,
    u.directoryProviderId = some providerId → u.userName = e.uid →
      u.externalId = some e.dn ∨ ∃ d ∈ pre, u.externalId = some d.dn

structure FreshIds (s : Store) (entries : List LdapDirectoryEntry)
    (freshId : LdapDirectoryEntry → String) : Prop where
  unused : ∀ e ∈ entries, s.scimUsers.find (freshId e) = none
  distinct : ∀ e ∈ entries, ∀ d ∈ entries, freshId e = freshId d → e = d

theorem Snapshot.checked (h : Snapshot s realmId providerId entries)
    (horder : InOrder s realmId providerId entries) :
    CheckedSnapshot s realmId providerId entries :=
  ⟨horder.provider, horder.valid, h.dns, (preflight_eq_ok nodup_listScimUsers).mp h.preflight,
    h.unowned⟩

/-! ## Every write is accepted -/

variable {index : HashMap ScimUser}

section

variable {pre post : List LdapDirectoryEntry} {entry : LdapDirectoryEntry} {p : LdapProgress}
  {v : ScimUser} {done : List ScimUser}

theorem of_mem_newUsers (h : v ∈ newUsers freshId realmId providerId syncedAt index entries) :
    ∃ e ∈ entries, index.lookup e.dn = none ∧ v.id = freshId e ∧ v.realmId = realmId ∧
      HasEntry providerId syncedAt e v := by
  rw [newUsers, List.mem_map] at h
  obtain ⟨e, he, rfl⟩ := h
  rw [List.mem_filter, Option.isNone_iff_eq_none] at he
  refine ⟨e, he.1, he.2, scimUserFromLdapEntry_id _, ?_, hasEntry_applyLdapEntry⟩
  rw [scimUserFromLdapEntry, applyLdapEntry_eq]

theorem Reached.of_find {stage : ScimUser → ScimUser} {new : List ScimUser}
    (h : Reached s stage new t) (hw : t.scimUsers.find w.id = some w) :
    (∃ u, s.scimUsers.find w.id = some u ∧ w = stage u) ∨
      s.scimUsers.find w.id = none ∧ w ∈ new := by
  cases hs : s.scimUsers.find w.id with
  | some u =>
    rw [h.stored _ _ hs] at hw
    exact Or.inl ⟨u, rfl, (Option.some.inj hw).symm⟩
  | none =>
    rw [h.created _ hs] at hw
    exact Or.inr ⟨rfl, List.mem_of_find?_eq_some hw⟩

section

variable (h : Snapshot s realmId providerId entries)
include h

/-- The names of the entries before this one are other names. -/
theorem Snapshot.uid_ne (hentries : entries = pre ++ entry :: post) (hd : d ∈ pre) :
    d.uid ≠ entry.uid := by
  have huids := h.uids
  rw [hentries, List.map_append, List.nodup_append] at huids
  exact huids.2.2 _ (List.mem_map_of_mem hd) _ List.mem_cons_self

theorem Underway.name_free (horder : InOrder s realmId providerId entries)
    (hindex : OwnedIndex s realmId providerId index) (hentries : entries = pre ++ entry :: post)
    (hp : Underway freshId realmId providerId syncedAt s index pre p)
    (hname : v.userName = entry.uid) (hrealm : v.realmId = realmId)
    (hid : ∀ u, index.lookup entry.dn = some u → v.id = u.id) :
    p.store.scimUsers.Free scimUserIdentity.identity v := by
  intro w hw hne i hi hi'
  rw [scimUserIdentity_eq_some] at hi hi'
  have hwname : w.userName = entry.uid := hi'.2.trans (hi.2.symm.trans hname)
  have hwrealm : w.realmId = realmId := hi'.1.trans (hi.1.symm.trans hrealm)
  rcases hp.reached.of_find hw with ⟨u, hu, rfl⟩ | ⟨-, hnew⟩
  · have hufind := Table.find_key hu
    by_cases howns : Owns realmId providerId u
    · cases hentry : entryOf pre u with
      | some =>
        rw [met, if_pos howns, hentry] at hwname
        exact h.uid_ne hentries (of_entryOf_eq_some hentry).1
          (hasEntry_updated.name.symm.trans hwname)
      | none =>
        rw [met_of_entryOf_none hentry] at hwname hne
        have hmem := mem_listScimUsers.mpr ⟨hufind, howns.1⟩
        rcases horder.renamed pre entry post hentries u hmem howns.2 hwname with
          hdn | ⟨d, hd, hdn⟩
        · exact hne (hid u (hindex.complete hufind howns hdn)).symm
        · exact entryOf_eq_none.mp hentry d hd hdn
    · rw [met_of_not_owns howns] at hwname hwrealm
      exact h.foreign entry (hentries ▸ List.mem_append_cons_self) u
        (mem_listScimUsers.mpr ⟨hufind, hwrealm⟩) (fun howner => howns ⟨hwrealm, howner⟩) hwname
  · obtain ⟨d, hd, -, -, -, hentry⟩ := of_mem_newUsers hnew
    exact h.uid_ne hentries hd (hentry.name.symm.trans hwname)

theorem syncLdapEntry_ok (horder : InOrder s realmId providerId entries)
    (hfresh : FreshIds s entries freshId) (hsaved : ∀ u, (persist u).result = .ok ())
    (hindex : OwnedIndex s realmId providerId index) (hentries : entries = pre ++ entry :: post)
    (hp : Underway freshId realmId providerId syncedAt s index pre p) :
    (syncLdapEntry persist freshId realmId providerId syncedAt p entry).1 = .ok () := by
  have hmem : entry ∈ entries := hentries ▸ List.mem_append_cons_self
  have hdn := (h.checked horder).dn_notMem hentries
  have hlookup : p.owned.lookup entry.dn = index.lookup entry.dn := by rw [hp.owned, if_neg hdn]
  simp only [syncLdapEntry, hlookup]
  cases hu : index.lookup entry.dn with
  | some u =>
    dsimp only
    split
    · rfl
    · obtain ⟨-, hcurrent⟩ := hp.find_owned hindex hdn hu
      obtain ⟨-, howns, -⟩ := hindex.sound hu
      have hid : (applyLdapEntry u providerId entry syncedAt).id = u.id := by rw [applyLdapEntry_eq]
      have hrealm : (applyLdapEntry u providerId entry syncedAt).realmId = u.realmId := by
        rw [applyLdapEntry_eq]
      have hfree : p.store.scimUsers.Free scimUserIdentity.identity
          (applyLdapEntry u providerId entry syncedAt) := by
        refine Underway.name_free h horder hindex hentries hp hasEntry_applyLdapEntry.name
          (hrealm.trans howns.1) fun w hw => ?_
        rw [hu] at hw
        rw [hid, Option.some.inj hw]
      rw [updateScimUser_eq_ok (hid.symm ▸ hcurrent) hrealm.symm hfree (hsaved _)]
  | none =>
    have hid : (scimUserFromLdapEntry (freshId entry) realmId providerId entry syncedAt).id =
        freshId entry := scimUserFromLdapEntry_id _
    have hrealm : (scimUserFromLdapEntry (freshId entry) realmId providerId entry
        syncedAt).realmId = realmId := by
      rw [scimUserFromLdapEntry, applyLdapEntry_eq]
    have hnew : p.store.scimUsers.find (freshId entry) = none := by
      rw [hp.reached.created _ (hfresh.unused entry hmem), List.find?_eq_none]
      intro v hv hvid
      obtain ⟨d, hd, -, hdid, -⟩ := of_mem_newUsers hv
      have hdentries : d ∈ entries := by
        rw [hentries]
        exact List.mem_append_left _ hd
      have heq := hfresh.distinct d hdentries entry hmem (hdid.symm.trans (beq_iff_eq.mp hvid))
      exact h.uid_ne hentries hd (congrArg LdapDirectoryEntry.uid heq)
    have hfree : p.store.scimUsers.Free scimUserIdentity.identity
        (scimUserFromLdapEntry (freshId entry) realmId providerId entry syncedAt) := by
      refine Underway.name_free h horder hindex hentries hp hasEntry_applyLdapEntry.name hrealm
        fun w hw => ?_
      rw [hu] at hw
      cases hw
    rw [createScimUser, insertNew_eq_ok (hid.symm ▸ hnew) hfree, hsaved]

end

/-- An entry that was written, or had nothing to write, has found its name free. -/
theorem renamed_of_syncLdapEntry_ok (h : Snapshot s realmId providerId entries)
    (hindex : OwnedIndex s realmId providerId index) (hdn : entry.dn ∉ pre.map (·.dn))
    (hp : Underway freshId realmId providerId syncedAt s index pre p)
    (hok : (syncLdapEntry persist freshId realmId providerId syncedAt p entry).1 = .ok ())
    (hu : u ∈ listScimUsers s realmId) (hname : u.userName = entry.uid) :
    u.externalId = some entry.dn ∨ ∃ d ∈ pre, u.externalId = some d.dn := by
  obtain ⟨hfind, hrealm⟩ := mem_listScimUsers.mp hu
  by_contra hnot
  obtain ⟨hother, hearlier⟩ := not_or.mp hnot
  have hnone : entryOf pre u = none := entryOf_eq_none.mpr fun d hd heq => hearlier ⟨d, hd, heq⟩
  have hcurrent : p.store.scimUsers.find u.id = some u := by
    rw [hp.reached.stored _ _ hfind, met_of_entryOf_none hnone]
  have htaken : ∀ v : ScimUser, v.userName = entry.uid → v.realmId = realmId → v.id ≠ u.id →
      ¬p.store.scimUsers.Free scimUserIdentity.identity v := fun v hvname hvrealm hne hfree =>
    hfree u hcurrent hne.symm (realmId, entry.uid)
      (scimUserIdentity_eq_some.mpr ⟨hvrealm, hvname⟩)
      (scimUserIdentity_eq_some.mpr ⟨hrealm, hname⟩)
  have hlookup : p.owned.lookup entry.dn = index.lookup entry.dn := by rw [hp.owned, if_neg hdn]
  simp only [syncLdapEntry, hlookup] at hok
  cases hw : index.lookup entry.dn with
  | some w =>
    obtain ⟨hwfind, hwowns, hwdn⟩ := hindex.sound hw
    have hne : w ≠ u := fun heq => hother (heq ▸ hwdn)
    simp only [hw] at hok
    split at hok
    · rename_i hsame
      have hwname := (hasEntry_applyLdapEntry.of_semanticEq hsame).name
      exact hne (h.names w u hwfind hfind (realmId, entry.uid)
        (scimUserIdentity_eq_some.mpr ⟨hwowns.1, hwname⟩)
        (scimUserIdentity_eq_some.mpr ⟨hrealm, hname⟩))
    · have hid : (applyLdapEntry w providerId entry syncedAt).id = w.id := by rw [applyLdapEntry_eq]
      have hwrealm : (applyLdapEntry w providerId entry syncedAt).realmId = w.realmId := by
        rw [applyLdapEntry_eq]
      have hwcurrent := (hp.find_owned hindex hdn hw).2
      refine htaken _ hasEntry_applyLdapEntry.name (hwrealm.trans hwowns.1) (fun heq => ?_)
        (of_updateScimUser_ok (hid.symm ▸ hwcurrent) hok).1
      rw [← hid, heq, hcurrent] at hwcurrent
      exact hne (Option.some.inj hwcurrent).symm
  | none =>
    simp only [hw] at hok
    obtain ⟨hnew, hfree, -⟩ := of_createScimUser_ok hok
    refine htaken (scimUserFromLdapEntry (freshId entry) realmId providerId entry syncedAt)
      hasEntry_applyLdapEntry.name ?_ (fun heq => ?_) hfree
    · rw [scimUserFromLdapEntry, applyLdapEntry_eq]
    · rw [heq, hcurrent] at hnew
      cases hnew

theorem inOrder_of_syncLdapEntries_ok {result : LdapSyncResult}
    (h : Snapshot s realmId providerId entries)
    (hok : (syncLdapEntries persist freshId realmId providerId s entries options).1 =
      .ok result) : InOrder s realmId providerId entries := by
  obtain ⟨hchecked, hsynced⟩ := written_of_syncLdapEntries_ok hok
  have hindex : OwnedIndex s realmId providerId _ := ownedIndex_ownedByDn hchecked.preflight
  refine ⟨hchecked.provider, hchecked.valid, fun pre e post hentries u hu _ hname => ?_⟩
  have hdn := hchecked.dn_notMem hentries
  rw [hentries] at hsynced
  obtain ⟨hpre, hrest⟩ := of_forEach_append_ok hsynced
  exact renamed_of_syncLdapEntry_ok h hindex hdn
    (underway_of_forEach_ok hchecked hindex hentries hpre) (of_forEach_cons_ok hrest) hu hname

theorem InOrder.name_ne_of_missing (horder : InOrder s realmId providerId entries)
    (hfind : s.scimUsers.find u.id = some u) (howns : Owns realmId providerId u)
    (hmissing : entryOf entries u = none) (hentry : entry ∈ entries) : u.userName ≠ entry.uid := by
  intro hname
  obtain ⟨pre, post, hentries⟩ := List.append_of_mem hentry
  rw [entryOf_eq_none] at hmissing
  rcases horder.renamed pre entry post hentries u (mem_listScimUsers.mpr ⟨hfind, howns.1⟩) howns.2
    hname with hdn | ⟨d, hd, hdn⟩
  · exact hmissing entry hentry hdn
  · refine hmissing d ?_ hdn
    rw [hentries]
    exact List.mem_append_left _ hd

theorem retiredAmong_userName (x : ScimUser) :
    (∃ e ∈ entries, (retiredAmong realmId providerId syncedAt entries done x).userName = e.uid) ∨
      (retiredAmong realmId providerId syncedAt entries done x).userName = x.userName := by
  rw [retiredAmong]
  split
  · rw [retired]
    split <;> exact Or.inr rfl
  · rw [met]
    split
    · cases hentry : entryOf entries x with
      | some e => exact Or.inl ⟨e, (of_entryOf_eq_some hentry).1, hasEntry_updated.name⟩
      | none => exact Or.inr rfl
    · exact Or.inr rfl

theorem sameIdentity_retiredAmong (x : ScimUser) :
    SameIdentity x (retiredAmong realmId providerId syncedAt entries done x) := by
  rw [retiredAmong]
  split
  · exact sameIdentity_retired
  · rw [met]
    split
    · rename_i howns
      cases hentry : entryOf entries x with
      | some => exact sameIdentity_updated howns (of_entryOf_eq_some hentry).2
      | none => exact SameIdentity.refl x
    · exact SameIdentity.refl x

variable (h : Snapshot s realmId providerId entries) (horder : InOrder s realmId providerId entries)
  (hp : Reached s (retiredAmong realmId providerId syncedAt entries done)
    (newUsers freshId realmId providerId syncedAt index entries) p.store)
  (hfind : s.scimUsers.find u.id = some u) (howns : Owns realmId providerId u)
  (hmissing : entryOf entries u = none)
include h horder hp hfind howns hmissing

/-- While missing users are retired, the name of one of them is free but for itself. -/
theorem missing_name_free (hv : SameIdentity u v) (hvname : v.userName = u.userName) :
    p.store.scimUsers.Free scimUserIdentity.identity v := by
  intro w hw hne i hi hi'
  rw [scimUserIdentity_eq_some] at hi hi'
  have hname : w.userName = u.userName := hi'.2.trans (hi.2.symm.trans hvname)
  have hwrealm : w.realmId = u.realmId := hi'.1.trans (hi.1.symm.trans hv.realm)
  rcases hp.of_find hw with ⟨x, hx, rfl⟩ | ⟨-, hnew⟩
  · have hsame : SameIdentity x (retiredAmong realmId providerId syncedAt entries done x) :=
      sameIdentity_retiredAmong x
    rcases retiredAmong_userName x with ⟨e, he, hentry⟩ | hown
    · exact horder.name_ne_of_missing hfind howns hmissing he (hname.symm.trans hentry)
    · have hxu : x = u := h.names x u (Table.find_key hx) hfind (u.realmId, u.userName)
        (scimUserIdentity_eq_some.mpr ⟨hsame.realm.symm.trans hwrealm, hown.symm.trans hname⟩)
        (scimUserIdentity_eq_some.mpr ⟨rfl, rfl⟩)
      exact hne (hsame.id.trans ((congrArg ScimUser.id hxu).trans hv.id.symm))
  · obtain ⟨e, he, -, -, -, hentry⟩ := of_mem_newUsers hnew
    exact horder.name_ne_of_missing hfind howns hmissing he (hname.symm.trans hentry.name)

theorem deactivateMissingUser_ok (hsaved : ∀ u, (persist u).result = .ok ()) :
    (deactivateMissingUser persist syncedAt p u).1 = .ok () := by
  simp only [deactivateMissingUser]
  split
  · rfl
  · split
    · rfl
    · have hsame : SameIdentity u (retiredAmong realmId providerId syncedAt entries done u) :=
        sameIdentity_retiredAmong u
      have hfree := missing_name_free h horder hp hfind howns hmissing ⟨rfl, rfl, rfl, rfl⟩ rfl
      have hwritten : ∀ saved : Persist, saved.result = .ok () →
          updateScimUser saved p.store
            (markDeprovisioned { u with active := false } syncedAt) = _ :=
        fun _ => updateScimUser_eq_ok (hp.stored u.id u hfind) hsame.realm hfree
      rw [hwritten _ (hsaved _)]

end

theorem syncLdapEntries_ok (h : Snapshot s realmId providerId entries)
    (horder : InOrder s realmId providerId entries) (hfresh : FreshIds s entries freshId)
    (hsaved : ∀ u, (persist u).result = .ok ()) :
    ∃ result,
      (syncLdapEntries persist freshId realmId providerId s entries options).1 = .ok result := by
  have hchecked := h.checked horder
  have hindex : OwnedIndex s realmId providerId _ := ownedIndex_ownedByDn hchecked.preflight
  have hstep : ∀ pre e post, entries = pre ++ e :: post → ∀ p,
      Underway freshId realmId providerId options.syncedAt s
        (ownedByDn (listScimUsers s realmId) providerId) pre p →
      (syncLdapEntry persist freshId realmId providerId options.syncedAt p e).1 = .ok () ∧
        Underway freshId realmId providerId options.syncedAt s
          (ownedByDn (listScimUsers s realmId) providerId) (pre ++ [e])
          (syncLdapEntry persist freshId realmId providerId options.syncedAt p e).2 := by
    intro pre e post hentries p hp
    have hok := syncLdapEntry_ok h horder hfresh hsaved hindex hentries hp
    exact ⟨hok, hp.step hindex (hchecked.dn_notMem hentries) hok⟩
  obtain ⟨hsynced, hunderway⟩ := forEach_ok hstep (underway_start {})
  simp only [syncLdapEntries, checkLdapSnapshot_eq_ok.mpr ⟨rfl, hchecked⟩, hsynced]
  rw [deactivateMissing]
  split
  · have hended := forEach_ok (f := deactivateMissingUser persist options.syncedAt)
      (I := fun done q =>
        Reached s (retiredAmong realmId providerId options.syncedAt entries done)
          (newUsers freshId realmId providerId options.syncedAt
            (ownedByDn (listScimUsers s realmId) providerId) entries) q.store)
      (fun pre u post hms q hq => by
        obtain ⟨hfind, howns, hnone⟩ :=
          (hunderway.mem_missing hindex hchecked.externalId_isSome).mp
            (hms ▸ List.mem_append_cons_self)
        have hok := deactivateMissingUser_ok h horder hq hfind howns hnone hsaved
        exact ⟨hok, reached_deactivate hq hfind hnone hok⟩)
      (hunderway.reached.congr fun _ _ _ => rfl)
    dsimp only
    rw [hended.1]
    exact ⟨_, rfl⟩
  · exact ⟨_, rfl⟩

/-! ## A second sync -/

/-- A sync writes nothing where every entry has its user and no missing user is to be retired. -/
theorem syncLdapEntries_settled (hchecked : CheckedSnapshot s realmId providerId entries)
    (hentries : ∀ e ∈ entries, ∃ u, s.scimUsers.find u.id = some u ∧ Owns realmId providerId u ∧
      HasEntry providerId options.syncedAt e u)
    (hmissing : ∀ u, s.scimUsers.find u.id = some u → Owns realmId providerId u →
      entryOf entries u = none → u.active = false ∨ isBreakGlassUser u = true) :
    ∃ result, syncLdapEntries persist freshId realmId providerId s entries options =
      (.ok result, s) := by
  have hindex : OwnedIndex s realmId providerId _ := ownedIndex_ownedByDn hchecked.preflight
  obtain ⟨hsynced, hunderway, hsame⟩ := forEach_ok (l := entries)
    (I := fun done p => Underway freshId realmId providerId options.syncedAt s
      (ownedByDn (listScimUsers s realmId) providerId) done p ∧ p.store = s)
    (fun pre e post hsplit p hp => by
      obtain ⟨u, hfind, howns, hentry⟩ := hentries e (hsplit ▸ List.mem_append_cons_self)
      have hnew := hchecked.dn_notMem hsplit
      have hlookup : p.owned.lookup e.dn = some u := by
        rw [hp.1.owned, if_neg hnew, hindex.complete hfind howns hentry.dn]
      -- an entry whose user has its attributes writes nothing
      have hsettled : (syncLdapEntry persist freshId realmId providerId options.syncedAt p e).1 =
          .ok () ∧ (syncLdapEntry persist freshId realmId providerId options.syncedAt p e).2.store =
          p.store := by
        simp only [syncLdapEntry, hlookup, applyLdapEntry_of_hasEntry hentry,
          scimUserSemanticEq_self, if_true]
        exact ⟨trivial, trivial⟩
      exact ⟨hsettled.1, hp.1.step hindex hnew hsettled.1, hsettled.2.trans hp.2⟩)
    ⟨underway_start {}, rfl⟩
  simp only [syncLdapEntries, checkLdapSnapshot_eq_ok.mpr ⟨rfl, hchecked⟩, hsynced]
  rw [deactivateMissing]
  split
  · obtain ⟨hended, hstore⟩ := forEach_ok
      (f := deactivateMissingUser persist options.syncedAt) (I := fun _ q => q.store = s)
      (fun pre u post hms q hq => by
        obtain ⟨hfind, howns, hnone⟩ :=
          (hunderway.mem_missing hindex hchecked.externalId_isSome).mp
            (hms ▸ List.mem_append_cons_self)
        rw [deactivateMissingUser]
        rcases hmissing u hfind howns hnone with hinactive | hglass
        · rw [hinactive]
          exact ⟨rfl, hq⟩
        · split <;> exact ⟨rfl, hq⟩) hsame
    dsimp only
    rw [hended, hstore]
    exact ⟨_, rfl⟩
  · rw [hsame]
    exact ⟨_, rfl⟩

/-! ## The store after a sync -/

section

variable (hchecked : CheckedSnapshot s realmId providerId entries)
  (hindex : OwnedIndex s realmId providerId index)
  (hreached : Reached s
    (reconciled realmId providerId options.syncedAt entries options.deactivateMissing)
    (newUsers freshId realmId providerId options.syncedAt index entries) t)

include hreached in
/-- A user after a sync is an outcome with the identity it had, or new. -/
theorem of_find_after (hw : t.scimUsers.find w.id = some w) :
    (∃ u, s.scimUsers.find u.id = some u ∧ SameIdentity u w ∧
      w = reconciled realmId providerId options.syncedAt entries options.deactivateMissing u) ∨
    ∃ e ∈ entries, index.lookup e.dn = none ∧ w.id = freshId e ∧ w.realmId = realmId ∧
      HasEntry providerId options.syncedAt e w := by
  rcases hreached.of_find hw with ⟨u, hu, rfl⟩ | ⟨-, hnew⟩
  · exact Or.inl ⟨u, Table.find_key hu, sameIdentity_reconciled _ u, rfl⟩
  · exact Or.inr (of_mem_newUsers hnew)

include hchecked hindex in
/-- A user that had its identity before does not share the key of a new one. -/
theorem ownershipKey_ne {x : ScimUser} (hu : s.scimUsers.find u.id = some u)
    (hsame : SameIdentity u w) (hrealm : w.realmId = realmId)
    (howned : w.directoryProviderId.isSome = true) (hnone : index.lookup e.dn = none)
    (hx : HasEntry providerId options.syncedAt e x) : ownershipKey w ≠ ownershipKey x := by
  intro hkey
  have hmem := mem_listScimUsers.mpr ⟨hu, hsame.realm.symm.trans hrealm⟩
  obtain ⟨owner, howner⟩ := Option.isSome_iff_exists.mp howned
  obtain ⟨dn, hdn, -⟩ := (hchecked.preflight.valid u hmem (by rw [← hsame.owner]; exact howned)).2
  rw [ownershipKey, ownershipKey, howner, hsame.dn, hdn, hx.owner, hx.dn, Prod.mk.injEq] at hkey
  have howns : Owns realmId providerId u := by
    refine ⟨hsame.realm.symm.trans hrealm, ?_⟩
    rw [← hsame.owner, howner]
    exact congrArg some hkey.1
  -- the index would have the user under the DN of the entry
  have hfound : index.lookup e.dn = _ := hindex.complete hu howns (hdn.trans (congrArg some hkey.2))
  rw [hfound] at hnone
  cases hnone

include hchecked hindex hreached

theorem checkedSnapshot_after : CheckedSnapshot t realmId providerId entries := by
  refine ⟨hchecked.provider, hchecked.valid, hchecked.dns, ⟨fun w hw howned => ?_, ?_⟩, ?_⟩
  · rw [mem_listScimUsers] at hw
    rcases of_find_after hreached hw.1 with ⟨u, hu, hsame, -⟩ | ⟨e, he, -, -, -, hentry⟩
    · rw [ValidOwner, hsame.owner, hsame.dn]
      exact hchecked.preflight.valid u
        (mem_listScimUsers.mpr ⟨hu, hsame.realm.symm.trans hw.2⟩) (hsame.owner ▸ howned)
    · rw [ValidOwner, hentry.owner, hentry.dn]
      exact ⟨hchecked.provider, e.dn, rfl, (hchecked.valid e he).1⟩
  · intro w hw x hx how hox hkey
    rw [mem_listScimUsers] at hw hx
    rcases of_find_after hreached hw.1 with ⟨u, hu, hsame, hwu⟩ | ⟨d, hd, hnone, hid, -, hentry⟩
    · rcases of_find_after hreached hx.1 with
        ⟨v, hv, hsame', hxv⟩ | ⟨e, -, hnone', -, -, hentry'⟩
      · have huv : u = v := by
          refine hchecked.preflight.distinct u
            (mem_listScimUsers.mpr ⟨hu, hsame.realm.symm.trans hw.2⟩) v
            (mem_listScimUsers.mpr ⟨hv, hsame'.realm.symm.trans hx.2⟩)
            (hsame.owner ▸ how) (hsame'.owner ▸ hox) ?_
          rw [ownershipKey, ownershipKey, hsame.owner, hsame.dn, hsame'.owner, hsame'.dn] at hkey
          exact hkey
        rw [hwu, hxv, huv]
      · exact absurd hkey (ownershipKey_ne hchecked hindex hu hsame hw.2 how hnone' hentry')
    · rcases of_find_after hreached hx.1 with
        ⟨v, hv, hsame', -⟩ | ⟨e, he, -, hid', -, hentry'⟩
      · exact absurd hkey.symm (ownershipKey_ne hchecked hindex hv hsame' hx.2 hox hnone hentry)
      · rw [ownershipKey, ownershipKey, hentry.dn, hentry'.dn, Prod.mk.injEq] at hkey
        have hde : d = e := List.inj_on_of_nodup_map hchecked.dns hd he hkey.2
        have hwx : w.id = x.id := by rw [hid, hid', hde]
        have hfound := hw.1
        rw [hwx, hx.1] at hfound
        exact (Option.some.inj hfound).symm
  · intro e he w hw hnone
    rw [mem_listScimUsers] at hw
    rcases of_find_after hreached hw.1 with ⟨u, hu, hsame, -⟩ | ⟨d, -, -, -, -, hentry⟩
    · rw [hsame.dn]
      exact hchecked.unowned e he u
        (mem_listScimUsers.mpr ⟨hu, hsame.realm.symm.trans hw.2⟩) (hsame.owner.symm.trans hnone)
    · rw [hentry.owner] at hnone
      cases hnone

theorem entry_has_user (hfresh : FreshIds s entries freshId) (he : e ∈ entries) :
    ∃ u, t.scimUsers.find u.id = some u ∧ Owns realmId providerId u ∧
      HasEntry providerId options.syncedAt e u := by
  cases hlookup : index.lookup e.dn with
  | some u =>
    obtain ⟨hfind, howns, hdn⟩ := hindex.sound hlookup
    have houtcome : Outcome realmId providerId options.syncedAt entries
        options.deactivateMissing u _ := outcome_reconciled options.deactivateMissing u
    have hstored := hreached.stored _ _ hfind
    have hsame : SameIdentity u
        (reconciled realmId providerId options.syncedAt entries options.deactivateMissing u) :=
      sameIdentity_reconciled options.deactivateMissing u
    generalize reconciled realmId providerId options.syncedAt entries options.deactivateMissing
      u = v at houtcome hstored hsame
    have hsome : entryOf entries u ≠ none := fun hnone => entryOf_eq_none.mp hnone e he hdn
    refine ⟨v, by rw [hsame.id]; exact hstored,
      ⟨hsame.realm.trans howns.1, hsame.owner.trans howns.2⟩, ?_⟩
    cases houtcome with
    | updated d howns' hentry =>
      obtain ⟨hd, hdn'⟩ := of_entryOf_eq_some hentry
      rw [List.inj_on_of_nodup_map hchecked.dns he hd (Option.some.inj (hdn.symm.trans hdn'))]
      exact hasEntry_updated
    | retired _ hnone => exact absurd hnone hsome
    | kept h => exact absurd (h howns).1 hsome
  | none =>
    have hid : (scimUserFromLdapEntry (freshId e) realmId providerId e options.syncedAt).id =
        freshId e := scimUserFromLdapEntry_id _
    have hnew : scimUserFromLdapEntry (freshId e) realmId providerId e options.syncedAt ∈
        newUsers freshId realmId providerId options.syncedAt index entries := by
      exact List.mem_map_of_mem (List.mem_filter.mpr ⟨he, Option.isNone_iff_eq_none.mpr hlookup⟩)
    have hstored : t.scimUsers.find (freshId e) = some
        (scimUserFromLdapEntry (freshId e) realmId providerId e options.syncedAt) := by
      rw [hreached.created _ (hfresh.unused e he)]
      -- the id leads to the entry, and the entry to the user
      cases hfound : (newUsers freshId realmId providerId options.syncedAt index entries).find?
          fun v => v.id == freshId e with
      | none => exact absurd (beq_iff_eq.mpr hid) (List.find?_eq_none.mp hfound _ hnew)
      | some =>
        have hmem := List.mem_of_find?_eq_some hfound
        have hvid := List.find?_some hfound
        rw [newUsers, List.mem_map] at hmem
        obtain ⟨d, hd, rfl⟩ := hmem
        rw [scimUserFromLdapEntry_id, beq_iff_eq] at hvid
        rw [hfresh.distinct d (List.mem_filter.mp hd).1 e he hvid]
    refine ⟨scimUserFromLdapEntry (freshId e) realmId providerId e options.syncedAt, ?_,
      ⟨?_, hasEntry_applyLdapEntry.owner⟩, hasEntry_applyLdapEntry⟩
    · rw [hid]
      exact hstored
    · rw [scimUserFromLdapEntry, applyLdapEntry_eq]

omit hchecked hindex in
/-- A missing user is inactive after a sync that retires, or kept for emergencies. -/
theorem missing_after (hmissing : options.deactivateMissing = true)
    (hw : t.scimUsers.find w.id = some w) (howns : Owns realmId providerId w)
    (hnone : entryOf entries w = none) : w.active = false ∨ isBreakGlassUser w = true := by
  rcases of_find_after hreached hw with ⟨u, hu, hsame, hwu⟩ | ⟨e, he, -, -, -, hentry⟩
  · have houtcome := hwu ▸ outcome_reconciled options.deactivateMissing u
    have hunone : entryOf entries u = none := by
      rw [entryOf, hsame.dn] at hnone
      exact hnone
    cases houtcome with
    | updated e _ hentry =>
      rw [hunone] at hentry
      cases hentry
    | retired =>
      rw [retired]
      cases hactive : u.active with
      | false => exact Or.inl hactive
      | true =>
        cases hglass : isBreakGlassUser u with
        | false => exact Or.inl rfl
        | true => exact Or.inr hglass
    | kept h =>
      have := (h howns).2
      rw [hmissing] at this
      cases this
  · exact absurd hentry.dn (entryOf_eq_none.mp hnone e he)

omit hchecked hindex in
theorem foreign_unchanged (howns : ¬ Owns realmId providerId u) :
    t.scimUsers.find u.id = some u ↔ s.scimUsers.find u.id = some u := by
  have hkept : ∀ v, ¬ Owns realmId providerId v →
      reconciled realmId providerId options.syncedAt entries options.deactivateMissing v = v := by
    intro v hv
    rw [reconciled, if_neg fun hh => hv hh.1, met_of_not_owns hv]
  constructor
  · intro ht
    rcases of_find_after hreached ht with ⟨v, hv, hsame, huv⟩ | ⟨e, -, -, -, hrealm, hentry⟩
    · have hvowns : ¬ Owns realmId providerId v :=
        fun h => howns ⟨hsame.realm.trans h.1, hsame.owner.trans h.2⟩
      rw [hkept v hvowns] at huv
      rw [huv]
      exact hv
    · exact absurd ⟨hrealm, hentry.owner⟩ howns
  · intro hs
    rw [hreached.stored _ _ hs, hkept u howns]

end

/-- Every entry has exactly one owned user, with its attributes; the active owned users without one
are deactivated, but for those kept for emergencies; no other user has changed; and the same sync
again changes nothing. -/
structure Converged (s after : Store) (realmId providerId : String)
    (entries : List LdapDirectoryEntry) (syncedAt : Nat) : Prop where
  matched : ∀ e ∈ entries, ∃ u, after.scimUsers.find u.id = some u ∧ Owns realmId providerId u ∧
    HasEntry providerId syncedAt e u ∧
    ∀ v, after.scimUsers.find v.id = some v → Owns realmId providerId v →
      v.externalId = some e.dn → v = u
  deactivated : ∀ u, s.scimUsers.find u.id = some u → Owns realmId providerId u →
    (∀ e ∈ entries, u.externalId ≠ some e.dn) → u.active = true → isBreakGlassUser u = false →
    ∃ u', after.scimUsers.find u.id = some u' ∧ u'.active = false ∧
      u'.deprovisionedAt = some syncedAt
  foreign : ∀ u, ¬ Owns realmId providerId u →
    (after.scimUsers.find u.id = some u ↔ s.scimUsers.find u.id = some u)
  settled : ∀ persist' freshId', ∃ result,
    syncLdapEntries persist' freshId' realmId providerId after entries ⟨true, syncedAt⟩ =
      (.ok result, after)

/-- In a realm that passes the preflight, a sync with a snapshot with distinct DNs and names, none
of them that of another's user, succeeds and converges exactly if nothing in it is blank and its
renames are in order. -/
theorem ldap_sync_converges (h : Snapshot s realmId providerId entries)
    (hfresh : FreshIds s entries freshId) (hsaved : ∀ u, (persist u).result = .ok ())
    (syncedAt : Nat) :
    (∃ result after, syncLdapEntries persist freshId realmId providerId s entries
        ⟨true, syncedAt⟩ = (.ok result, after) ∧
      Converged s after realmId providerId entries syncedAt) ↔
    InOrder s realmId providerId entries := by
  constructor
  · rintro ⟨result, after, hrun, -⟩
    exact inOrder_of_syncLdapEntries_ok h (congrArg Prod.fst hrun)
  intro horder
  have hsucceeds : ∃ result, (syncLdapEntries persist freshId realmId providerId s entries
      ⟨true, syncedAt⟩).1 = .ok result := syncLdapEntries_ok h horder hfresh hsaved
  obtain ⟨result, hok⟩ := hsucceeds
  obtain ⟨hchecked, hreached⟩ := of_syncLdapEntries_ok hok
  generalize syncLdapEntries persist freshId realmId providerId s entries ⟨true, syncedAt⟩ = run
    at hok hreached ⊢
  have hindex : OwnedIndex s realmId providerId _ := ownedIndex_ownedByDn hchecked.preflight
  have hagain := checkedSnapshot_after hchecked hindex hreached
  refine ⟨result, run.2, Prod.ext hok rfl, fun e he => ?_, fun u hu howns hdn hactive hglass => ?_,
    fun u howns => foreign_unchanged hreached howns, fun persist' freshId' => ?_⟩
  · obtain ⟨u, hu, howns, hentry⟩ := entry_has_user hchecked hindex hreached hfresh he
    exact ⟨u, hu, howns, hentry, fun v hv hownsv hdn =>
      hagain.preflight.eq_of_dn hv hu hownsv howns hdn hentry.dn⟩
  · refine ⟨_, hreached.stored _ _ hu, ?_⟩
    rw [reconciled, if_pos ⟨howns, entryOf_eq_none.mpr hdn, rfl⟩, retired, hactive, hglass]
    exact ⟨rfl, rfl⟩
  · refine syncLdapEntries_settled hagain
      (fun e he => entry_has_user hchecked hindex hreached hfresh he)
      (fun w hw howns hnone => missing_after hreached rfl hw howns hnone)

def ldapUser (id dn userName : String) : ScimUser :=
  { id := id, realmId := "r", externalId := some dn, userName := userName, nameJson := .object []
    emailsJson := .array [], enterpriseJson := .object [], directoryProviderId := some "p"
    deprovisionedAt := none, active := true }

def ldapEntry (dn uid : String) : LdapDirectoryEntry :=
  { dn := dn, uid := uid, mail := none, displayName := none, department := none
    managerDn := none, enabled := true }

/-- A new entry takes the name of a user that is renamed. -/
def renamedStore : Store := { scimUsers := Table.empty.put (ldapUser "1" "cn=a" "ann") }

def renamedEntries : List LdapDirectoryEntry := [ldapEntry "cn=a" "bea", ldapEntry "cn=c" "ann"]

theorem ldap_sync_converges_sample :
    ∃ result after,
      syncLdapEntries (fun _ => .done) (·.dn) "r" "p" renamedStore renamedEntries ⟨true, 5⟩ =
        (.ok result, after) ∧
      Converged renamedStore after "r" "p" renamedEntries 5 := by
  have hsnapshot : Snapshot renamedStore "r" "p" renamedEntries :=
    ⟨Table.distinct_of_nodup (by decide +kernel), by decide +kernel, by decide, by decide,
      by decide +kernel, by decide +kernel⟩
  have hdn : ∀ u ∈ listScimUsers renamedStore "r", u.externalId = some "cn=a" := by decide +kernel
  have horder : InOrder renamedStore "r" "p" renamedEntries := by
    refine ⟨by decide +kernel, by unfold ValidEntry; decide +kernel, ?_⟩
    intro pre e post hentries u hu _ _
    cases pre with
    | nil =>
      cases hentries
      exact Or.inl (hdn u hu)
    | cons d =>
      have hd : ldapEntry "cn=a" "bea" = d := (List.cons.inj hentries).1
      exact Or.inr ⟨d, List.mem_cons_self, by rw [← hd]; exact hdn u hu⟩
  have hfresh : FreshIds renamedStore renamedEntries (·.dn) := ⟨by decide +kernel, by decide⟩
  exact Iff.mpr (ldap_sync_converges hsnapshot hfresh (fun _ => rfl) 5) horder

def swappedStore : Store :=
  { scimUsers := (Table.empty.put (ldapUser "1" "cn=a" "ann")).put (ldapUser "2" "cn=b" "bea") }

def swappedEntries : List LdapDirectoryEntry := [ldapEntry "cn=a" "bea", ldapEntry "cn=b" "ann"]

/-- A snapshot in which two users swap their names is given as it should be, and is refused. -/
theorem ldap_sync_refuses_swap :
    Snapshot swappedStore "r" "p" swappedEntries ∧
    (syncLdapEntries (fun _ => .done) (·.dn) "r" "p" swappedStore swappedEntries ⟨true, 5⟩).1 =
      .error (.storage "user name already exists in realm") := by
  exact ⟨⟨Table.distinct_of_nodup (by decide +kernel), by decide +kernel, by decide, by decide,
    by decide +kernel, by decide +kernel⟩, by decide +kernel⟩

end Qid.Directory
