/-
Whether what SCIM clients write decides who is adopted, kept or deactivated.

Two stores whose users differ in their enterprise attributes alone are synced with one snapshot.
Only the loop over the missing users reads the attributes: it asks whether a user is kept for
emergencies.
-/
import Qid.Directory.Sync

namespace Qid.Directory

open Lib Storage Scim File Json

def withoutEnterprise (u : ScimUser) : ScimUser := { u with enterpriseJson := .null }

/-- The users differ in their enterprise attributes alone. -/
def Alike (s s' : Store) : Prop :=
  ∀ id, (s.scimUsers.find id).map withoutEnterprise = (s'.scimUsers.find id).map withoutEnterprise

structure Lifecycle where
  active : Bool
  deprovisionedAt : Option Nat
  directoryProviderId : Option String
  externalId : Option String
  deriving DecidableEq

def lifecycle (u : ScimUser) : Lifecycle :=
  { active := u.active
    deprovisionedAt := u.deprovisionedAt
    directoryProviderId := u.directoryProviderId
    externalId := u.externalId }

variable {realmId providerId : String}

section

variable {syncedAt : Nat} {entries : List LdapDirectoryEntry} {u u' : ScimUser}

/-- What a sync asks about a user, apart from its attributes. -/
theorem of_withoutEnterprise_eq (h : withoutEnterprise u = withoutEnterprise u') :
    u.realmId = u'.realmId ∧ lifecycle u = lifecycle u' := by
  have hrealm : (withoutEnterprise u).realmId = (withoutEnterprise u').realmId := by rw [h]
  have hlifecycle : lifecycle (withoutEnterprise u) = lifecycle (withoutEnterprise u') := by rw [h]
  exact ⟨hrealm, hlifecycle⟩

theorem of_lifecycle_eq (h : lifecycle u = lifecycle u') :
    u.active = u'.active ∧ u.deprovisionedAt = u'.deprovisionedAt ∧
      u.directoryProviderId = u'.directoryProviderId ∧ u.externalId = u'.externalId :=
  Lifecycle.mk.inj h

theorem owns_congr (hrealm : u.realmId = u'.realmId)
    (howner : u.directoryProviderId = u'.directoryProviderId) :
    Owns realmId providerId u ↔ Owns realmId providerId u' := by
  rw [Owns, Owns, hrealm, howner]

/-- An entry makes the same of the lifecycle whether it has to be written or not. -/
theorem lifecycle_updated (entry : LdapDirectoryEntry) :
    lifecycle (updated providerId syncedAt u entry) =
      { active := entry.enabled
        deprovisionedAt := if entry.enabled then none else some (u.deprovisionedAt.getD syncedAt)
        directoryProviderId := some providerId
        externalId := some entry.dn } := by
  have happlied : lifecycle (applyLdapEntry u providerId entry syncedAt) = _ :=
    congrArg lifecycle (applyLdapEntry_eq u providerId entry syncedAt)
  rw [updated]
  split
  · rename_i hsame
    obtain ⟨hdn, -, -, -, -, howner, hdeprovisioned, hactive⟩ := of_scimUserSemanticEq hsame
    have hunchanged : lifecycle u = lifecycle (applyLdapEntry u providerId entry syncedAt) := by
      rw [lifecycle, lifecycle, hdn, howner, hdeprovisioned, hactive]
    exact hunchanged.trans happlied
  · exact happlied

theorem lifecycle_retired (h : withoutEnterprise u = withoutEnterprise u')
    (hglass : u.active = true → isBreakGlassUser u = isBreakGlassUser u') :
    lifecycle (retired syncedAt u) = lifecycle (retired syncedAt u') := by
  obtain ⟨-, hsame⟩ := of_withoutEnterprise_eq h
  obtain ⟨hactive, -, howner, hdn⟩ := of_lifecycle_eq hsame
  cases ha : u.active with
  | false =>
    rw [retired, retired, ← hactive, ha, Bool.false_and, Bool.false_and, if_neg Bool.false_ne_true,
      if_neg Bool.false_ne_true, hsame]
  | true =>
    rw [retired, retired, ← hactive, ← hglass ha]
    split
    · show Lifecycle.mk _ _ _ _ = Lifecycle.mk _ _ _ _
      simp only [markDeprovisioned, projectDeprovisioned, howner, hdn]
    · exact hsame

theorem active_retired (h : u.active = true) :
    (retired syncedAt u).active = isBreakGlassUser u := by
  rw [retired, h, Bool.true_and]
  cases hglass : isBreakGlassUser u with
  | false => rfl
  | true => exact h

/-- Users that are alike become alike, if they are kept for emergencies alike. -/
theorem lifecycle_reconciled {deactivateMissing : Bool}
    (h : withoutEnterprise u = withoutEnterprise u')
    (hglass : deactivateMissing = true → Owns realmId providerId u → entryOf entries u = none →
      u.active = true → isBreakGlassUser u = isBreakGlassUser u') :
    lifecycle (reconciled realmId providerId syncedAt entries deactivateMissing u) =
      lifecycle (reconciled realmId providerId syncedAt entries deactivateMissing u') := by
  obtain ⟨hrealm, hsame⟩ := of_withoutEnterprise_eq h
  obtain ⟨-, hsince, howner, hdn⟩ := of_lifecycle_eq hsame
  have howns : Owns realmId providerId u ↔ Owns realmId providerId u' := owns_congr hrealm howner
  have hentry : entryOf entries u = entryOf entries u' := by rw [entryOf, entryOf, hdn]
  rw [reconciled, reconciled, met, met]
  simp only [← howns, ← hentry]
  split
  · rename_i hmissing
    exact lifecycle_retired h (hglass hmissing.2.2 hmissing.1 hmissing.2.1)
  · split
    · cases entryOf entries u with
      | none => exact hsame
      | some e =>
        show lifecycle (updated providerId syncedAt u e) =
          lifecycle (updated providerId syncedAt u' e)
        rw [lifecycle_updated, lifecycle_updated, hsince]
    · exact hsame

end

section

variable {s s' : Store} {id : String} {index index' : HashMap ScimUser}

theorem Alike.symm (h : Alike s s') : Alike s' s := fun id => (h id).symm

theorem Alike.find {u : ScimUser} (h : Alike s s') (hu : s.scimUsers.find id = some u) :
    ∃ u', s'.scimUsers.find id = some u' ∧ withoutEnterprise u = withoutEnterprise u' := by
  have hid := h id
  rw [hu] at hid
  obtain ⟨u', hu', heq⟩ := Option.map_eq_some_iff.mp hid.symm
  exact ⟨u', hu', heq.symm⟩

theorem Alike.find_none (h : Alike s s') (hnone : s.scimUsers.find id = none) :
    s'.scimUsers.find id = none := by
  have hid := h id
  rw [hnone] at hid
  exact Option.map_eq_none_iff.mp hid.symm

variable (h : Alike s s') (hindex : OwnedIndex s realmId providerId index)
  (hindex' : OwnedIndex s' realmId providerId index')
include h hindex hindex'

theorem Alike.lookup_isSome {dn : String} (hdn : (index.lookup dn).isSome = true) :
    (index'.lookup dn).isSome = true := by
  obtain ⟨u, hu⟩ := Option.isSome_iff_exists.mp hdn
  obtain ⟨hfind, howns, hext⟩ := hindex.sound hu
  obtain ⟨u', hfind', heq⟩ := h.find hfind
  obtain ⟨hrealm, hsame⟩ := of_withoutEnterprise_eq heq
  obtain ⟨-, -, howner, hext'⟩ := of_lifecycle_eq hsame
  rw [hindex'.complete (Table.find_key hfind') ((owns_congr hrealm howner).mp howns)
    (hext'.symm.trans hext), Option.isSome_some]

end

/-- Enterprise attributes have no say in the lifecycle of a user, except for those that keep a user
for emergencies: if two stores differ in them alone and a sync succeeds on both, it decides the same
about every user exactly if it deactivates no one, or the stores agree on which of the active owned
users that the snapshot does not have are kept. -/
theorem enterprise_has_no_lifecycle_authority {persist persist' : ScimUser → Persist}
    {freshId : LdapDirectoryEntry → String} {realmId providerId : String} {s s' : Store}
    {entries : List LdapDirectoryEntry} {options : LdapSyncOptions}
    {result result' : LdapSyncResult} (halike : Alike s s')
    (hok : (syncLdapEntries persist freshId realmId providerId s entries options).1 = .ok result)
    (hok' : (syncLdapEntries persist' freshId realmId providerId s' entries options).1 =
      .ok result') :
    (∀ id, ((syncLdapEntries persist freshId realmId providerId s entries options).2.scimUsers.find
        id).map lifecycle =
      ((syncLdapEntries persist' freshId realmId providerId s' entries options).2.scimUsers.find
        id).map lifecycle) ↔
    (options.deactivateMissing = true → ∀ id u u', s.scimUsers.find id = some u →
      s'.scimUsers.find id = some u' → Owns realmId providerId u →
      (∀ e ∈ entries, u.externalId ≠ some e.dn) → u.active = true →
      isBreakGlassUser u = isBreakGlassUser u') := by
  obtain ⟨hchecked, hreached⟩ := of_syncLdapEntries_ok hok
  obtain ⟨hchecked', hreached'⟩ := of_syncLdapEntries_ok hok'
  constructor
  · intro hsame hmissing id u u' hu hu' howns hentry hactive
    obtain ⟨v, hv, heq⟩ := halike.find hu
    cases hu'.symm.trans hv
    obtain ⟨hrealm, hlife⟩ := of_withoutEnterprise_eq heq
    obtain ⟨hactive', -, howner, hdn⟩ := of_lifecycle_eq hlife
    -- both users are missing, and who is kept for emergencies is the one who stays active
    have hid := hsame id
    rw [hreached.stored id u hu, hreached'.stored id u' hu', reconciled, reconciled,
      if_pos ⟨howns, entryOf_eq_none.mpr hentry, hmissing⟩,
      if_pos ⟨(owns_congr hrealm howner).mp howns, entryOf_eq_none.mpr (hdn ▸ hentry), hmissing⟩]
      at hid
    have hkept := congrArg Lifecycle.active (Option.some.inj hid)
    change (retired _ u).active = (retired _ u').active at hkept
    rwa [active_retired hactive, active_retired (hactive'.symm.trans hactive)] at hkept
  intro hglass id
  cases hu : s.scimUsers.find id with
  | some u =>
    obtain ⟨u', hu', heq⟩ := halike.find hu
    rw [hreached.stored id u hu, hreached'.stored id u' hu']
    refine congrArg some (lifecycle_reconciled heq fun hmissing howns hentry hactive => ?_)
    exact hglass hmissing id u u' hu hu' howns (entryOf_eq_none.mp hentry) hactive
  | none =>
    rw [hreached.created id hu, hreached'.created id (halike.find_none hu), newUsers, newUsers,
      List.filter_congr fun e _ => ?_]
    have hindex := @ownedIndex_ownedByDn s realmId providerId hchecked.preflight
    have hindex' := @ownedIndex_ownedByDn s' realmId providerId hchecked'.preflight
    rw [← Option.not_isSome, ← Option.not_isSome, Bool.eq_iff_iff.mpr
      ⟨halike.lookup_isSome hindex hindex', halike.symm.lookup_isSome hindex' hindex⟩]

def staffedStore (enterprise : Fields) : Store :=
  { scimUsers := Table.empty.put
      { id := "1", realmId := "r", externalId := some "cn=a", userName := "ann"
        nameJson := .object [], emailsJson := .array [], enterpriseJson := .object enterprise
        directoryProviderId := some "p", deprovisionedAt := none, active := true } }

theorem alike_staffedStore (enterprise enterprise' : Fields) :
    Alike (staffedStore enterprise) (staffedStore enterprise') := by
  intro id
  simp only [staffedStore, Table.find_put]
  split <;> rfl

theorem enterprise_has_no_lifecycle_authority_sample :
    ((syncLdapEntries (fun _ => .done) (·.dn) "r" "p"
      (staffedStore [("department", .string "a")]) [] ⟨true, 5⟩).2.scimUsers.find "1").map
        lifecycle =
    ((syncLdapEntries (fun _ => .done) (·.dn) "r" "p"
      (staffedStore [("department", .string "b")]) [] ⟨true, 5⟩).2.scimUsers.find "1").map
        lifecycle := by
  have hok : ∀ department ∈ ["a", "b"], (syncLdapEntries (fun _ => .done) (·.dn) "r" "p"
      (staffedStore [("department", .string department)]) [] ⟨true, 5⟩).1 =
        .ok { deactivatedUserIds := ["1"] } := by decide +kernel
  refine (enterprise_has_no_lifecycle_authority (alike_staffedStore _ _) (hok "a" (by simp))
    (hok "b" (by simp))).mpr ?_ "1"
  intro _ id u u' hu hu' _ _ _
  simp only [staffedStore, Table.find_put] at hu hu'
  split at hu
  · rename_i hid
    rw [if_pos hid] at hu'
    rw [← Option.some.inj hu, ← Option.some.inj hu']
    rfl
  · cases hu

/-- A SCIM client that writes `break_glass` keeps a user active that the directory no longer
has. -/
theorem break_glass_attribute_keeps_user_active :
    Alike (staffedStore []) (staffedStore [("break_glass", .bool true)]) ∧
    (syncLdapEntries (fun _ => .done) (·.dn) "r" "p" (staffedStore []) [] ⟨true, 5⟩).1 =
      .ok { deactivatedUserIds := ["1"] } ∧
    (syncLdapEntries (fun _ => .done) (·.dn) "r" "p"
      (staffedStore [("break_glass", .bool true)]) [] ⟨true, 5⟩).1 =
      .ok { breakGlassSkippedUserIds := ["1"] } ∧
    ((syncLdapEntries (fun _ => .done) (·.dn) "r" "p" (staffedStore []) []
      ⟨true, 5⟩).2.scimUsers.find "1").map lifecycle =
      some ⟨false, some 5, some "p", some "cn=a"⟩ ∧
    ((syncLdapEntries (fun _ => .done) (·.dn) "r" "p"
      (staffedStore [("break_glass", .bool true)]) [] ⟨true, 5⟩).2.scimUsers.find "1").map
      lifecycle = some ⟨true, none, some "p", some "cn=a"⟩ := by
  refine ⟨alike_staffedStore _ _, ?_, ?_, ?_, ?_⟩ <;> decide +kernel

end Qid.Directory
