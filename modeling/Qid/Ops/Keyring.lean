/-
The plan of key rotations.

Which keys are active, which one is to be retired and which one succeeds are separate tests: a
retirement time of zero means never in the first, and a time that has passed in the second.
-/
import Mathlib.Data.List.MinMax
import Mathlib.Data.List.Sort
import Mathlib.Data.Prod.Lex
import Mathlib.Data.String.Basic
import Qid.Core.Basic

namespace Qid.Ops

inductive KeyPurpose where
  | oidcToken
  | samlAssertion
  | pepAssertion
  | auditLog
  | browserSession
  | other (value : String)
  deriving DecidableEq

structure KeyringInventoryRecord where
  realmId : String
  keyringName : String
  kid : String
  purpose : KeyPurpose
  signerType : String
  createdAtEpoch : Nat
  notBeforeEpoch : Nat
  retireAfterEpoch : Nat
  revoked : Bool
  deriving DecidableEq

structure KeyRotationRequirement where
  realmId : String
  purpose : KeyPurpose
  maxAgeDays : Nat
  overlapDays : Nat
  requireRemoteSigner : Bool
  requireDedicatedKeyring : Bool

inductive KeyRotationActionKind where
  | generateSuccessor
  | promoteSuccessor
  | retireExpired
  | removeRevoked
  deriving DecidableEq

structure KeyRotationAction where
  action : KeyRotationActionKind
  keyringName : String
  kid : Option String
  reason : String
  deriving DecidableEq

inductive KeyRotationPlanStatus where
  | ready
  | actionRequired
  | rejected
  deriving DecidableEq

structure KeyRotationPlan where
  status : KeyRotationPlanStatus
  realmId : String
  purpose : KeyPurpose
  activeKid : Option String
  successorKid : Option String
  actions : List KeyRotationAction
  reasons : List String

def maxU64 : Nat := 2 ^ 64 - 1

def daysToSeconds (days : Nat) : Nat := min (days * (24 * 60 * 60)) maxU64

def isRemoteSigner (signerType : String) : Bool :=
  signerType = "kms" ∨ signerType = "hsm" ∨ signerType = "pkcs11"

def isActiveKey (record : KeyringInventoryRecord) (now : Nat) : Bool :=
  record.revoked = false ∧ record.notBeforeEpoch ≤ now ∧
    (record.retireAfterEpoch = 0 ∨ now < record.retireAfterEpoch)

def KeyRotationAction.of (kind : KeyRotationActionKind) (reason : String)
    (record : KeyringInventoryRecord) : KeyRotationAction :=
  ⟨kind, record.keyringName, some record.kid, reason⟩

def validateKeyRotationRequirement (requirement : KeyRotationRequirement) : List String :=
  (if (trim requirement.realmId).isEmpty then ["invalid_empty_realm_id"] else []) ++
    (if requirement.maxAgeDays = 0 then ["invalid_max_age_days_zero"] else []) ++
    (if requirement.maxAgeDays < requirement.overlapDays then ["invalid_overlap_exceeds_max_age"]
      else [])

def defaultKeyringName (requirement : KeyRotationRequirement) : String :=
  requirement.realmId ++ "-" ++ match requirement.purpose with
    | .oidcToken => "oidc-token"
    | .samlAssertion => "saml-assertion"
    | .pepAssertion => "pep-assertion"
    | .auditLog => "audit-log"
    | .browserSession => "browser-session"
    | .other value => value

structure KeyRotation where
  inventory : List KeyringInventoryRecord
  requirement : KeyRotationRequirement
  now : Nat

namespace KeyRotation

variable (k : KeyRotation)

def matching : List KeyringInventoryRecord :=
  k.inventory.filter fun record =>
    record.realmId = k.requirement.realmId ∧ record.purpose = k.requirement.purpose

def activeKeys : List KeyringInventoryRecord := k.matching.filter (isActiveKey · k.now)

def futureKeys : List KeyringInventoryRecord :=
  k.matching.filter fun record => record.revoked = false ∧ k.now < record.notBeforeEpoch

def age (record : KeyringInventoryRecord) : Nat ×ₗ String :=
  toLex (record.createdAtEpoch, record.kid)

def turn (record : KeyringInventoryRecord) : Nat ×ₗ String :=
  toLex (record.notBeforeEpoch, record.kid)

/-- The last one with the largest key, as `max_by_key` returns it. -/
def active : Option KeyringInventoryRecord := k.activeKeys.reverse.argmax age

def successor : Option KeyringInventoryRecord := k.futureKeys.argmin turn

def activeSharedKeyrings : List String :=
  ((k.activeKeys.filter fun record => k.inventory.any fun other =>
    other.realmId = record.realmId ∧ other.keyringName = record.keyringName ∧
      other.purpose ≠ record.purpose ∧ isActiveKey other k.now).map
    (·.keyringName)).dedup.insertionSort (· ≤ ·)

def reasons : List String :=
  validateKeyRotationRequirement k.requirement ++
    (if k.requirement.requireDedicatedKeyring then
      k.activeSharedKeyrings.map ("dedicated_keyring_required:" ++ ·) else []) ++
    (if k.requirement.requireRemoteSigner then
      (k.activeKeys.filter (!isRemoteSigner ·.signerType)).map
        ("remote_signer_required:" ++ ·.keyringName) else [])

def rotateAfterEpoch (active : KeyringInventoryRecord) : Nat :=
  min (active.createdAtEpoch +
    (daysToSeconds k.requirement.maxAgeDays - daysToSeconds k.requirement.overlapDays)) maxU64

def actions : List KeyRotationAction :=
  (k.matching.filter (·.revoked)).map
      (.of .removeRevoked "revoked_key_must_not_remain_in_active_inventory") ++
    match k.active, k.successor with
    | some active, successor =>
      (if active.retireAfterEpoch ≤ k.now then [.of .retireExpired "active_key_retired" active]
        else []) ++
      (if k.rotateAfterEpoch active ≤ k.now ∧ successor = none then
        [⟨.generateSuccessor, active.keyringName, none, "rotation_overlap_window_open"⟩] else [])
    | none, some successor => [.of .promoteSuccessor "no_active_key" successor]
    | none, none =>
      [⟨.generateSuccessor, defaultKeyringName k.requirement, none, "no_active_or_successor_key"⟩]

def planRequiredKeyRotation : KeyRotationPlan where
  status :=
    if k.reasons.any fun reason => startsWith "invalid_" reason ||
      startsWith "dedicated_keyring_required:" reason ||
      startsWith "remote_signer_required:" reason then .rejected
    else if k.actions.isEmpty then .ready else .actionRequired
  realmId := k.requirement.realmId
  purpose := k.requirement.purpose
  activeKid := k.active.map (·.kid)
  successorKid := k.successor.map (·.kid)
  actions := k.actions
  reasons := k.reasons

/-- A key is as old as the maximum age without the overlap. -/
def Old (r : KeyringInventoryRecord) : Prop :=
  r.createdAtEpoch + (k.requirement.maxAgeDays - k.requirement.overlapDays) * (24 * 60 * 60) ≤ k.now

/-- What is to be done with the keys. -/
inductive Due : KeyRotationAction → Prop
  | removeRevoked {r : KeyringInventoryRecord} (hr : r ∈ k.matching) (hrevoked : r.revoked = true) :
      Due (.of .removeRevoked "revoked_key_must_not_remain_in_active_inventory" r)
  | retireExpired {r : KeyringInventoryRecord} (hr : r ∈ k.matching) (hlive : r.revoked = false)
      (hretires : r.retireAfterEpoch ≠ 0) (hpast : r.retireAfterEpoch ≤ k.now) :
      Due (.of .retireExpired "active_key_retired" r)
  | generateSuccessor (hnone : k.activeKeys = []) (hfuture : k.futureKeys = []) :
      Due ⟨.generateSuccessor, defaultKeyringName k.requirement, none, "no_active_or_successor_key"⟩
  | replaceNewest {r : KeyringInventoryRecord} (hr : r ∈ k.activeKeys)
      (hnewest : ∀ r' ∈ k.activeKeys, age r' ≤ age r)
      (hold : k.Old r) (hfuture : k.futureKeys = []) :
      Due ⟨.generateSuccessor, r.keyringName, none, "rotation_overlap_window_open"⟩
  | promoteSuccessor {r : KeyringInventoryRecord} (hnone : k.activeKeys = [])
      (hr : r ∈ k.futureKeys) (hfirst : ∀ r' ∈ k.futureKeys, turn r ≤ turn r') :
      Due (.of .promoteSuccessor "no_active_key" r)

inductive Listed : KeyRotationAction → Prop
  | removeRevoked {r : KeyringInventoryRecord} (hr : r ∈ k.matching) (hrevoked : r.revoked = true) :
      Listed (.of .removeRevoked "revoked_key_must_not_remain_in_active_inventory" r)
  | retire {r : KeyringInventoryRecord} (hactive : k.active = some r)
      (hpast : r.retireAfterEpoch ≤ k.now) : Listed (.of .retireExpired "active_key_retired" r)
  | replace {r : KeyringInventoryRecord} (hactive : k.active = some r)
      (hold : k.rotateAfterEpoch r ≤ k.now) (hnone : k.successor = none) :
      Listed ⟨.generateSuccessor, r.keyringName, none, "rotation_overlap_window_open"⟩
  | promote {r : KeyringInventoryRecord} (hactive : k.active = none)
      (hsuccessor : k.successor = some r) : Listed (.of .promoteSuccessor "no_active_key" r)
  | generate (hactive : k.active = none) (hsuccessor : k.successor = none) :
      Listed
        ⟨.generateSuccessor, defaultKeyringName k.requirement, none, "no_active_or_successor_key"⟩

/-- No live key has expired, and the newest active one retires and is judged by its true age. -/
structure Exact : Prop where
  unexpired : ∀ r ∈ k.matching, r.revoked = false → r.retireAfterEpoch ≠ 0 →
    k.now < r.retireAfterEpoch
  retires : ∀ r, k.active = some r → r.retireAfterEpoch ≠ 0
  timely : ∀ r, k.active = some r → k.successor = none → (k.rotateAfterEpoch r ≤ k.now ↔ k.Old r)

/-- With distinct keys there is one maximum. -/
theorem argmax_eq_some_iff_max {α β : Type} [LinearOrder β] {f : α → β} {l : List α} {a : α}
    (hinj : ∀ b ∈ l, ∀ c ∈ l, f b = f c → b = c) :
    l.argmax f = some a ↔ a ∈ l ∧ ∀ b ∈ l, f b ≤ f a := by
  constructor
  · exact fun h => ⟨List.argmax_mem h, fun b hb => List.le_of_mem_argmax hb h⟩
  · rintro ⟨ha, hle⟩
    cases hmax : l.argmax f with
    | none =>
      rw [List.argmax_eq_none.mp hmax] at ha
      cases ha
    | some b =>
      have hb := List.argmax_mem hmax
      rw [hinj b hb a ha (le_antisymm (hle b hb) (List.le_of_mem_argmax ha hmax))]

variable {k : KeyRotation} {r : KeyringInventoryRecord} (hkids : (k.inventory.map (·.kid)).Nodup)
include hkids

theorem eq_of_kid {l : List KeyringInventoryRecord} (hl : l ⊆ k.matching)
    (time : KeyringInventoryRecord → Nat) : ∀ b ∈ l, ∀ c ∈ l,
      (toLex (time b, b.kid) : Nat ×ₗ String) = toLex (time c, c.kid) → b = c :=
  fun _ hb _ hc heq => List.inj_on_of_nodup_map hkids (List.mem_of_mem_filter (hl hb))
    (List.mem_of_mem_filter (hl hc)) (congrArg (fun p => (ofLex p).2) heq)

theorem active_eq_some :
    k.active = some r ↔ r ∈ k.activeKeys ∧ ∀ r' ∈ k.activeKeys, age r' ≤ age r := by
  rw [active, argmax_eq_some_iff_max]
  · simp only [List.mem_reverse]
  · exact eq_of_kid hkids (fun _ hr => List.mem_of_mem_filter (List.mem_reverse.mp hr)) _

theorem successor_eq_some :
    k.successor = some r ↔ r ∈ k.futureKeys ∧ ∀ r' ∈ k.futureKeys, turn r ≤ turn r' :=
  argmax_eq_some_iff_max (β := (Nat ×ₗ String)ᵒᵈ)
    (eq_of_kid hkids (fun _ hr => List.mem_of_mem_filter hr) _)

omit hkids in
theorem mem_actions {a : KeyRotationAction} : a ∈ k.actions ↔ k.Listed a := by
  rw [actions, List.mem_append, List.mem_map]
  constructor
  · rintro (⟨r, hr, rfl⟩ | h)
    · exact .removeRevoked (List.mem_of_mem_filter hr) (List.mem_filter.mp hr).2
    · cases hactive : k.active with
      | some r =>
        rw [hactive, List.mem_append, List.mem_ite_nil_right, List.mem_ite_nil_right,
          List.mem_singleton, List.mem_singleton] at h
        rcases h with ⟨hpast, rfl⟩ | ⟨⟨hold, hnone⟩, rfl⟩
        · exact .retire hactive hpast
        · exact .replace hactive hold hnone
      | none =>
        cases hsuccessor : k.successor with
        | some r =>
          rw [hactive, hsuccessor] at h
          rw [List.mem_singleton.mp h]
          exact .promote hactive hsuccessor
        | none =>
          rw [hactive, hsuccessor] at h
          rw [List.mem_singleton.mp h]
          exact .generate hactive hsuccessor
  · intro h
    cases h with
    | removeRevoked hr hrevoked => exact Or.inl ⟨_, List.mem_filter.mpr ⟨hr, hrevoked⟩, rfl⟩
    | retire hactive hpast =>
      rw [hactive]
      refine Or.inr (List.mem_append_left _ ?_)
      rw [if_pos hpast]
      exact List.mem_singleton_self _
    | replace hactive hold hnone =>
      rw [hactive]
      refine Or.inr (List.mem_append_right _ ?_)
      rw [if_pos ⟨hold, hnone⟩]
      exact List.mem_singleton_self _
    | promote hactive hsuccessor | generate hactive hsuccessor =>
      rw [hactive, hsuccessor]
      exact Or.inr (List.mem_singleton_self _)

omit hkids in
theorem active_eq_none : k.active = none ↔ k.activeKeys = [] :=
  List.argmax_eq_none.trans List.reverse_eq_nil_iff

theorem listed_iff_due (h : k.Exact) {a : KeyRotationAction} : k.Listed a ↔ k.Due a := by
  constructor
  · intro hlisted
    cases hlisted with
    | removeRevoked hr hrevoked => exact .removeRevoked hr hrevoked
    | retire hactive hpast =>
      -- the newest active key retires, and since it is active that time lies ahead
      have hkey := (List.mem_filter.mp ((active_eq_some hkids).mp hactive).1).2
      have hahead := (of_decide_eq_true hkey).2.2.resolve_left (h.retires _ hactive)
      exact absurd hpast (Nat.not_le.mpr hahead)
    | replace hactive hold hnone =>
      obtain ⟨hr, hnewest⟩ := (active_eq_some hkids).mp hactive
      exact .replaceNewest hr hnewest ((h.timely _ hactive hnone).mp hold)
        (List.argmin_eq_none.mp hnone)
    | promote hactive hsuccessor =>
      obtain ⟨hr, hfirst⟩ := (successor_eq_some hkids).mp hsuccessor
      exact .promoteSuccessor (active_eq_none.mp hactive) hr hfirst
    | generate hactive hsuccessor =>
      exact .generateSuccessor (active_eq_none.mp hactive) (List.argmin_eq_none.mp hsuccessor)
  · intro hdue
    cases hdue with
    | removeRevoked hr hrevoked => exact .removeRevoked hr hrevoked
    | retireExpired hr hlive hretires hpast =>
      exact absurd hpast (Nat.not_le.mpr (h.unexpired _ hr hlive hretires))
    | generateSuccessor hnone hfuture =>
      exact .generate (active_eq_none.mpr hnone) (List.argmin_eq_none.mpr hfuture)
    | replaceNewest hr hnewest hold hfuture =>
      have hactive := (active_eq_some hkids).mpr ⟨hr, hnewest⟩
      have hnone : k.successor = none := List.argmin_eq_none.mpr hfuture
      exact .replace hactive ((h.timely _ hactive hnone).mpr hold) hnone
    | promoteSuccessor hnone hr hfirst =>
      exact .promote (active_eq_none.mpr hnone) ((successor_eq_some hkids).mpr ⟨hr, hfirst⟩)

omit hkids in
theorem Listed.retired {a : KeyRotationAction} (h : k.Listed a)
    (hkind : a.action = .retireExpired) :
    ∃ r, k.active = some r ∧ a.kid = some r.kid := by
  cases h with
  | retire hactive hpast => exact ⟨_, hactive, rfl⟩
  | _ => cases hkind

omit hkids in
theorem Due.retired {a : KeyRotationAction} (h : k.Due a) (hkind : a.action = .retireExpired) :
    ∃ r ∈ k.matching, r.retireAfterEpoch ≠ 0 ∧ a.kid = some r.kid := by
  cases h with
  | retireExpired hr hlive hretires hpast => exact ⟨_, hr, hretires, rfl⟩
  | _ => cases hkind

/-- A plan that lists what is due and nothing else meets the condition. -/
theorem exact_of_listed_iff_due (h : ∀ a, k.Listed a ↔ k.Due a) : k.Exact := by
  have hmatching {r} (hactive : k.active = some r) :=
    List.mem_filter.mp ((active_eq_some hkids).mp hactive).1
  have hsame {r r'} (hr : r ∈ k.matching) (hr' : r' ∈ k.matching)
      (hkid : some r.kid = some r'.kid) : r = r' :=
    List.inj_on_of_nodup_map hkids (List.mem_of_mem_filter hr) (List.mem_of_mem_filter hr')
      (Option.some.inj hkid)
  constructor
  · intro r hr hlive hretires
    by_contra hpast
    have hdue := Due.retireExpired hr hlive hretires (Nat.not_lt.mp hpast)
    obtain ⟨active, hactive, hkid⟩ := ((h _).mpr hdue).retired rfl
    obtain ⟨hkey, hlives⟩ := hmatching hactive
    obtain rfl := hsame hr hkey hkid
    exact hpast ((of_decide_eq_true hlives).2.2.resolve_left hretires)
  · intro r hactive hnever
    have hlisted := Listed.retire hactive (hnever ▸ Nat.zero_le k.now)
    obtain ⟨r', hr', hretires, hkid⟩ := ((h _).mp hlisted).retired rfl
    obtain rfl := hsame (hmatching hactive).1 hr' hkid
    exact hretires hnever
  · intro r hactive hnone
    constructor
    · intro hold
      have hdue := (h _).mp (Listed.replace hactive hold hnone)
      generalize haction : KeyRotationAction.mk .generateSuccessor r.keyringName none
        "rotation_overlap_window_open" = a at hdue
      cases hdue with
      | replaceNewest hr hnewest hold' _ =>
        cases hactive.symm.trans ((active_eq_some hkids).mpr ⟨hr, hnewest⟩)
        exact hold'
      | generateSuccessor hempty _ => cases hactive.symm.trans (active_eq_none.mpr hempty)
      | _ => cases congrArg KeyRotationAction.action haction
    · intro hold
      obtain ⟨hr, hnewest⟩ := (active_eq_some hkids).mp hactive
      have hlisted := (h _).mpr (Due.replaceNewest hr hnewest hold (List.argmin_eq_none.mp hnone))
      generalize haction : KeyRotationAction.mk .generateSuccessor r.keyringName none
        "rotation_overlap_window_open" = a at hlisted
      cases hlisted with
      | replace hactive' hold' _ =>
        cases hactive.symm.trans hactive'
        exact hold'
      | generate hempty _ => cases hactive.symm.trans hempty
      | _ => cases congrArg KeyRotationAction.action haction

/-- The actions are those that are due exactly if no key that is not revoked has expired, the newest
active key retires and its age is computed within the range, which it is unless a time is at the end
of it. -/
theorem key_rotation_exact (hvalid : k.requirement.overlapDays ≤ k.requirement.maxAgeDays) :
    ((∀ a, a ∈ k.planRequiredKeyRotation.actions ↔ k.Due a) ↔ k.Exact) ∧
      (k.requirement.maxAgeDays * (24 * 60 * 60) ≤ maxU64 → k.now < maxU64 →
        ∀ r, k.rotateAfterEpoch r ≤ k.now ↔ k.Old r) := by
  constructor
  · constructor
    · exact fun h => exact_of_listed_iff_due hkids fun a => mem_actions.symm.trans (h a)
    · exact fun h a => mem_actions.trans (listed_iff_due hkids h)
  · intro hmax hnow r
    rw [rotateAfterEpoch, daysToSeconds, daysToSeconds, Old]
    omega

omit hkids

def sample (retireAfter now : Nat) : KeyRotation where
  inventory := [⟨"r", "ring", "k", .oidcToken, "file", 0, 0, retireAfter, false⟩]
  requirement := ⟨"r", .oidcToken, 90, 10, false, false⟩
  now := now

/-- A revoked key, one that never retires, and a newer one that does. -/
def mixed : KeyRotation where
  inventory :=
    [⟨"r", "ring", "a", .oidcToken, "file", 0, 0, 1, true⟩,
      ⟨"r", "ring", "b", .oidcToken, "file", 0, 0, 0, false⟩,
      ⟨"r", "ring", "c", .oidcToken, "file", 5, 5, 9000000, false⟩]
  requirement := ⟨"r", .oidcToken, 90, 10, false, false⟩
  now := 8000000

theorem key_rotation_exact_sample :
    mixed.planRequiredKeyRotation.actions =
        [⟨.removeRevoked, "ring", some "a", "revoked_key_must_not_remain_in_active_inventory"⟩,
          ⟨.generateSuccessor, "ring", none, "rotation_overlap_window_open"⟩] ∧
      ∀ a, a ∈ mixed.planRequiredKeyRotation.actions ↔ mixed.Due a := by
  refine ⟨by decide +kernel, ?_⟩
  have hactive : mixed.active =
      some ⟨"r", "ring", "c", .oidcToken, "file", 5, 5, 9000000, false⟩ := by decide +kernel
  obtain ⟨hexact, htimely⟩ := key_rotation_exact (k := mixed) (by decide) (by decide)
  refine hexact.mpr ⟨by decide +kernel, fun r hr => ?_,
    fun r _ _ => htimely (by decide) (by decide) r⟩
  cases hactive.symm.trans hr
  decide

/-- A key that never retires is to be retired, and one that has expired is not. -/
theorem never_retiring_key_retired :
    (sample 0 100).planRequiredKeyRotation.status = .actionRequired ∧
      (sample 0 100).planRequiredKeyRotation.actions =
        [⟨.retireExpired, "ring", some "k", "active_key_retired"⟩] ∧
      (sample 50 100).planRequiredKeyRotation.actions =
        [⟨.generateSuccessor, "r-oidc-token", none, "no_active_or_successor_key"⟩] := by
  decide +kernel

end KeyRotation

end Qid.Ops
