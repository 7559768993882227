/-
Which bundle decides.

The active bundle of a realm in the repository should decide, or the configured default without one.
A decision first asks the slot of the process, which the repository calls do not touch.
-/
import Qid.Lib.Text
import Qid.Proxy.Decision

namespace Qid.Proxy

open Lib Json Policy Storage

def activeBundle (D : Deployment) (bundles : PolicyBundles) (realmId : String) :
    QidResult PolicyBundle :=
  match getActivePolicyBundle bundles realmId with
  | some stored => readBundle D stored.compiledJson
  | none => fallbackBundleForRealm D.config realmId

/-- The slot is empty, or holds the active bundle of the realm it names. -/
def SlotSound (s : State) : Prop :=
  ∀ name compiledJson, s.policyBundleCache = some (name, compiledJson) →
    ∃ realmId stored, ':' ∉ realmId.toList ∧
      getActivePolicyBundle s.policyBundles realmId = some stored ∧
      name = slotName realmId stored.name ∧ compiledJson = stored.compiledJson

theorem toList_slotName (realmId name : String) :
    (slotName realmId name).toList = realmId.toList ++ ':' :: name.toList := by
  rw [slotName, String.toList_append, String.toList_append, List.append_assoc]
  rfl

variable {name : String}

theorem realm_of_startsWith_slotName {realmId realmId' : String} (h : ':' ∉ realmId.toList)
    (h' : ':' ∉ realmId'.toList)
    (hstart : startsWith (realmId ++ ":") (slotName realmId' name) = true) :
    realmId = realmId' := by
  rw [startsWith, List.isPrefixOf_iff_prefix, toList_slotName, String.toList_append] at hstart
  obtain ⟨rest, hrest⟩ := hstart
  rw [List.append_assoc] at hrest
  exact String.toList_injective (append_separator_inj
    ((List.count_eq_zero.mpr h).trans (List.count_eq_zero.mpr h').symm) hrest).1

theorem startsWith_slotName (realmId name : String) :
    startsWith (realmId ++ ":") (slotName realmId name) = true := by
  rw [startsWith, List.isPrefixOf_iff_prefix, toList_slotName, String.toList_append]
  refine ⟨name.toList, ?_⟩
  rw [List.append_assoc]
  rfl

/-- The id of a configured realm has no colon. -/
theorem AdapterAuthentication.colon_notMem {config : QidConfig}
    (auth : AdapterAuthentication config) : ':' ∉ auth.realmId.toList := by
  intro hmem
  have hsafe := List.all_eq_true.mp (config.isUrlSafeRealmId auth.realm auth.configured) ':' hmem
  exact absurd hsafe (by decide)

variable {bundles : PolicyBundles} {D : Deployment} {s : State} {realmId : String}

section

variable {bundle : PolicyBundle}

theorem activeBundle_of_some {stored : StoredBundle}
    (h : getActivePolicyBundle bundles realmId = some stored) :
    activeBundle D bundles realmId = readBundle D stored.compiledJson := by
  rw [activeBundle, h]

theorem loadPolicyEngine_state (D : Deployment) (s : State) (realmId : String) :
    (loadPolicyEngine D s realmId).2 = s ∨
      ∃ stored, getActivePolicyBundle s.policyBundles realmId = some stored ∧
        (loadPolicyEngine D s realmId).2 =
          { s with
            policyBundleCache := some (slotName realmId stored.name, stored.compiledJson) } := by
  rw [loadPolicyEngine]
  split
  · exact Or.inl rfl
  · split
    · rename_i stored hactive
      split
      · exact Or.inl rfl
      · exact Or.inr ⟨stored, hactive, rfl⟩
    · split <;> exact Or.inl rfl

variable (hs : SlotSound s) (hrealm : ':' ∉ realmId.toList)
include hs hrealm

theorem SlotSound.activeBundle_eq
    (h : slotBundle D s.policyBundleCache realmId = some (bundle, name)) :
    activeBundle D s.policyBundles realmId = .ok bundle := by
  unfold slotBundle at h
  split at h
  · cases h
  · rename_i slotted compiledJson hslot
    split at h
    · rename_i hstart
      split at h
      · rename_i decoded hdecode
        cases h
        obtain ⟨realmId', stored, hrealm', hactive, rfl, rfl⟩ := hs name compiledJson hslot
        rw [realm_of_startsWith_slotName hrealm hrealm' hstart, activeBundle_of_some hactive,
          readBundle, hdecode]
      · cases h
    · cases h

theorem loadPolicyEngine_eq :
    ∃ bundleId, (loadPolicyEngine D s realmId).1 =
      (fun bundle => engineFor D realmId bundle bundleId) <$>
        activeBundle D s.policyBundles realmId := by
  rw [loadPolicyEngine]
  split
  · rename_i bundle name hslot
    rw [hs.activeBundle_eq hrealm hslot]
    exact ⟨name, rfl⟩
  · split
    · rename_i stored hactive
      refine ⟨stored.name, ?_⟩
      rw [activeBundle_of_some hactive]
      cases readBundle D stored.compiledJson with
      | _ => rfl
    · rename_i hactive
      refine ⟨"default", ?_⟩
      rw [activeBundle, hactive]
      cases fallbackBundleForRealm D.config realmId with
      | _ => rfl

theorem SlotSound.load : SlotSound (loadPolicyEngine D s realmId).2 := by
  rcases loadPolicyEngine_state D s realmId with h | ⟨stored, hactive, h⟩
  · rw [h]
    exact hs
  · rw [h]
    intro name compiledJson hslot
    cases hslot
    exact ⟨realmId, stored, hrealm, hactive, rfl, rfl⟩

end

inductive Call (D : Deployment) where
  | createPolicyBundle (bundle : StoredBundle) (persist : Persist)
  | deletePolicyBundle (id : String) (persist : Persist)
  | pepDecision (auth : AdapterAuthentication D.config) (wire : WirePepDecisionRequest)
      (now : Nat) (visited : List String)
  | authzenEvaluate (auth : AdapterAuthentication D.config) (req : AuthZenEvaluationRequest)

inductive Reply where
  | wrote (result : QidResult Unit)
  | malformed (error : String)
  | pep (answer : Answer)
  | authzen (result : QidResult AuthZenEvaluationResponse)

def step (D : Deployment) (s : State) : Call D → Reply × State
  | .createPolicyBundle bundle persist =>
    let r := createPolicyBundle persist s.policyBundles bundle
    (.wrote r.1, { s with policyBundles := r.2 })
  | .deletePolicyBundle id persist =>
    let r := deletePolicyBundle persist s.policyBundles id
    (.wrote r.1, { s with policyBundles := r.2 })
  | .pepDecision auth wire now visited =>
    match PepDecisionRequest.tryFrom wire with
    | .error e => (.malformed e, s)
    | .ok req =>
      let r := doCheck D s now visited (req.authenticated auth)
      (.pep r.1, r.2)
  | .authzenEvaluate auth req =>
    let r := doAuthzenEvaluate D s auth req
    (.authzen r.1, r.2)

/-- A realm has at most one active bundle. -/
def OneActive (bundles : PolicyBundles) : Prop :=
  ∀ b b', bundles.find b.id = some b → bundles.find b'.id = some b' → b.active = true →
    b'.active = true → b.realmId = b'.realmId → b = b'

def State.slotHolds (s : State) (realmId : String) : Bool :=
  s.policyBundleCache.any fun slot => startsWith (realmId ++ ":") slot.1

/-- An active bundle is deleted only while the slot holds no bundle of its realm. -/
def Unslotted {D : Deployment} (s : State) : Call D → Prop
  | .deletePolicyBundle id _ =>
    ∀ stored, s.policyBundles.find id = some stored → stored.active = true →
      s.slotHolds stored.realmId = false
  | _ => True

/-- The id under which a bundle is loaded is not fixed here: it names the default decision, and does
not change what is decided. -/
def FollowsActive (D : Deployment) (before : State) (reply : Reply) : Call D → Prop
  | .pepDecision auth wire _ _ =>
    ∀ req answer, PepDecisionRequest.tryFrom wire = .ok req → reply = .pep answer →
      answer.cached = false →
        ∃ bundleId policyRevision, answer.result =
          activeBundle D before.policyBundles auth.realmId >>= fun bundle =>
            respond D auth.realmId policyRevision (req.authenticated auth)
              (engineFor D auth.realmId bundle bundleId)
  | .authzenEvaluate auth req =>
    ∃ bundleId, reply = .authzen
      (activeBundle D before.policyBundles auth.realmId >>= fun bundle =>
        authzenRespond auth.capabilities req (engineFor D auth.realmId bundle bundleId))
  | _ => True

section

variable {stored : StoredBundle}

theorem of_getActivePolicyBundle (h : getActivePolicyBundle bundles realmId = some stored) :
    bundles.find stored.id = some stored ∧ stored.realmId = realmId ∧ stored.active = true := by
  have hmem := List.mem_of_find?_eq_some h
  have hp := List.find?_some h
  rw [Bool.and_eq_true, beq_iff_eq] at hp
  exact ⟨Table.mem_values.mp hmem, hp⟩

end

theorem SlotSound.write (hs : SlotSound s) (hone : OneActive bundles)
    (hkept : ∀ realmId stored, ':' ∉ realmId.toList →
      s.policyBundleCache = some (slotName realmId stored.name, stored.compiledJson) →
      getActivePolicyBundle s.policyBundles realmId = some stored →
      bundles.find stored.id = some stored) : SlotSound { s with policyBundles := bundles } := by
  intro name compiledJson hslot
  obtain ⟨realmId, stored, hcolon, hactive, rfl, rfl⟩ := hs name compiledJson hslot
  obtain ⟨-, hrealm, hstored⟩ := of_getActivePolicyBundle hactive
  refine ⟨realmId, stored, hcolon, ?_, rfl, rfl⟩
  have hfind := hkept realmId stored hcolon hslot hactive
  cases h : getActivePolicyBundle bundles realmId with
  | none =>
    have hnone := List.find?_eq_none.mp h stored (Table.mem_values.mpr hfind)
    rw [hrealm, hstored, beq_self_eq_true] at hnone
    exact absurd rfl hnone
  | some found =>
    obtain ⟨hfound, hrealm', hactive'⟩ := of_getActivePolicyBundle h
    rw [hone found stored hfound hfind hactive' hstored (hrealm'.trans hrealm.symm)]

theorem SlotSound.create (hs : SlotSound s) (persist : Persist) (bundle : StoredBundle)
    (hone : OneActive (createPolicyBundle persist s.policyBundles bundle).2) :
    SlotSound { s with
      policyBundles := (createPolicyBundle persist s.policyBundles bundle).2 } := by
  refine hs.write hone fun realmId stored _ _ hactive => ?_
  obtain ⟨hfind, -, -⟩ := of_getActivePolicyBundle hactive
  rw [createPolicyBundle]
  split
  · exact hfind
  · rename_i bundles hinsert
    obtain ⟨rfl, hnew, -⟩ := File.of_insertNew hinsert
    -- the id of the new bundle was not in use
    have hne : stored.id ≠ bundle.id := by
      intro heq
      rw [← heq, hfind] at hnew
      cases hnew
    rw [Table.find_put_of_ne _ hne, hfind]

theorem SlotSound.delete (hs : SlotSound s) (persist : Persist) (id : String)
    (hone : OneActive (deletePolicyBundle persist s.policyBundles id).2)
    (hslot : ∀ stored, s.policyBundles.find id = some stored → stored.active = true →
      s.slotHolds stored.realmId = false) :
    SlotSound { s with policyBundles := (deletePolicyBundle persist s.policyBundles id).2 } := by
  refine hs.write hone fun realmId stored _ hslotted hactive => ?_
  obtain ⟨hfind, hrealm, hstored⟩ := of_getActivePolicyBundle hactive
  -- the bundle in the slot is not the one that is deleted
  have hne : stored.id ≠ id := by
    intro heq
    have hempty := hslot stored (heq ▸ hfind) hstored
    rw [State.slotHolds, hslotted, Option.any_some, hrealm, startsWith_slotName] at hempty
    cases hempty
  show (s.policyBundles.erase id).find stored.id = _
  rw [Table.find_erase, if_neg hne, hfind]

theorem evaluate_eq (D : Deployment) (s : State) (req : PepDecisionRequest) :
    evaluate D s req =
      ((loadPolicyEngine D s (requestRealmId D req)).1 >>= respond D (requestRealmId D req)
          (loadPolicyEngine D s (requestRealmId D req)).2.policyRevision req,
        (loadPolicyEngine D s (requestRealmId D req)).2) := by
  simp only [evaluate]
  cases (loadPolicyEngine D s (requestRealmId D req)).1 with
  | _ => rfl

theorem doAuthzenEvaluate_eq (s : State) (auth : AdapterAuthentication D.config)
    (req : AuthZenEvaluationRequest) :
    doAuthzenEvaluate D s auth req =
      ((loadPolicyEngine D s auth.realmId).1 >>= authzenRespond auth.capabilities req,
        (loadPolicyEngine D s auth.realmId).2) := by
  simp only [doAuthzenEvaluate]
  cases (loadPolicyEngine D s auth.realmId).1 with
  | _ => rfl

/-- Every call keeps the slot sound, where it leaves one active bundle a realm and deletes no bundle
the slot holds. -/
theorem SlotSound.next (hs : SlotSound s) {call : Call D}
    (hone : OneActive (step D s call).2.policyBundles) (hunslotted : Unslotted s call) :
    SlotSound (step D s call).2 := by
  cases call with
  | createPolicyBundle bundle persist => exact hs.create persist bundle hone
  | deletePolicyBundle id persist => exact hs.delete persist id hone hunslotted
  | pepDecision auth wire now visited =>
    rw [step]
    split
    · exact hs
    · rename_i req _
      rw [doCheck]
      split
      · exact hs
      · have hloaded : SlotSound (evaluate D s (req.authenticated auth)).2 := by
          rw [evaluate_eq]
          exact hs.load auth.colon_notMem
        -- storing the decision changes neither the slot nor the bundles
        dsimp only [storeDecision]
        split
        · split <;> exact hloaded
        · exact hloaded
  | authzenEvaluate auth req =>
    show SlotSound (doAuthzenEvaluate D s auth req).2
    rw [doAuthzenEvaluate_eq]
    exact hs.load auth.colon_notMem

theorem SlotSound.followsActive (hs : SlotSound s) (call : Call D) :
    FollowsActive D s (step D s call).1 call := by
  cases call with
  | createPolicyBundle bundle persist | deletePolicyBundle id persist => trivial
  | pepDecision auth =>
    intro req answer hreq hreply hmiss
    rw [step, hreq] at hreply
    cases hreply
    obtain ⟨bundleId, hload⟩ := loadPolicyEngine_eq hs auth.colon_notMem
    refine ⟨bundleId, (loadPolicyEngine D s auth.realmId).2.policyRevision, ?_⟩
    rw [doCheck] at hmiss ⊢
    split at hmiss
    · cases hmiss
    rw [evaluate_eq]
    show (loadPolicyEngine D s auth.realmId).1 >>= _ = _
    rw [hload, bind_map_left]
    rfl
  | authzenEvaluate auth req =>
    obtain ⟨bundleId, hload⟩ := loadPolicyEngine_eq hs auth.colon_notMem
    refine ⟨bundleId, ?_⟩
    show Reply.authzen (doAuthzenEvaluate D s auth req).1 = _
    rw [doAuthzenEvaluate_eq, hload, bind_map_left]

/-- In a run from a new process in which a realm has at most one active bundle at a time, and no
active bundle is deleted while the slot holds one of its realm, every decision that does not come
from the decision cache is the one of the bundle that is active when it is made. -/
theorem decisions_follow_active_bundle (D : Deployment) (s : State)
    (hnew : s.policyBundleCache = none) (calls : List (Call D))
    (hone : ∀ e ∈ run (step D) s calls,
      OneActive e.before.policyBundles ∧ OneActive e.after.policyBundles)
    (hdelete : ∀ e ∈ run (step D) s calls, Unslotted e.before e.call) :
    ∀ e ∈ run (step D) s calls, FollowsActive D e.before e.reply e.call := by
  have hinit : SlotSound s := by
    intro name compiledJson h
    rw [hnew] at h
    cases h
  have hmeets : ∀ e ∈ run (step D) s calls,
      OneActive (step D e.before e.call).2.policyBundles ∧ Unslotted e.before e.call := by
    intro e he
    obtain ⟨ks, call, -, rfl⟩ := of_mem_run (step D) he
    exact ⟨(hone _ he).2, hdelete _ he⟩
  have hsound := (run_invariant (step D)
    (G := fun s call => OneActive (step D s call).2.policyBundles ∧ Unslotted s call)
    (fun s call hs hG => hs.next hG.1 hG.2) hinit hmeets).1
  intro e he
  have hbefore := (hsound e he).1
  obtain ⟨ks, call, -, rfl⟩ := of_mem_run (step D) he
  exact hbefore.followsActive call

def sampleRealm : RealmConfig where
  id := "corp"
  pepRegistrationsEnabled := true
  registrations :=
    [{ name := "edge", capabilities := ["authzen", "policy_tags", "local_response"] }]

def sampleDeployment (digest : KeyMaterial → String) (bundle : PolicyBundle) : Deployment where
  config := { realms := [sampleRealm], isUrlSafeRealmId := by decide }
  tuples := []
  decode := fun _ => .ok bundle
  digest := digest

def sampleAuth (digest : KeyMaterial → String) (bundle : PolicyBundle) :
    AdapterAuthentication (sampleDeployment digest bundle).config where
  realm := sampleRealm
  adapter := { name := "edge", capabilities := ["authzen", "policy_tags", "local_response"] }
  configured := List.mem_singleton.mpr rfl
  served := by decide

def sampleStored : StoredBundle where
  id := "corp:base"
  realmId := "corp"
  name := "base"
  compiledJson := .object []
  active := true

def newState (bundles : PolicyBundles) : State where
  policyBundles := bundles
  policyBundleCache := none
  decisionCache := ∅
  sharedCache := ∅

def allowBundle : PolicyBundle where
  version := "1"
  rules := []
  defaultDecision := .allow

def sampleAuthzen : AuthZenEvaluationRequest where
  subject := { id := some "alice" }
  actionName := "read"
  resource := { id := some "doc" }

theorem oneActive_of_length_le (h : bundles.values.length ≤ 1) : OneActive bundles := by
  intro b b' hb hb' _ _ _
  obtain ⟨i, hi, hbi⟩ := List.mem_iff_getElem.mp (Table.mem_values.mpr hb)
  obtain ⟨j, hj, hbj⟩ := List.mem_iff_getElem.mp (Table.mem_values.mpr hb')
  obtain rfl : i = j := by omega
  exact hbi.symm.trans hbj

theorem oneActive_of_run {calls : List (Call D)}
    (h : ∀ e ∈ run (step D) s calls,
      e.before.policyBundles.values.length ≤ 1 ∧ e.after.policyBundles.values.length ≤ 1) :
    ∀ e ∈ run (step D) s calls,
      OneActive e.before.policyBundles ∧ OneActive e.after.policyBundles :=
  fun e he => (h e he).imp oneActive_of_length_le oneActive_of_length_le

def Reply.allowed : Reply → Option Bool
  | .authzen (.ok response) => some response.decision
  | _ => none

def deletedDeployment : Deployment := sampleDeployment KeyMaterial.proxyName allowBundle

def deletedAuth : AdapterAuthentication deletedDeployment.config :=
  sampleAuth KeyMaterial.proxyName allowBundle

/-- The bundle is deleted before it has been loaded, and created again. -/
def unslottedCalls : List (Call deletedDeployment) := [
  .createPolicyBundle sampleStored .done,
  .deletePolicyBundle "corp:base" .done,
  .authzenEvaluate deletedAuth sampleAuthzen,
  .createPolicyBundle sampleStored .done,
  .authzenEvaluate deletedAuth sampleAuthzen,
  .authzenEvaluate deletedAuth sampleAuthzen]

/-- After a deletion while the slot is empty, the default of the realm denies. The bundle created
again fills the slot, and the last decision comes from there. -/
theorem decisions_follow_active_bundle_unslotted :
    (run (step deletedDeployment) (newState .empty) unslottedCalls).map
        (fun e => (e.before.policyBundleCache.isSome, e.reply.allowed)) =
      [(false, none), (false, none), (false, some false), (false, none), (false, some true),
        (true, some true)] ∧
    ∀ e ∈ run (step deletedDeployment) (newState .empty) unslottedCalls,
      FollowsActive deletedDeployment e.before e.reply e.call := by
  refine ⟨rfl, decisions_follow_active_bundle deletedDeployment (newState .empty) rfl
    unslottedCalls (oneActive_of_run (by decide +kernel)) fun e he => ?_⟩
  simp only [unslottedCalls, run_cons, run_nil, List.mem_cons, List.not_mem_nil, or_false] at he
  rcases he with rfl | rfl | rfl | rfl | rfl | rfl
  case inr.inl =>
    intro stored _ _
    rfl
  all_goals trivial

def deletedCalls : List (Call deletedDeployment) := [
  .createPolicyBundle sampleStored .done,
  .authzenEvaluate deletedAuth sampleAuthzen,
  .deletePolicyBundle "corp:base" .done,
  .authzenEvaluate deletedAuth sampleAuthzen]

/-- After its deletion the bundle that allows everything still decides, where the default of the
realm denies. -/
theorem deleted_bundle_still_decides :
    (∀ e ∈ run (step deletedDeployment) (newState .empty) deletedCalls,
      OneActive e.before.policyBundles ∧ OneActive e.after.policyBundles) ∧
    ∃ e ∈ run (step deletedDeployment) (newState .empty) deletedCalls,
      e.reply.allowed = some true ∧
      activeBundle deletedDeployment e.before.policyBundles "corp" =
        .ok { version := "1", rules := [], defaultDecision := .deny } ∧
      ¬FollowsActive deletedDeployment e.before e.reply e.call := by
  refine ⟨oneActive_of_run (by decide +kernel), _, List.mem_of_getElem? (i := 3) rfl, rfl, rfl, ?_⟩
  rintro ⟨bundleId, h⟩
  have hallowed := congrArg Reply.allowed h
  have hdenied : (some true : Option Bool) = some false := hallowed
  cases hdenied

end Qid.Proxy
