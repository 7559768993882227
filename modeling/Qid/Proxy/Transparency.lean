/-
When the decision cache is transparent.

The key of a cached decision is a projection of the request, with the name in the slot. A decision
reads more: the realm that answers, the capabilities of the adapter, the roles of the subject and
the risk score the adapter reports. The bundles are fixed here.
-/
import Qid.Proxy.ActiveBundle

namespace Qid.Proxy

open Lib Json Policy Risk

variable {s' s : State}

structure SameInputs (a b : PepDecisionRequest) : Prop where
  realm : a.adapterRealmId = b.adapterRealmId
  capabilities : ∀ capability, capability ∈ a.adapterCapabilities ↔
    capability ∈ b.adapterCapabilities
  roles : a.identity.map IdentityInfo.roles = b.identity.map IdentityInfo.roles
  riskScore : a.riskScore = b.riskScore

theorem destinationRiskTags_eq (destination : Option DestinationInfo) :
    destinationRiskTags destination =
      (destination.bind DestinationInfo.reputation).elim [] reputationTags ++
        (destination.bind DestinationInfo.category).elim [] categoryTags ++
        (destination.bind DestinationInfo.application).elim [] fun application =>
          ["risk:application:" ++ normalizeSignal application] := by
  cases destination with
  | _ => rfl

/-- The parts of two identities that a key tells apart. -/
def SameIdentity (a b : IdentityInfo) : Prop :=
  a.user = b.user ∧ a.groups = b.groups ∧ a.deviceId = b.deviceId ∧ a.posture = b.posture ∧
    a.authStrength = b.authStrength

section

variable {a b : PepDecisionRequest} {revision revision' : String}
  (hkey : keyMaterial a revision = keyMaterial b revision')
include hkey

section

variable (hsome : a.identity.isSome = b.identity.isSome)
include hsome

/-- Two identities that are both there or both absent, and agree in the key. -/
theorem identity_of_keyMaterial :
    a.identity = none ∧ b.identity = none ∨
      ∃ ia ib, a.identity = some ia ∧ b.identity = some ib ∧ SameIdentity ia ib := by
  simp only [keyMaterial, KeyMaterial.mk.injEq] at hkey
  obtain ⟨-, -, -, -, -, -, -, -, -, -, -, hidentity⟩ := hkey
  cases ha : a.identity with
  | none =>
    rw [ha] at hsome
    exact Or.inl ⟨rfl, Option.not_isSome_iff_eq_none.mp (by rw [← hsome]; decide)⟩
  | some ia =>
    rw [ha] at hsome
    obtain ⟨ib, hb⟩ := Option.isSome_iff_exists.mp hsome.symm
    rw [ha, hb] at hidentity
    exact Or.inr ⟨ia, ib, rfl, hb, hidentity⟩

theorem riskInput_congr : riskInput a = riskInput b := by
  have hidentity := identity_of_keyMaterial hkey hsome
  simp only [keyMaterial, KeyMaterial.mk.injEq] at hkey
  rcases hidentity with ⟨ha, hb⟩ | ⟨ia, ib, ha, hb, huser, -, hdevice, hposture, hstrength⟩
  · simp only [riskInput, ha, hb, hkey]
  · simp only [riskInput, ha, hb, hkey, Option.bind_some, Option.map_some,
      deviceTrustFromIdentity, devicePostureSignalFromIdentity, huser, hdevice, hposture, hstrength]

theorem pepDecisionRiskAdvisory_congr : pepDecisionRiskAdvisory a = pepDecisionRiskAdvisory b := by
  have hidentity := identity_of_keyMaterial hkey hsome
  have hrisk := riskInput_congr hkey hsome
  simp only [keyMaterial, KeyMaterial.mk.injEq] at hkey
  rcases hidentity with ⟨ha, hb⟩ | ⟨ia, ib, ha, hb, -, -, hdevice, -, hstrength⟩
  · simp only [pepDecisionRiskAdvisory, hrisk, destinationRiskTags_eq, hkey, ha, hb]
  · simp only [pepDecisionRiskAdvisory, hrisk, destinationRiskTags_eq, hkey, ha, hb,
      Option.isNone_some, Option.any_some, hdevice, hstrength]

end

theorem effectiveRiskScore_congr (h : SameInputs a b) :
    effectiveRiskScore a = effectiveRiskScore b := by
  have hsome : a.identity.isSome = b.identity.isSome := by
    rw [← Option.isSome_map, h.roles, Option.isSome_map]
  rw [effectiveRiskScore, effectiveRiskScore, h.riskScore, pepDecisionRiskAdvisory_congr hkey hsome]

theorem respond_congr (h : SameInputs a b) (D : Deployment) (realmId policyRevision : String)
    (engine : NativePolicyEngine) :
    respond D realmId policyRevision a engine = respond D realmId policyRevision b engine := by
  have hsome : a.identity.isSome = b.identity.isSome := by
    rw [← Option.isSome_map, h.roles, Option.isSome_map]
  have hname := congrArg KeyMaterial.proxyName hkey
  simp only [keyMaterial] at hname
  have hdecision : engine.decision (policyContext a) = engine.decision (policyContext b) := by
    -- the contexts differ in the entitlements, which no rule reads
    have hcontext : policyContext a =
        { policyContext b with entitlements := (policyContext a).entitlements } := by
      have hscore := effectiveRiskScore_congr hkey h
      simp only [keyMaterial, KeyMaterial.mk.injEq] at hkey
      simp only [policyContext, hscore, h.roles, hkey]
    rw [hcontext]
    simp only [NativePolicyEngine.decision, NativePolicyEngine.firstMatch, ruleMatches,
      evaluateExpression_entitlements]
    rfl
  simp only [respond, hdecision, hname, pepDecisionRiskAdvisory_congr hkey hsome,
    effectiveRiskScore_congr hkey h, pepDecisionObligations_congr h.capabilities]

end

variable (D : Deployment)

theorem loadPolicyEngine_congr (hbundles : s.policyBundles = s'.policyBundles)
    (hslot : s.policyBundleCache = s'.policyBundleCache) (realmId : String) :
    (loadPolicyEngine D s realmId).1 = (loadPolicyEngine D s' realmId).1 ∧
      (loadPolicyEngine D s realmId).2.policyRevision =
        (loadPolicyEngine D s' realmId).2.policyRevision := by
  have hrevision : s.policyRevision = s'.policyRevision := by
    rw [State.policyRevision, hslot, State.policyRevision]
  rw [loadPolicyEngine, loadPolicyEngine, hslot, hbundles]
  split
  · exact ⟨rfl, hrevision⟩
  · split
    · split
      · exact ⟨rfl, hrevision⟩
      · exact ⟨rfl, rfl⟩
    · split <;> exact ⟨rfl, hrevision⟩

theorem evaluate_congr {a b : PepDecisionRequest} {revision revision' : String}
    (hkey : keyMaterial a revision = keyMaterial b revision') (h : SameInputs a b)
    (hbundles : s.policyBundles = s'.policyBundles)
    (hslot : s.policyBundleCache = s'.policyBundleCache) :
    (evaluate D s a).1 = (evaluate D s' b).1 := by
  have hrealm : requestRealmId D a = requestRealmId D b := by
    rw [requestRealmId, h.realm, requestRealmId]
  obtain ⟨hengine, hrevision⟩ := loadPolicyEngine_congr D hbundles hslot (requestRealmId D b)
  rw [evaluate_eq, evaluate_eq, hrealm, hrevision]
  dsimp only
  congr 1
  funext engine
  exact respond_congr hkey h D _ _ engine

/-- With fixed bundles, the name in a sound slot determines what is in it. -/
theorem SlotSound.eq_of_policyRevision (hs : SlotSound s) (hs' : SlotSound s')
    (hbundles : s.policyBundles = s'.policyBundles)
    (hrevision : s.policyRevision = s'.policyRevision) (hne : s.policyRevision ≠ "") :
    s.policyBundleCache = s'.policyBundleCache := by
  cases hslot : s.policyBundleCache with
  | none =>
    rw [State.policyRevision, hslot] at hne
    exact absurd rfl hne
  | some slot =>
    cases hslot' : s'.policyBundleCache with
    | none =>
      rw [hrevision, State.policyRevision, hslot'] at hne
      exact absurd rfl hne
    | some slot' =>
      rw [State.policyRevision, State.policyRevision, hslot, hslot'] at hrevision
      obtain ⟨realmId, stored, hcolon, hactive, hname, hjson⟩ := hs slot.1 slot.2 hslot
      obtain ⟨realmId', stored', hcolon', hactive', hname', hjson'⟩ := hs' slot'.1 slot'.2 hslot'
      have hnames : slotName realmId stored.name = slotName realmId' stored'.name := by
        rw [← hname, ← hname']
        exact hrevision
      have hrealm : realmId = realmId' := realm_of_startsWith_slotName hcolon hcolon'
        (hnames ▸ startsWith_slotName realmId stored.name)
      rw [hbundles, hrealm, hactive', Option.some.injEq] at hactive
      rw [Option.some.injEq, Prod.ext_iff]
      refine ⟨?_, ?_⟩
      · rw [hname, hname', hnames]
      · rw [hjson, hjson', hactive]

/-- With the clock and the order in which the decision cache visits its keys. -/
structure PepCall (D : Deployment) where
  auth : AdapterAuthentication D.config
  wire : WirePepDecisionRequest
  now : Nat
  visited : List String := []

def PepCall.request {D : Deployment} (call : PepCall D) : Except String PepDecisionRequest :=
  (PepDecisionRequest.tryFrom call.wire).map fun req => req.authenticated call.auth

def checkStep (s : State) (call : PepCall D) : Except String Answer × State :=
  match call.request with
  | .error e => (.error e, s)
  | .ok req =>
    let r := doCheck D s call.now call.visited req
    (.ok r.1, r.2)

/-- Requests that the key does not tell apart agree on what it leaves out. -/
def KeyDecides {D : Deployment} (calls : List (PepCall D)) : Prop :=
  ∀ c ∈ calls, ∀ d ∈ calls, ∀ a b revision, c.request = .ok a → d.request = .ok b →
    keyMaterial a revision = keyMaterial b revision → SameInputs a b

section

variable {D : Deployment} {calls : List (PepCall D)} {bundles : PolicyBundles}
  {req : PepDecisionRequest} {response : PepDecisionResponse} {call : PepCall D} {digest : String}

/-- A cached response is what one of the requests was answered when it was evaluated. -/
def Evaluated (calls : List (PepCall D)) (bundles : PolicyBundles) (digest : String)
    (response : PepDecisionResponse) : Prop :=
  ∃ call ∈ calls, ∃ req origin, call.request = .ok req ∧ SlotSound origin ∧
    origin.policyBundles = bundles ∧ origin.policyRevision ≠ "" ∧
    digest = D.digest (keyMaterial req origin.policyRevision) ∧
    (evaluate D origin req).1 = .ok response

structure CacheInv (calls : List (PepCall D)) (bundles : PolicyBundles) (s : State) : Prop where
  slot : SlotSound s
  fixed : s.policyBundles = bundles
  process : s.decisionCache.Sound (Evaluated calls bundles)
  shared : s.sharedCache.Sound fun key response =>
    ∃ digest, key = sharedDecisionKey digest ∧ Evaluated calls bundles digest response

theorem sharedDecisionKey_injective : Function.Injective sharedDecisionKey := by
  intro digest digest' h
  simpa [sharedDecisionKey] using h

theorem cacheKeyDigest_eq_some (h : cacheKeyDigest D s req = some digest) :
    s.policyRevision ≠ "" ∧ digest = D.digest (keyMaterial req s.policyRevision) := by
  rw [cacheKeyDigest] at h
  split at h
  · cases h
  · rename_i hne
    rw [pepDecisionCacheKey] at h
    split at h
    · cases h
    · cases h
      refine ⟨fun heq => hne ?_, rfl⟩
      rw [heq]
      rfl

theorem CacheInv.get (h : CacheInv calls bundles s) {now : Nat}
    (hget : decisionCacheGet s now digest = some response) :
    Evaluated calls bundles digest response := by
  rw [decisionCacheGet, Option.or_eq_some_iff] at hget
  rcases hget with hget | ⟨-, hget⟩
  · exact h.process.get hget
  · obtain ⟨digest', hkey, hevaluated⟩ := h.shared.get hget
    rw [sharedDecisionKey_injective hkey]
    exact hevaluated

theorem CacheInv.evaluate (h : CacheInv calls bundles s)
    (hcolon : ':' ∉ (requestRealmId D req).toList) :
    CacheInv calls bundles (evaluate D s req).2 := by
  have hslot := h.slot.load (D := D) hcolon
  rw [evaluate_eq]
  rcases loadPolicyEngine_state D s (requestRealmId D req) with heq | ⟨stored, -, heq⟩
  · rw [heq]
    exact h
  · rw [heq] at hslot ⊢
    exact { slot := hslot, fixed := h.fixed, process := h.process, shared := h.shared }

theorem PepCall.colon_notMem (h : call.request = .ok req) :
    ':' ∉ (requestRealmId D req).toList := by
  rw [PepCall.request] at h
  cases hreq : PepDecisionRequest.tryFrom call.wire with
  | error =>
    rw [hreq] at h
    cases h
  | ok =>
    rw [hreq] at h
    cases h
    exact call.auth.colon_notMem

theorem CacheInv.doCheck (h : CacheInv calls bundles s) (hcall : call ∈ calls)
    (hreq : call.request = .ok req) :
    CacheInv calls bundles (doCheck D s call.now call.visited req).2 := by
  have hnext := h.evaluate (PepCall.colon_notMem hreq)
  rw [Proxy.doCheck]
  split
  · exact h
  · show CacheInv calls bundles (storeDecision _ _ _ _ _)
    unfold storeDecision
    split
    · rename_i digest response hdigest hresponse
      obtain ⟨hrevision, hdigest⟩ := cacheKeyDigest_eq_some hdigest
      split
      · have hevaluated : Evaluated calls bundles digest response :=
          ⟨call, hcall, req, s, hreq, h.slot, h.fixed, hrevision, hdigest, hresponse⟩
        refine ⟨hnext.slot, hnext.fixed, ?_, hnext.shared.set ⟨digest, rfl, hevaluated⟩ _ _⟩
        show (evictDecisions _ _).Sound _
        rw [evictDecisions]
        split
        · exact (hnext.process.set hevaluated _ _).retain _
        · exact hnext.process.set hevaluated _ _
      · exact hnext
    · exact hnext

theorem CacheInv.checkStep (h : CacheInv calls bundles s) (hcall : call ∈ calls) :
    CacheInv calls bundles (checkStep D s call).2 := by
  rw [Proxy.checkStep]
  split
  · exact h
  · rename_i req hreq
    exact h.doCheck hcall hreq

/-- A cached response is the one a new evaluation gives. -/
theorem CacheInv.transparent (h : CacheInv calls bundles s) (hdigest : Function.Injective D.digest)
    (hdecides : KeyDecides calls) (hcall : call ∈ calls) (hreq : call.request = .ok req)
    (hcached : (Proxy.doCheck D s call.now call.visited req).1.cached = true) :
    (Proxy.doCheck D s call.now call.visited req).1.result = (Proxy.evaluate D s req).1 := by
  rw [Proxy.doCheck] at hcached ⊢
  split at hcached
  · rename_i response hhit
    rw [Option.bind_eq_some_iff] at hhit
    obtain ⟨digest, hsome, hget⟩ := hhit
    obtain ⟨hrevision, hdigest'⟩ := cacheKeyDigest_eq_some hsome
    obtain ⟨origin_call, horigin, stored, origin, hstored, hslot, hbundles, -, hkey, hresult⟩ :=
      h.get hget
    -- the two requests have one key, so one revision and one slot
    have hmaterial := hdigest (hdigest'.symm.trans hkey)
    have hrev : s.policyRevision = origin.policyRevision :=
      congrArg KeyMaterial.policyRevision hmaterial
    have hslots : s.policyBundleCache = origin.policyBundleCache :=
      h.slot.eq_of_policyRevision hslot (h.fixed.trans hbundles.symm) hrev hrevision
    have hsame : SameInputs req stored := by
      rw [← hrev] at hmaterial
      exact hdecides call hcall origin_call horigin req stored _ hreq hstored hmaterial
    rw [evaluate_congr D hmaterial hsame (h.fixed.trans hbundles.symm) hslots, hresult]
  · cases hcached

end

/-- In every sequence of requests to a new process, in which requests with one key agree on the
realm, the capabilities, the roles and the reported risk score, a response from the decision cache
is the one a new evaluation of that very request gives. -/
theorem decision_cache_transparent (D : Deployment) (hdigest : Function.Injective D.digest)
    (bundles : PolicyBundles) (calls : List (PepCall D)) (hdecides : KeyDecides calls) :
    ∀ e ∈ run (checkStep D) (newState bundles) calls, ∀ req answer, e.call.request = .ok req →
      e.reply = .ok answer → answer.cached = true →
        answer.result = (evaluate D e.before req).1 := by
  have hinit : CacheInv calls bundles (newState bundles) := {
    slot := fun name compiledJson h => by cases h
    fixed := rfl
    process := ExpiringMap.sound_empty
    shared := ExpiringMap.sound_empty }
  have hcalls : ∀ e ∈ run (checkStep D) (newState bundles) calls, e.call ∈ calls :=
    fun e he => call_mem_of_mem_run (checkStep D) he
  have hinv := (run_invariant (checkStep D)
    (fun s call hs hcall => hs.checkStep hcall) hinit hcalls).1
  intro e he req answer hreq hreply hcached
  have hbefore := (hinv e he).1
  have hcall := hcalls e he
  obtain ⟨ks, call, -, rfl⟩ := of_mem_run (checkStep D) he
  change (checkStep D _ call).1 = _ at hreply
  rw [checkStep, show call.request = .ok req from hreq] at hreply
  cases hreply
  exact hbefore.transparent hdigest hdecides hcall hreq hcached

section

variable {α : Type} {code : α → List Char} {l l' : List α} {s t : List Char}

/-- The items one after the other, a mark before each and another at the end. -/
def listCode (code : α → List Char) (l : List α) : List Char :=
  l.foldr (fun a rest => '+' :: code a ++ rest) ['.']

theorem listCode_append (hcode : ∀ {a b s t}, code a ++ s = code b ++ t → a = b ∧ s = t)
    (h : listCode code l ++ s = listCode code l' ++ t) : l = l' ∧ s = t := by
  induction l generalizing l' with
  | nil =>
    cases l' with
    | nil => exact ⟨rfl, (List.cons.inj h).2⟩
    | cons => exact absurd (List.cons.inj h).1 (by decide)
  | cons a l ih =>
    cases l' with
    | nil => exact absurd (List.cons.inj h).1 (by decide)
    | cons b l' =>
      simp only [listCode, List.foldr_cons, List.cons_append, List.append_assoc, List.cons.injEq,
        true_and] at h
      obtain ⟨rfl, hrest⟩ := hcode h
      obtain ⟨rfl, hst⟩ := ih hrest
      exact ⟨rfl, hst⟩

def textCode (text : String) : List Char := listCode (fun c => [c]) text.toList

def KeyMaterial.parts (m : KeyMaterial) : List (List String) :=
  [[m.policyRevision], [m.proxyName], m.action.toList, m.host.toList, m.method.toList,
    m.path.toList, m.sni.toList,
    (m.dstPort.map fun port => String.ofList (List.replicate port.toNat 'x')).toList,
    m.destinationCategory.toList, m.destinationReputation.toList,
    m.destinationApplication.toList, m.user.toList, m.groups, m.deviceId.toList, m.posture,
    m.authStrength.toList]

/-- A digest without a collision. -/
def plainDigest (m : KeyMaterial) : String := String.ofList (listCode (listCode textCode) m.parts)

theorem plainDigest_injective : Function.Injective plainDigest := by
  intro m m' h
  have htext {text text' s t} (h : textCode text ++ s = textCode text' ++ t) :
      text = text' ∧ s = t :=
    (listCode_append List.cons.inj h).imp_left String.toList_injective
  have hparts : m.parts = m'.parts := by
    have hcode := String.ofList_injective h
    rw [← List.append_nil (listCode _ m.parts), ← List.append_nil (listCode _ m'.parts)] at hcode
    exact (listCode_append (listCode_append htext) hcode).1
  have hlist {α : Type} : Function.Injective (Option.toList : Option α → List α) :=
    fun a b h => by simpa using congrArg List.head? h
  have hport : Function.Injective fun p : UInt16 => String.ofList (List.replicate p.toNat 'x') :=
    fun p q h => UInt16.toNat_inj.mp (by simpa using congrArg String.length h)
  simp only [KeyMaterial.parts, List.cons.injEq, hlist.eq_iff,
    (Option.map_injective hport).eq_iff] at hparts
  cases m
  simp_all

end

def roleBundle : PolicyBundle where
  version := "1"
  rules := [{
    name := "admins"
    ruleType := .allow
    action := "*"
    conditions := [{ field := "roles", op := "contains", value := .string "admin" }] }]
  defaultDecision := .deny

section

variable (digest : KeyMaterial → String)

def roleCall (seconds : Nat) (roles : List String) :
    PepCall (sampleDeployment digest roleBundle) where
  auth := sampleAuth digest roleBundle
  wire := {
    principal := some { id := some "alice", roles := roles }
    operation := { name := "read" }
    registration := "edge" }
  now := seconds * Dpop.nanosPerSecond

/-- The first request fills the slot, the second stores its decision, and the third is made
without the role. -/
def roleCalls : List (PepCall (sampleDeployment digest roleBundle)) :=
  [roleCall digest 0 ["admin"], roleCall digest 1 ["admin"], roleCall digest 2 []]

end

def repeatedCalls (digest : KeyMaterial → String) :
    List (PepCall (sampleDeployment digest roleBundle)) :=
  [0, 1, 2].map fun second => roleCall digest second ["admin"]

theorem keyDecides_repeatedCalls : KeyDecides (repeatedCalls plainDigest) := by
  have hrequest : ∀ c ∈ repeatedCalls plainDigest,
      c.request = (roleCall plainDigest 0 ["admin"]).request := by
    intro c hc
    obtain ⟨second, -, rfl⟩ := List.mem_map.mp hc
    simp only [PepCall.request, roleCall]
  intro c hc d hd a b revision ha hb _
  rw [hrequest c hc] at ha
  rw [hrequest d hd, ha] at hb
  cases hb
  exact ⟨rfl, fun _ => Iff.rfl, rfl, rfl⟩

theorem decision_cache_transparent_repeated :
    ∃ digest : KeyMaterial → String,
      (run (checkStep (sampleDeployment digest roleBundle))
        (newState (Table.empty.put sampleStored)) (repeatedCalls digest)).map
          (fun e => e.reply.map (·.cached)) = [.ok false, .ok false, .ok true] ∧
      ∀ e ∈ run (checkStep (sampleDeployment digest roleBundle))
        (newState (Table.empty.put sampleStored)) (repeatedCalls digest),
        ∀ req answer, e.call.request = .ok req → e.reply = .ok answer → answer.cached = true →
          answer.result = (evaluate (sampleDeployment digest roleBundle) e.before req).1 :=
  ⟨plainDigest, by decide +kernel,
    decision_cache_transparent _ plainDigest_injective _ _ keyDecides_repeatedCalls⟩

theorem third_response_allows :
    ∃ e ∈ run (checkStep (sampleDeployment plainDigest roleBundle))
      (newState (Table.empty.put sampleStored)) (roleCalls plainDigest),
        (e.call.request.bind fun req => e.reply.map fun answer =>
          (answer.cached, answer.result.map PepDecisionResponse.decision,
            (evaluate (sampleDeployment plainDigest roleBundle) e.before req).1.map
              PepDecisionResponse.decision)) = .ok (true, .ok "allow", .ok "deny") := by
  decide +kernel

/-- A subject that has lost a role is still allowed what the role allowed, though no two keys have
one digest. -/
theorem cached_decision_ignores_roles :
    ∃ digest : KeyMaterial → String, Function.Injective digest ∧
      ∃ e ∈ run (checkStep (sampleDeployment digest roleBundle))
        (newState (Table.empty.put sampleStored)) (roleCalls digest), ∃ req answer,
          e.call.request = .ok req ∧ e.reply = .ok answer ∧ answer.cached = true ∧
          answer.result.map PepDecisionResponse.decision = .ok "allow" ∧
          (evaluate (sampleDeployment digest roleBundle) e.before req).1.map
            PepDecisionResponse.decision = .ok "deny" := by
  obtain ⟨e, he, h⟩ := third_response_allows
  cases hreq : e.call.request with
  | error =>
    rw [hreq] at h
    cases h
  | ok req =>
    cases hreply : e.reply with
    | error =>
      rw [hreq, hreply] at h
      cases h
    | ok answer =>
      rw [hreq, hreply] at h
      simp only [Except.bind, Except.map, Except.ok.injEq, Prod.mk.injEq] at h
      exact ⟨plainDigest, plainDigest_injective, e, he, req, answer, hreq, hreply, h⟩

end Qid.Proxy
