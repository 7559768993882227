/-
Safety of device grants.

The poll that consumes a grant does it by a claim. Approving is not a claim: the tokens are for the
user who was the last to approve when the poll read the grant.
-/
import Qid.OAuth.DeviceProtocol

namespace Qid.OAuth

open Lib Lib.Service Models Storage

variable {q : DeviceRun} {i : Nat} {g : DeviceAuthorizationGrant} {h : List StoreEvent}
  {m m' : Served Store Request DevicePhase} {e : StoreEvent}

section

def approver (hash : String) (e : StoreEvent) : Option String :=
  e.reply.bind fun r => approvalOf hash e.before r.1

def DevicePhase.copy : DevicePhase → Option DeviceAuthorizationGrant
  | .read g | .user g _ | .consumed g _ => some g
  | _ => none

/-- The user that was found is the one of the copy. -/
def DevicePhase.ForApprover : DevicePhase → Prop
  | .user g u | .consumed g u => g.userId = some u.id
  | _ => True

variable (st : SharedState) (hash : String) (g₀ : DeviceAuthorizationGrant)

/-- The `i`-th request has read the grant, which was neither expired nor consumed, and held
the latest approval. -/
def ReadGrant (h : List StoreEvent) (i : Nat) (q : DeviceRun) (g : DeviceAuthorizationGrant) :
    Prop :=
  ∃ pre e post persist, h = pre ++ e :: post ∧ e.call = .advance i persist ∧
    e.reply = some ⟨.getDeviceAuthorizationGrant hash, .ok (some g)⟩ ∧
    g.userId = latest (approver hash) g₀.userId pre ∧ g.SameTerms g₀ ∧ g.consumed = false ∧
    q.run.now < g₀.expiresAt

structure DeviceTrail (h : List StoreEvent) (m : Served Store Request DevicePhase) : Prop where
  stored : ∃ g, m.shared.deviceAuthorizationGrants.find hash = some g ∧
    g.userId = latest (approver hash) g₀.userId h ∧ g.SameTerms g₀
  held : ∀ (i : Nat) (q : DeviceRun) (ph : DevicePhase) (g : DeviceAuthorizationGrant),
    m.jobs[i]? = some (.deviceCode q, ph) → ph.copy = some g → q.Presents st hash →
    ReadGrant hash g₀ h i q g
  found : ∀ (i : Nat) (q : DeviceRun) (ph : DevicePhase),
    m.jobs[i]? = some (.deviceCode q, ph) → ph.ForApprover

variable {st hash g₀}

theorem ReadGrant.mono (hg : ReadGrant hash g₀ h i q g) (h' : List StoreEvent) :
    ReadGrant hash g₀ (h ++ h') i q g := by
  obtain ⟨pre, e, post, persist, heq, hread⟩ := hg
  refine ⟨pre, e, post ++ h', persist, ?_, hread⟩
  rw [heq, List.append_assoc, List.cons_append]

theorem checkDeviceGrant_of_copy {found : Option DeviceAuthorizationGrant}
    (h : (pollAfterRead q found).copy = some g) :
    found = some g ∧ q.run.now < g.expiresAt ∧ g.consumed = false := by
  rw [pollAfterRead] at h
  cases hc : checkDeviceGrant q found with
  | error =>
    rw [hc] at h
    cases h
  | ok g' =>
    rw [hc] at h
    cases h
    simp only [checkDeviceGrant, bind_eq_ok, okOr_eq_ok, ensure_eq_ok, pure_eq_ok] at hc
    obtain ⟨g', hfound, -, hnow, -, hfree, -, -, rfl⟩ := hc
    exact ⟨hfound, hnow, hfree⟩

variable (hm : DeviceTrail st hash g₀ h m)
include hm

theorem DeviceTrail.stored_answer (persist : Persist) (c : Call) :
    ∃ g, (answer persist m.shared c).2.deviceAuthorizationGrants.find hash = some g ∧
      g.userId = (approvalOf hash m.shared c).or (latest (approver hash) g₀.userId h) ∧
      g.SameTerms g₀ := by
  obtain ⟨g, hfind, huser, hterms⟩ := hm.stored
  obtain ⟨g', hfound, -, huser', hterms'⟩ := (grantStep persist m.shared hash c).of_found hfind
  refine ⟨g', hfound, huser ▸ huser', ?_⟩
  rw [DeviceAuthorizationGrant.SameTerms, hterms', hterms]

variable {ph : DevicePhase} {c : Call}

theorem DeviceTrail.held_next (persist : Persist) (hjob : m.jobs[i]? = some (.deviceCode q, ph))
    (hcall : DeviceCall st q ph c)
    (hcopy : (deviceNext q ph c (answer persist m.shared c).1).copy = some g)
    (hq : q.Presents st hash)
    (he : e = { before := m.shared
                call := .advance i persist
                reply := some ⟨c, (answer persist m.shared c).1⟩
                after := (answer persist m.shared c).2 }) : ReadGrant hash g₀ (h ++ [e]) i q g := by
  cases hcall with
  | @read code hcode =>
    obtain ⟨code', hcode', hhash⟩ := hq
    rw [hcode] at hcode'
    cases hcode'
    subst hhash
    obtain ⟨hfind, hnow, hfree⟩ := checkDeviceGrant_of_copy hcopy
    obtain ⟨g', hfind', huser, hterms⟩ := hm.stored
    rw [hfind] at hfind'
    cases hfind'
    have hexpires : g.expiresAt = g₀.expiresAt := by rw [hterms]
    refine ⟨h, e, [], persist, rfl, ?_⟩
    rw [he]
    refine ⟨rfl, ?_, huser, hterms, hfree, hexpires ▸ hnow⟩
    show some (⟨.getDeviceAuthorizationGrant _,
      .ok (m.shared.deviceAuthorizationGrants.find _)⟩ : (c : Call) × c.Answer) = _
    rw [hfind]
  | poll => cases hcopy
  | @user g' id hid =>
    have hcopy : (deviceNext q (.read g') (.getUserById id)
      (.ok (m.shared.directory.users.find id))).copy = some g := hcopy
    generalize m.shared.directory.users.find id = found at hcopy
    cases found with
    | none => cases hcopy
    | some =>
      cases hcopy
      exact (hm.held i q _ g hjob rfl hq).mono _
  | @consume g' u code hcode =>
    have hheld := hm.held i q _ g' hjob rfl hq
    generalize (answer persist m.shared
      (.consumeDeviceAuthorizationGrant (st.sha256Base64url code))).1 = a at hcopy
    cases a with
    | error => cases hcopy
    | ok =>
      cases hcopy
      exact hheld.mono _
  | _ =>
    cases hcopy
    exact (hm.held i q _ g hjob rfl hq).mono _

theorem DeviceTrail.found_next (persist : Persist) (hjob : m.jobs[i]? = some (.deviceCode q, ph))
    (hcall : DeviceCall st q ph c) :
    (deviceNext q ph c (answer persist m.shared c).1).ForApprover := by
  have hph := hm.found i q ph hjob
  cases hcall with
  | @read code hcode =>
    show (pollAfterRead q _).ForApprover
    rw [pollAfterRead]
    cases checkDeviceGrant q _ with
    | _ => exact trivial
  | poll => exact trivial
  | @user g id hid =>
    show (deviceNext q (.read g) (.getUserById id)
      (.ok (m.shared.directory.users.find id))).ForApprover
    cases hfound : m.shared.directory.users.find id with
    | none => exact trivial
    | some u =>
      have hkey : u.id = id := m.shared.directory.users.keyed id u hfound
      exact hid.trans (congrArg some hkey.symm)
  | @consume g u code hcode =>
    generalize (answer persist m.shared
      (.consumeDeviceAuthorizationGrant (st.sha256Base64url code))).1 = a
    cases a with
    | error => exact trivial
    | ok => exact hph
  | _ => exact hph

theorem DeviceTrail.moved (hmoved : Moved (pollProtocol st) pollStart answer m e m') :
    DeviceTrail st hash g₀ (h ++ [e]) m' := by
  refine ⟨?_, fun i q ph g hi hcopy hq => ?_, fun i q ph hi => ?_⟩
  · rw [latest_append_singleton]
    cases hmoved with
    | arrive q | idle i persist => exact hm.stored
    | outside c persist | advance i persist q ph c => exact hm.stored_answer persist c
  · rcases hmoved.of_job hi with hi | ⟨hstart, -⟩ | ⟨ph₀, persist, c, hi, hcall, he, hnext⟩
    · exact (hm.held i q ph g hi hcopy hq).mono _
    · rw [hstart] at hcopy
      cases hcopy
    · rw [hnext] at hcopy
      exact hm.held_next persist hi hcall hcopy hq he
  · rcases hmoved.of_job hi with hi | ⟨hstart, -⟩ | ⟨ph₀, persist, c, hi, hcall, -, hnext⟩
    · exact hm.found i q ph hi
    · rw [hstart]
      exact trivial
    · rw [hnext]
      exact hm.found_next persist hi hcall

end

section

/-- The access token of a response is opaque, or its subject is the user. -/
def IssuedTo (st : SharedState) (q : DeviceRun) (userId : String) (r : TokenResponse) : Prop :=
  r.accessToken = encodeOpaqueAccessToken q.run.accessJti ∨
    ∃ claims, st.signer.signWithTyp claims "at+jwt" = .ok r.accessToken ∧
      claims.jti = some q.run.accessJti ∧ claims.sub = some userId

/-- The user whose approval was the latest one when the `i`-th request read the grant, which
was neither expired nor consumed then. -/
def BoundTo (hash : String) (g₀ : DeviceAuthorizationGrant) (h : List StoreEvent) (i : Nat)
    (q : DeviceRun) (userId : String) : Prop :=
  ∃ g, ReadGrant hash g₀ h i q g ∧ g.userId = some userId

/-- What holds of a grant `g₀`, stored under `hash` at the start. -/
structure DeviceSafe (st : SharedState) (hash : String) (g₀ : DeviceAuthorizationGrant)
    (start : Store) (acts : List Act) : Prop where
  /-- At most one poll of the grant returns tokens. -/
  once : ∀ {i j : Nat} {q q' : DeviceRun} {r r' : TokenResponse},
    (arrivals acts)[i]? = some (.deviceCode q) → q.Presents st hash →
    (arrivals acts)[j]? = some (.deviceCode q') → q'.Presents st hash →
    Succeeded (final (step st) (opened start) acts) i r →
    Succeeded (final (step st) (opened start) acts) j r' → i = j
  /-- They are for the user of the latest approval that the poll has read. -/
  bound : ∀ {i : Nat} {q : DeviceRun} {r : TokenResponse},
    (arrivals acts)[i]? = some (.deviceCode q) → q.Presents st hash →
    Succeeded (final (step st) (opened start) acts) i r →
    ∃ userId, BoundTo hash g₀ (trace st (opened start) acts) i q userId ∧ IssuedTo st q userId r
  /-- So are the records of the tokens. -/
  recorded : ∀ e ∈ trace st (opened start) acts, ∀ (i : Nat) (persist : Persist) (q : DeviceRun),
    e.call = .advance i persist → (arrivals acts)[i]? = some (.deviceCode q) →
    q.Presents st hash →
    (∀ f a, e.reply = some ⟨.createTokenFamily f, a⟩ →
      BoundTo hash g₀ (trace st (opened start) acts) i q f.userId) ∧
    ∀ t a, e.reply = some ⟨.createAccessToken t, a⟩ →
      BoundTo hash g₀ (trace st (opened start) acts) i q t.userId
  /-- An approval sets the user and the time of the approval, and nothing else. -/
  approval : ∀ e ∈ trace st (opened start) acts, ∀ userId, approver hash e = some userId →
    ∃ g approvedAt, e.before.deviceAuthorizationGrants.find hash = some g ∧
      e.after.deviceAuthorizationGrants.find hash =
        some { g with userId := some userId, approvedAt := some approvedAt }

variable {st : SharedState} {hash userId : String} {g₀ : DeviceAuthorizationGrant} {start : Store}
  {acts : List Act} {r : TokenResponse}

theorem deviceTrail_run (hstart : start.deviceAuthorizationGrants.find hash = some g₀)
    (acts : List Act) :
    ∃ m, Reached (pollProtocol st) (pollReturns st) (final (step st) (opened start) acts) m ∧
      m.jobs.map Prod.fst = arrivals acts ∧
      DeviceTrail st hash g₀ (trace st (opened start) acts) m ∧
      Claimed (GrantConsumed hash) (ConsumesGrant st hash) m := by
  refine Service.track answer (poll_serve st) (I := fun h m =>
      DeviceTrail st hash g₀ h m ∧ Claimed (GrantConsumed hash) (ConsumesGrant st hash) m)
    (fun h m e m' hinv hmoved => ?_) (reached_opened start) (h := [])
    ⟨⟨⟨g₀, hstart, rfl, rfl⟩, fun i q ph g hi => (by cases hi), fun i q ph hi => (by cases hi)⟩,
      claimed_opened start⟩ acts
  refine ⟨hinv.1.moved hmoved, hinv.2.moved ?_ (fun persist s c hs => hs.answer persist c)
    claims_grant hmoved⟩
  intro q hq
  cases q <;> exact hq

theorem consumed_of_succeeded {w : Endpoint} (hw : Reached (pollProtocol st) (pollReturns st) w m)
    (hrequests : m.jobs.map Prod.fst = arrivals acts)
    (hi : (arrivals acts)[i]? = some (.deviceCode q)) (hr : Succeeded w i r) :
    ∃ g u, m.jobs[i]? = some (.deviceCode q, .consumed g u) ∧ IssuedTo st q u.id r := by
  obtain ⟨req, ph, hjob, hlead⟩ := hw.job hr
  have hreq : Request.deviceCode q = req :=
    request_eq hjob (by rw [List.append_nil, hrequests]; exact hi)
  subst hreq
  have hret : deviceReturns st q ph (.ok r) := hlead
  cases ph with
  | consumed g u =>
    refine ⟨g, u, hjob, ?_⟩
    obtain ⟨issuer, clientId, realmId, scopes, claims, h⟩ := hret
    rw [formatAccessToken] at h
    cases hformat : (st.tokenTtl realmId).accessTokenFormat with
    | isOpaque =>
      rw [hformat] at h
      exact Or.inl (Except.ok.inj h).symm
    | jwt =>
      rw [hformat] at h
      exact Or.inr ⟨_, signed_eq_ok h, rfl, rfl⟩
  | _ => exact hret.elim

theorem DeviceTrail.recorded (hm : DeviceTrail st hash g₀ h m)
    (hmoved : Moved (pollProtocol st) pollStart answer m e m') {persist : Persist}
    (hact : e.call = .advance i persist) {later : List Request}
    (hi : (m.jobs.map Prod.fst ++ later)[i]? = some (.deviceCode q)) (hq : q.Presents st hash) :
    (∀ f a, e.reply = some ⟨.createTokenFamily f, a⟩ → BoundTo hash g₀ h i q f.userId) ∧
    ∀ t a, e.reply = some ⟨.createAccessToken t, a⟩ → BoundTo hash g₀ h i q t.userId := by
  cases hmoved with
  | arrive q | outside c persist => cases hact
  | idle => exact ⟨fun f a hf => (by cases hf), fun t a ht => (by cases ht)⟩
  | advance i persist req ph c hjob hcall =>
    cases hact
    have hreq := request_eq hjob hi
    subst hreq
    have hfound := hm.found i q ph hjob
    refine ⟨fun f a hf => ?_, fun t a ht => ?_⟩
    · cases hf
      cases hcall with
      | @family g u f hf => exact ⟨g, hm.held i q _ g hjob rfl hq, hf ▸ hfound⟩
    · cases ht
      cases hcall with
      | @token g u t ht => exact ⟨g, hm.held i q _ g hjob rfl hq, ht ▸ hfound⟩

theorem approval_moved (hmoved : Moved (pollProtocol st) pollStart answer m e m')
    (happrover : approver hash e = some userId) :
    ∃ g approvedAt, e.before.deviceAuthorizationGrants.find hash = some g ∧
      e.after.deviceAuthorizationGrants.find hash =
        some { g with userId := some userId, approvedAt := some approvedAt } := by
  have hanswer (persist : Persist) (c : Call) (h : approvalOf hash m.shared c = some userId) :
      ∃ g approvedAt, m.shared.deviceAuthorizationGrants.find hash = some g ∧
        (answer persist m.shared c).2.deviceAuthorizationGrants.find hash =
          some { g with userId := some userId, approvedAt := some approvedAt } := by
    have hstep := grantStep persist m.shared hash c
    generalize (answer persist m.shared c).2.deviceAuthorizationGrants.find hash = found
      at hstep ⊢
    cases hstep with
    | kept _ hnone =>
      rw [hnone] at h
      cases h
    | @approved g userCode userId' approvedAt a hg happroval =>
      rw [happroval] at h
      cases h
      exact ⟨g, approvedAt, hg, rfl⟩
    | _ => cases h
  cases hmoved with
  | arrive q | idle i persist => cases happrover
  | outside c persist | advance i persist q ph c => exact hanswer persist c happrover

/-- Device grants are safe in every run. -/
theorem device_grant_safe (hstart : start.deviceAuthorizationGrants.find hash = some g₀) :
    DeviceSafe st hash g₀ start acts := by
  have hevent := fun e (he : e ∈ trace st (opened start) acts) =>
    Service.track_event answer (poll_serve st) (I := fun h m => DeviceTrail st hash g₀ h m ∧
      Claimed (GrantConsumed hash) (ConsumesGrant st hash) m)
      (fun acts₁ _ _ => deviceTrail_run hstart acts₁) he
  refine ⟨?_, ?_, ?_, ?_⟩
  · intro i j q q' r r' hi hq hj hq' hr hr'
    obtain ⟨m, hw, hrequests, hm, hclaimed⟩ := deviceTrail_run hstart acts
    obtain ⟨g, u, hjob, -⟩ := consumed_of_succeeded hw hrequests hi hr
    obtain ⟨g', u', hjob', -⟩ := consumed_of_succeeded hw hrequests hj hr'
    exact hclaimed.unique hjob hq hjob' hq'
  · intro i q r hi hq hr
    obtain ⟨m, hw, hrequests, hm, -⟩ := deviceTrail_run hstart acts
    obtain ⟨g, u, hjob, hissued⟩ := consumed_of_succeeded hw hrequests hi hr
    exact ⟨u.id, ⟨g, hm.held i q _ g hjob rfl hq, hm.found i q _ hjob⟩, hissued⟩
  · intro e he i persist q hact hi hq
    obtain ⟨pre, post, m, m', later, htrace, ⟨hm, -⟩, hmoved, hrequests⟩ := hevent e he
    obtain ⟨hfamily, htoken⟩ := hm.recorded hmoved hact (hrequests ▸ hi) hq
    rw [trace, htrace]
    exact ⟨fun f a hf => (hfamily f a hf).imp fun g hg => ⟨hg.1.mono _, hg.2⟩,
      fun t a ht => (htoken t a ht).imp fun g hg => ⟨hg.1.mono _, hg.2⟩⟩
  · intro e he userId happrover
    obtain ⟨pre, post, m, m', later, -, -, hmoved, -⟩ := hevent e he
    exact approval_moved hmoved happrover

end

def sampleGrant : DeviceAuthorizationGrant :=
  { deviceCodeHash := "device", userCode := "USER", clientId := "app", realmId := "main"
    scopes := ["openid"], resource := [], audience := [], userId := none, expiresAt := 300
    approvedAt := none, consumed := false, lastPollAt := none, pollIntervalSeconds := 5 }

def sampleSession (user : String) : Session :=
  { id := user, realmId := "main", userId := user, idleExpiresAt := 1000
    absoluteExpiresAt := 1000, revoked := false }

def sampleGrantStore : Store :=
  { sampleStore with
    deviceAuthorizationGrants := Table.empty.put sampleGrant
    directory :=
      { sampleStore.directory with
        users := sampleStore.directory.users.put (sampleUser "bob")
        sessions := (Table.empty.put (sampleSession "alice")).put (sampleSession "bob") } }

def sampleApproval (user : String) (now : Nat) : ApproveRun :=
  { userCode := "USER", cookie := some ("qid=" ++ user), now := now, approvedAt := now }

def samplePoll : DeviceRun :=
  { deviceCode := some "device", clientId := some "app"
    target := { scope := none, audience := none, resource := none }, cnf := none
    run := sampleRun 200 "1" }

/-- Alice approves, then Bob does, and the device polls; then Alice approves again. -/
def sampleApprovals : List Act :=
  [.arrive (.approveDevice (sampleApproval "alice" 110))] ++ List.replicate 4 (.advance 0 .done) ++
  [.arrive (.approveDevice (sampleApproval "bob" 120))] ++ List.replicate 4 (.advance 1 .done) ++
  [.arrive (.deviceCode samplePoll)] ++ List.replicate 5 (.advance 2 .done) ++
  [.arrive (.approveDevice (sampleApproval "alice" 400))] ++ List.replicate 4 (.advance 3 .done)

def sampleGrantAfter (n : Nat) : Option DeviceAuthorizationGrant :=
  (final (step sampleState) (opened sampleGrantStore)
    (sampleApprovals.take n)).shared.deviceAuthorizationGrants.find "device"

/-- A later approval by another user rebinds the grant, and the tokens are for that user; an
approval changes a consumed and expired grant as well. -/
theorem approval_rebinds_grant :
    (sampleGrantAfter 5).map (fun g => (g.userId, g.approvedAt)) = some (some "alice", some 110) ∧
    (sampleGrantAfter 10).map (fun g => (g.userId, g.approvedAt)) = some (some "bob", some 120) ∧
    ((final (step sampleState) (opened sampleGrantStore) sampleApprovals).shared.accessTokens.find
      "oat_a1").map (fun t => t.userId) = some "bob" ∧
    (sampleGrantAfter 16).map (fun g => (g.userId, g.consumed)) = some (some "bob", true) ∧
    (sampleGrantAfter 21).map (fun g => (g.userId, g.approvedAt, g.expiresAt)) =
      some (some "alice", some 400, 300) := by
  decide +kernel

theorem device_grant_safe_sample :
    DeviceSafe sampleState "device" sampleGrant sampleGrantStore sampleApprovals ∧
    (∃ r, Succeeded (final (step sampleState) (opened sampleGrantStore) sampleApprovals) 2 r) ∧
    ∃ userId, BoundTo "device" sampleGrant
      (trace sampleState (opened sampleGrantStore) sampleApprovals) 2 samplePoll userId := by
  have hsafe : DeviceSafe sampleState "device" sampleGrant sampleGrantStore sampleApprovals :=
    device_grant_safe (Table.find_put_self _ _)
  have hr : ∃ r, Succeeded (final (step sampleState) (opened sampleGrantStore) sampleApprovals) 2
      r := ⟨_, rfl⟩
  obtain ⟨userId, hbound, -⟩ := hsafe.bound rfl ⟨"device", rfl, rfl⟩ hr.choose_spec
  exact ⟨hsafe, hr, userId, hbound⟩

end Qid.OAuth
