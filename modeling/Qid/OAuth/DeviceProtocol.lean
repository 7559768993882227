/-
The protocol of a device poll.

A poll reads the grant, finds the user of the approval that its copy holds, consumes the grant and
issues tokens for that user. Consuming is a claim in the sense of `Lib.Claim`.
-/
import Qid.Lib.Claim
import Qid.OAuth.Endpoint

namespace Qid.OAuth

open Lib Lib.Service Models Storage

variable {g : DeviceAuthorizationGrant} {hash : String}

inductive DevicePhase where
  | start
  | read (g : DeviceAuthorizationGrant)
  | user (g : DeviceAuthorizationGrant) (u : Models.User)
  | consumed (g : DeviceAuthorizationGrant) (u : Models.User)
  | refused
  /-- Any request that is not a poll. -/
  | other

def Call.consumesGrant : Call → Bool
  | .consumeDeviceAuthorizationGrant _ => true
  | _ => false

section

variable (st : SharedState) (q : DeviceRun)

def pollAfterRead (found : Option DeviceAuthorizationGrant) : DevicePhase :=
  match checkDeviceGrant q found with
  | .ok g => .read g
  | .error _ => .refused

inductive DeviceCall : DevicePhase → Call → Prop
  | read {code : String} (hcode : q.deviceCode = some code) :
      DeviceCall .start (.getDeviceAuthorizationGrant (st.sha256Base64url code))
  | poll {g : DeviceAuthorizationGrant} (hash : String) (polledAt interval : Nat) :
      DeviceCall (.read g) (.recordDeviceAuthorizationPoll hash polledAt interval)
  | user {g : DeviceAuthorizationGrant} {id : String} (hid : g.userId = some id) :
      DeviceCall (.read g) (.getUserById id)
  | consume {g : DeviceAuthorizationGrant} {u : Models.User} {code : String}
      (hcode : q.deviceCode = some code) :
      DeviceCall (.user g u) (.consumeDeviceAuthorizationGrant (st.sha256Base64url code))
  | family {g : DeviceAuthorizationGrant} {u : Models.User} {f : TokenFamily}
      (hf : f.userId = u.id) : DeviceCall (.consumed g u) (.createTokenFamily f)
  | token {g : DeviceAuthorizationGrant} {u : Models.User} {t : AccessToken}
      (ht : t.userId = u.id) : DeviceCall (.consumed g u) (.createAccessToken t)

def deviceNext : DevicePhase → (c : Call) → c.Answer → DevicePhase
  | .start, .getDeviceAuthorizationGrant _, .ok found => pollAfterRead q found
  | .read g, .getUserById _, .ok (some u) => .user g u
  | .user g u, .consumeDeviceAuthorizationGrant _, .ok () | .consumed g u, _, _ => .consumed g u
  | _, _, _ => .refused

/-- Tokens are returned only after the grant was consumed, for the user that was found. -/
def deviceReturns : DevicePhase → QidResult TokenResponse → Prop
  | .consumed _ u, .ok r => ∃ issuer clientId realmId scopes claims,
      formatAccessToken st q.run.accessSignedAt issuer q.run.accessJti u clientId realmId scopes
        claims = .ok r.accessToken
  | _, .ok _ => False
  | _, .error _ => True

def devicePoll : Protocol DevicePhase Call Call.Answer :=
  { calls := DeviceCall st q, next := deviceNext q }

variable {st q}

theorem leads_approvedUser {Q : DevicePhase → QidResult String → Prop}
    (hok : ∀ id, g.userId = some id → Q (.read g) (.ok id)) (herror : ∀ e, Q .refused (.error e)) :
    (devicePoll st q).Leads Q (.read g) (approvedUser q hash g) := by
  rw [approvedUser]
  cases hid : g.userId with
  | some id => exact hok id hid
  | none =>
    rw [Protocol.leads_bind]
    refine ⟨.poll hash _ _, fun r => ?_⟩
    cases r with
    | error => exact herror _
    | ok _ =>
      by_cases hearly : polledEarly g q.run.now = false
      · rw [ensure, if_pos hearly]
        exact herror _
      · rw [ensure, if_neg hearly]
        exact herror _

theorem leads_issueForDevice {u : Models.User} {code : String} (hcode : q.deviceCode = some code) :
    (devicePoll st q).Leads (deviceReturns st q) (.user g u)
      (issueForDevice st q (st.sha256Base64url code) g u) := by
  refine Protocol.leads_check_bind (fun e _ => trivial) fun target _ => ?_
  refine ⟨.consume hcode, fun r => ?_⟩
  cases r with
  | error => exact trivial
  | ok _ =>
    refine Protocol.leads_bind.mpr (leads_issueTokenPair (.family rfl) (.token rfl)
      (fun _ _ => rfl) (fun e => trivial) fun pair hpair => ?_)
    exact ⟨_, _, _, _, _, hpair⟩

theorem leads_deviceCodeGrant :
    (devicePoll st q).Leads (deviceReturns st q) .start (deviceCodeGrant st q) := by
  refine Protocol.leads_check_bind (fun e _ => trivial) fun code hcode => ?_
  have hcode : q.deviceCode = some code := okOr_eq_ok.mp hcode
  refine ⟨.read hcode, fun r => ?_⟩
  cases r with
  | error => exact trivial
  | ok found =>
    show (devicePoll st q).Leads _ (pollAfterRead q found) _
    rw [pollAfterRead]
    refine Protocol.leads_check_bind (fun e he => ?_) fun g hg => ?_
    · rw [he]
      exact trivial
    · rw [hg, Protocol.leads_bind]
      refine leads_approvedUser (fun id hid => ?_) fun e => trivial
      show (devicePoll st q).Leads _ (.read g) _
      refine ⟨.user hid, fun r => ?_⟩
      cases r with
      | error => exact trivial
      | ok found =>
        cases found with
        | none => exact trivial
        | some => exact leads_issueForDevice hcode

variable (st)

def pollProtocol : Request → Protocol DevicePhase Call Call.Answer
  | .deviceCode q => devicePoll st q
  | _ => { calls := fun _ c => c.consumesGrant = false, next := fun s _ _ => s }

def pollStart : Request → DevicePhase
  | .deviceCode _ => .start
  | _ => .other

def pollReturns : Request → DevicePhase → QidResult Response → Prop
  | .deviceCode q, ph, .ok (.tokens r) => deviceReturns st q ph (.ok r)
  | _, _, _ => True

theorem poll_serve (q : Request) :
    (pollProtocol st q).Leads (pollReturns st q) (pollStart q) (serve st q) := by
  cases q with
  | deviceCode =>
    rw [serve, answerTokens, Protocol.leads_bind]
    refine leads_deviceCodeGrant.mono fun ph r hr => ?_
    cases r with
    | ok => exact hr
    | error => exact trivial
  | _ =>
    refine leads_serve_of_mayCall st fun c hc => ?_
    cases c with
    | consumeDeviceAuthorizationGrant => cases hc
    | _ => rfl

end

/-- The user for whom a call approves the grant. -/
def approvalOf (hash : String) (s : Store) : Call → Option String
  | .approveDeviceAuthorizationGrant userCode userId _ =>
    match s.getDeviceAuthorizationGrantByUserCode userCode with
    | .ok (some g) => if g.deviceCodeHash = hash then some userId else none
    | _ => none
  | _ => none

def acceptedConsume (hash : String) : Option ((c : Call) × c.Answer) → Bool
  | some ⟨.consumeDeviceAuthorizationGrant h, .ok ()⟩ => h = hash
  | _ => false

inductive GrantStep (s : Store) (hash : String) :
    (c : Call) → c.Answer → Option DeviceAuthorizationGrant → Prop
  | kept {c : Call} {a : c.Answer} (hconsume : acceptedConsume hash (some ⟨c, a⟩) = false)
      (happroval : approvalOf hash s c = none) :
      GrantStep s hash c a (s.deviceAuthorizationGrants.find hash)
  | approved {g : DeviceAuthorizationGrant} {userCode userId : String} {approvedAt : Nat}
      {a : QidResult Unit} (hg : s.deviceAuthorizationGrants.find hash = some g)
      (happroval : approvalOf hash s
        (.approveDeviceAuthorizationGrant userCode userId approvedAt) = some userId) :
      GrantStep s hash (.approveDeviceAuthorizationGrant userCode userId approvedAt) a
        (some { g with userId := some userId, approvedAt := some approvedAt })
  | polled {g : DeviceAuthorizationGrant} {polledAt interval : Nat} {a : QidResult Unit}
      (hg : s.deviceAuthorizationGrants.find hash = some g) :
      GrantStep s hash (.recordDeviceAuthorizationPoll hash polledAt interval) a
        (some { g with lastPollAt := some polledAt, pollIntervalSeconds := interval })
  | consumed {g : DeviceAuthorizationGrant} {a : QidResult Unit}
      (hg : s.deviceAuthorizationGrants.find hash = some g) (hfree : g.consumed = false) :
      GrantStep s hash (.consumeDeviceAuthorizationGrant hash) a (some { g with consumed := true })

section

variable (persist : Persist) (s : Store)
include persist s

theorem grantStep_approve (hash userCode userId : String) (approvedAt : Nat) :
    GrantStep s hash (.approveDeviceAuthorizationGrant userCode userId approvedAt)
      (s.approveDeviceAuthorizationGrant persist userCode userId approvedAt).1
      ((s.approveDeviceAuthorizationGrant persist userCode userId
        approvedAt).2.deviceAuthorizationGrants.find hash) := by
  rw [Store.approveDeviceAuthorizationGrant]
  cases hfound : s.getDeviceAuthorizationGrantByUserCode userCode with
  | error =>
    refine .kept rfl ?_
    rw [approvalOf, hfound]
  | ok found =>
    cases found with
    | none =>
      refine .kept rfl ?_
      rw [approvalOf, hfound]
    | some g =>
      have hg := (Store.of_uniqueMatch hfound).1
      rw [Table.find_put]
      by_cases hhash : g.deviceCodeHash = hash
      · rw [if_pos hhash.symm]
        refine .approved (hhash ▸ hg) ?_
        rw [approvalOf, hfound]
        exact if_pos hhash
      · rw [if_neg (Ne.symm hhash)]
        refine .kept rfl ?_
        rw [approvalOf, hfound]
        exact if_neg hhash

theorem grantStep_poll (hash h : String) (polledAt interval : Nat) :
    GrantStep s hash (.recordDeviceAuthorizationPoll h polledAt interval)
      (s.recordDeviceAuthorizationPoll persist h polledAt interval).1
      ((s.recordDeviceAuthorizationPoll persist h polledAt
        interval).2.deviceAuthorizationGrants.find hash) := by
  rw [Store.recordDeviceAuthorizationPoll]
  cases hfound : s.deviceAuthorizationGrants.find h with
  | none => exact .kept rfl rfl
  | some g =>
    have hkey : g.deviceCodeHash = h := s.deviceAuthorizationGrants.keyed h g hfound
    rw [Table.find_put]
    split_ifs with hhash
    · rw [hkey] at hhash
      subst hhash
      exact .polled hfound
    · exact .kept rfl rfl

theorem grantStep_consume (hash h : String) :
    GrantStep s hash (.consumeDeviceAuthorizationGrant h)
      (s.consumeDeviceAuthorizationGrant persist h).1
      ((s.consumeDeviceAuthorizationGrant persist h).2.deviceAuthorizationGrants.find hash) := by
  rw [Store.consumeDeviceAuthorizationGrant]
  cases hfound : s.deviceAuthorizationGrants.find h with
  | none => exact .kept rfl rfl
  | some g =>
    have hkey : g.deviceCodeHash = h := s.deviceAuthorizationGrants.keyed h g hfound
    dsimp only
    split_ifs with hconsumed
    · exact .kept rfl rfl
    · rw [Table.find_put]
      split_ifs with hhash
      · rw [hkey] at hhash
        subst hhash
        exact .consumed hfound (Bool.not_eq_true _ ▸ hconsumed)
      · refine .kept ?_ rfl
        cases persist.result with
        | error => rfl
        | ok => exact decide_eq_false fun heq => hhash (heq.symm.trans hkey.symm)

theorem grantStep (hash : String) (c : Call) :
    GrantStep s hash c (answer persist s c).1
      ((answer persist s c).2.deviceAuthorizationGrants.find hash) := by
  by_cases hc : c.writesDeviceGrants = false
  · rw [deviceAuthorizationGrants_answer persist s hc]
    cases c with
    | approveDeviceAuthorizationGrant | consumeDeviceAuthorizationGrant h => cases hc
    | _ => exact .kept rfl rfl
  · cases c with
    | approveDeviceAuthorizationGrant => exact grantStep_approve ..
    | recordDeviceAuthorizationPoll => exact grantStep_poll ..
    | consumeDeviceAuthorizationGrant => exact grantStep_consume ..
    | _ => exact absurd rfl hc

end

def GrantConsumed (hash : String) (s : Store) : Prop :=
  ∃ g, s.deviceAuthorizationGrants.find hash = some g ∧ g.consumed = true

/-- What the device asked for and when it ends are the same. -/
def DeviceAuthorizationGrant.SameTerms (g g₀ : DeviceAuthorizationGrant) : Prop :=
  g = { g₀ with
    userId := g.userId
    approvedAt := g.approvedAt
    consumed := g.consumed
    lastPollAt := g.lastPollAt
    pollIntervalSeconds := g.pollIntervalSeconds }

/-- What becomes of a stored grant, and whose approval it holds. -/
theorem GrantStep.of_found {s : Store} {c : Call} {a : c.Answer}
    {found : Option DeviceAuthorizationGrant} (h : GrantStep s hash c a found)
    (hfind : s.deviceAuthorizationGrants.find hash = some g) :
    ∃ g', found = some g' ∧ (g.consumed = true → g'.consumed = true) ∧
      g'.userId = (approvalOf hash s c).or g.userId ∧ g'.SameTerms g := by
  cases h with
  | kept _ happroval =>
    rw [happroval]
    exact ⟨g, hfind, id, rfl, rfl⟩
  | approved hg happroval =>
    rw [happroval]
    cases hfind.symm.trans hg
    exact ⟨_, rfl, id, rfl, rfl⟩
  | polled hg =>
    cases hfind.symm.trans hg
    exact ⟨_, rfl, id, rfl, rfl⟩
  | consumed hg =>
    cases hfind.symm.trans hg
    exact ⟨_, rfl, fun _ => rfl, rfl, rfl⟩

theorem GrantConsumed.answer {s : Store} (h : GrantConsumed hash s) (persist : Persist) (c : Call) :
    GrantConsumed hash (answer persist s c).2 := by
  obtain ⟨g, hfind, hconsumed⟩ := h
  obtain ⟨g', hfound, hkept, -⟩ := (grantStep persist s hash c).of_found hfind
  exact ⟨g', hfound, hkept hconsumed⟩

variable {st : SharedState}

def DeviceRun.Presents (st : SharedState) (q : DeviceRun) (hash : String) : Prop :=
  ∃ code, q.deviceCode = some code ∧ st.sha256Base64url code = hash

def ConsumesGrant (st : SharedState) (hash : String) : Request → DevicePhase → Prop
  | .deviceCode q, .consumed _ _ => q.Presents st hash
  | _, _ => False

theorem claims_grant (persist : Persist) (s : Store) (q : Request) (ph : DevicePhase) (c : Call)
    (hcall : (pollProtocol st q).calls ph c) (hph : ¬ ConsumesGrant st hash q ph)
    (hnext : ConsumesGrant st hash q ((pollProtocol st q).next ph c (answer persist s c).1)) :
    ¬ GrantConsumed hash s ∧ GrantConsumed hash (answer persist s c).2 := by
  cases q with
  | deviceCode q =>
    cases hcall with
    | read =>
      have hnext : ConsumesGrant st hash (.deviceCode q) (pollAfterRead q _) := hnext
      rw [pollAfterRead] at hnext
      cases hc : checkDeviceGrant q (s.deviceAuthorizationGrants.find _) with
      | _ =>
        rw [hc] at hnext
        exact hnext.elim
    | poll => exact hnext.elim
    | @user g id hid =>
      have hnext : ConsumesGrant st hash (.deviceCode q)
        (deviceNext q (.read g) (.getUserById id) (.ok (s.directory.users.find id))) := hnext
      generalize s.directory.users.find id = found at hnext
      cases found with
      | _ => exact hnext.elim
    | family hf | token ht => exact absurd hnext hph
    | @consume g u code hcode =>
      have hstep := grantStep persist s hash
        (.consumeDeviceAuthorizationGrant (st.sha256Base64url code))
      generalize (answer persist s
        (.consumeDeviceAuthorizationGrant (st.sha256Base64url code))).1 = a at hstep hnext
      cases a with
      | error => exact hnext.elim
      | ok =>
        obtain ⟨code', hcode', hhash⟩ := hnext
        rw [hcode] at hcode'
        cases hcode'
        show _ ∧ ∃ g, (answer persist s (.consumeDeviceAuthorizationGrant
          (st.sha256Base64url code))).2.deviceAuthorizationGrants.find hash = some g ∧
            g.consumed = true
        generalize (answer persist s (.consumeDeviceAuthorizationGrant
          (st.sha256Base64url code))).2.deviceAuthorizationGrants.find hash = found
          at hstep ⊢
        cases hstep with
        | kept h => exact absurd hhash (of_decide_eq_false h)
        | consumed hg hfree =>
          refine ⟨fun ⟨g, hfind, hconsumed⟩ => ?_, _, rfl, rfl⟩
          rw [hg] at hfind
          cases hfind
          rw [hfree] at hconsumed
          cases hconsumed
  | _ => exact absurd hnext hph

end Qid.OAuth
