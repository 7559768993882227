/-
Logins of returning users.

The first login of an external identity leaves a verified link behind, and every later one finds it
(`SoleLink.planned`). But a login always stores a link under an identifier it has just drawn, and
the store refuses a second verified link of an identity.
-/
import Qid.Federation.Login

namespace Qid.Federation

open Lib Json Storage

variable {providers : List InboundIdentityProvider} {provider : InboundIdentityProvider}

theorem nodup_of_validateProvider {seen seen' : List String × HashMap String}
    (h : providers.foldlM validateProvider seen = .ok seen') :
    (providers.map (·.id)).Nodup ∧ ∀ p ∈ providers, p.id ∉ seen.1 := by
  induction providers generalizing seen with
  | nil => exact ⟨List.nodup_nil, fun p hp => by cases hp⟩
  | cons provider providers ih =>
    rw [List.foldlM_cons, bind_eq_ok] at h
    obtain ⟨next, hnext, hrest⟩ := h
    obtain ⟨hnodup, hnew⟩ := ih hrest
    simp only [validateProvider, bind_eq_ok, ensure_eq_ok, pure_eq_ok] at hnext
    obtain ⟨-, -, -, hfresh, -, -, -, -, -, -, _, -, owners, -, rfl⟩ := hnext
    exact nodup_cons_new.mpr ⟨hfresh, hnodup, hnew⟩

theorem find?_of_nodup (hnodup : (providers.map (·.id)).Nodup) (hmem : provider ∈ providers) :
    providers.find? (fun p => p.id == provider.id) = some provider := by
  induction providers with
  | nil => cases hmem
  | cons p providers ih =>
    rw [List.map_cons, List.nodup_cons] at hnodup
    rcases List.mem_cons.mp hmem with rfl | hmem
    · rw [List.find?_cons_of_pos]
      exact beq_self_eq_true provider.id
    · have hne : p.id ≠ provider.id := fun heq => hnodup.1 (heq ▸ List.mem_map_of_mem hmem)
      rw [List.find?_cons_of_neg (by rwa [beq_iff_eq]), ih hnodup.2 hmem]

def BrokerLogin.RoutesToProvider (login : BrokerLogin) : Prop :=
  ∀ route, routeInboundProvider login.providers login.request = .ok route →
    route.providerId = login.provider.id

section

variable {login : BrokerLogin} {env : Env} {s : Store} {plan : BrokerLoginPlan}
  {link : CiamIdentityLink} {u : String} {links : List BrokerAccountLink} {now n : Nat}
  {ulid : String}

theorem SoleLink.planned (h : SoleLink s login.key link) (hlookup : env.lookupError = none)
    (hplanned : Planned login.providers login.request login.claims links provider plan)
    (hroute : login.RoutesToProvider) (haccount : login.provider.accountLinking = true) :
    ∃ plan', login.plan env s = .ok plan' ∧ plan'.linkedSubject = some link.userId ∧
      plan'.createSubject = false := by
  have hprovider := hplanned.found
  have hrouted := hplanned.routed
  rw [routeInboundProvider, bind_eq_ok] at hrouted
  obtain ⟨_, hvalid, -⟩ := hrouted
  rw [validateInboundProviders, bind_eq_ok] at hvalid
  obtain ⟨seen, hseen, -⟩ := hvalid
  rw [hroute _ hplanned.routed, find?_of_nodup (nodup_of_validateProvider hseen).1
    login.configured, Option.some.injEq] at hprovider
  subst hprovider
  have hkey : link.provider = login.provider.id :=
    congrArg ExternalKey.provider (CiamIdentityLink.verifies_iff.mp h.verifies).2
  have hlinks : linkedSubject login.provider login.claims (login.loadBrokerLinks env s) =
      some link.userId := by
    rw [BrokerLogin.loadBrokerLinks, hlookup, Store.getCiamIdentityLinkByExternalSubject, h.filter]
    simp only [OAuth.Store.uniqueMatch, List.head?_cons, linkedSubject, hkey,
      List.find?_cons_of_pos,
      beq_self_eq_true, Bool.and_self, Option.map_some]
  refine ⟨{ plan with linkedSubject := some link.userId, createSubject := false }, ?_, rfl, rfl⟩
  rw [BrokerLogin.plan, planInboundLogin_eq_ok]
  exact ⟨login.provider, hplanned.routed, hplanned.found, hplanned.issuer, hplanned.normalized,
    hlinks.symm, rfl, Or.inl rfl, Or.inr haccount⟩

@[simp] theorem andThen_ok (next : LoginPhase) : LoginPhase.andThen (.ok ()) next = next := rfl

theorem of_andThen_done {result : QidResult Unit} {next : LoginPhase}
    (h : (Jobs.complete (LoginPhase.advance login) env n s (.andThen result next)).1 = .done u) :
    result = .ok () := by
  cases result with
  | ok => rfl
  | error =>
    rw [Jobs.complete_of_none rfl] at h
    cases h

structure Env.Healthy (env : Env) : Prop where
  lookup : env.lookupError = none
  audit : env.audit = .ok ()
  persist : env.persist = .done
  now : env.now ≠ 0

theorem storeLink_done (h : Linkable s link) (henv : env.Healthy) (now n : Nat) :
    Jobs.complete (LoginPhase.advance login) env (n + 2) s (.storeLink plan now link) =
      (.done link.userId, { s with ciamIdentityLinks := s.ciamIdentityLinks.put link }) := by
  rcases storeCiamIdentityLink_cases env.persist s link with ⟨e, herror, -⟩ | ⟨-, hstore⟩
  · rw [checkLink_eq_ok.mpr h] at herror
    cases herror
  · rw [Jobs.complete_succ rfl, hstore, henv.persist, Persist.result,
      Jobs.complete_succ rfl, henv.audit, LoginPhase.andThen, Jobs.complete_of_none rfl]

/-- One link of the identity, which the login of the user would store again. -/
structure Settled (login : BrokerLogin) (u : String) (s : Store) (link : CiamIdentityLink) :
    Prop where
  sole : SoleLink s login.key link
  shape : ∃ now ulid, link = login.newLink u now ulid
  valid : link.validate = .ok ()
  user : ∃ user, s.users.find u = some user ∧ user.realmId = login.realm

theorem newLink_verifies (login : BrokerLogin) (u : String) (now : Nat) (ulid : String) :
    (login.newLink u now ulid).verifies login.key = true :=
  CiamIdentityLink.verifies_iff.mpr ⟨rfl, rfl⟩

theorem settled_put (h : Linkable s (login.newLink u now ulid)) :
    Settled login u
      { s with ciamIdentityLinks := s.ciamIdentityLinks.put (login.newLink u now ulid) }
      (login.newLink u now ulid) where
  sole := soleLink_put h (newLink_verifies login u now ulid)
  shape := ⟨now, ulid, rfl⟩
  valid := h.valid
  user := h.user

variable {linked : String}

theorem settled_of_storeLink (h : (Jobs.complete (LoginPhase.advance login) env (n + 2) s
      (.storeLink plan now (login.newLink linked now ulid))).1 = .done u) :
    ∃ link, Settled login u (Jobs.complete (LoginPhase.advance login) env (n + 2) s
      (.storeLink plan now (login.newLink linked now ulid))).2 link := by
  rw [Jobs.complete_succ rfl] at h ⊢
  have hstored := of_andThen_done h
  rcases storeCiamIdentityLink_cases env.persist s (login.newLink linked now ulid) with
    ⟨e, -, hstore⟩ | ⟨hlinkable, hstore⟩
  · rw [hstore] at hstored
    cases hstored
  · rw [hstored, hstore, Jobs.complete_succ rfl] at h ⊢
    have haudit := of_andThen_done h
    rw [haudit, Jobs.complete_of_none rfl] at h ⊢
    cases h
    exact ⟨_, settled_put hlinkable⟩

/-- What a successful login needs of its plan, and what it leaves behind. -/
theorem settled_of_run (h : (login.run env s).1 = .done u) :
    (∃ plan, login.plan env s = .ok plan) ∧ ∃ link, Settled login u (login.run env s).2 link := by
  cases hplan : login.plan env s with
  | error e =>
    have hadvance : LoginPhase.advance login env s .lookup = some (.refused e, s) := by
      rw [LoginPhase.advance, hplan]
    rw [BrokerLogin.run, loginSteps, Jobs.complete_succ hadvance] at h
    cases h
  | ok plan =>
    have hadvance : LoginPhase.advance login env s .lookup =
        some (.ofPlan login plan env.now env.userUlid, s) := by
      rw [LoginPhase.advance, hplan]
    refine ⟨⟨plan, rfl⟩, ?_⟩
    rw [BrokerLogin.run, loginSteps, Jobs.complete_succ hadvance] at h ⊢
    generalize hphase : LoginPhase.ofPlan login plan env.now env.userUlid = phase at h ⊢
    have hcases : (∃ e, phase = .refused e) ∨ (∃ linked, phase = .auditLinked plan env.now linked) ∨
        ∃ user, phase = .createUser plan env.now user := by
      rw [← hphase, LoginPhase.ofPlan]
      split
      · exact Or.inl ⟨_, rfl⟩
      · split
        · exact Or.inr (Or.inl ⟨_, rfl⟩)
        · split
          · split
            · exact Or.inr (Or.inr ⟨_, rfl⟩)
            · exact Or.inl ⟨_, rfl⟩
          · exact Or.inl ⟨_, rfl⟩
    rcases hcases with ⟨e, rfl⟩ | ⟨linked, rfl⟩ | ⟨user, rfl⟩
    · cases h
    · rw [Jobs.complete_succ rfl] at h ⊢
      have haudit := of_andThen_done h
      rw [haudit] at h ⊢
      exact settled_of_storeLink h
    · rw [Jobs.complete_succ rfl] at h ⊢
      have hcreated := of_andThen_done h
      rw [hcreated, Jobs.complete_succ rfl] at h ⊢
      have haudit := of_andThen_done h
      rw [haudit] at h ⊢
      exact settled_of_storeLink h

theorem run_of_linked (hplan : login.plan env s = .ok plan)
    (hlinked : plan.linkedSubject = some linked) (hcreates : plan.createSubject = false)
    (haudit : env.audit = .ok ()) :
    login.run env s = Jobs.complete (LoginPhase.advance login) env 3 s
      (.storeLink plan env.now (login.newLink linked env.now env.linkUlid)) := by
  have hphase : LoginPhase.ofPlan login plan env.now env.userUlid =
      .auditLinked plan env.now linked := by
    simp only [LoginPhase.ofPlan, hcreates, hlinked, Bool.false_and, Bool.false_eq_true, if_false]
  have hadvance : LoginPhase.advance login env s .lookup =
      some (.auditLinked plan env.now linked, s) := by
    rw [LoginPhase.advance, hplan, ← hphase]
  rw [BrokerLogin.run, loginSteps, Jobs.complete_succ hadvance, Jobs.complete_succ rfl, haudit,
    LoginPhase.andThen]

theorem Settled.linkable (h : Settled login u s link) (hid : "cil_" ++ ulid = link.id)
    (hnow : now ≠ 0) : Linkable s (login.newLink u now ulid) := by
  obtain ⟨now', ulid', rfl⟩ := h.shape
  refine ⟨?_, fun stored hstored => ?_, h.user, fun _ stored hstored hverifies => ?_⟩
  · have hvalid := h.valid
    simp only [CiamIdentityLink.validate, bind_eq_ok, ensure_eq_ok] at hvalid ⊢
    obtain ⟨a, hlinkId, b, hrealm, c, huser, d, hprovider, e, hsubject, f, hemail, g, hjson, -⟩ :=
      hvalid
    refine ⟨a, ?_, b, hrealm, c, huser, d, hprovider, e, hsubject, f, hemail, g, hjson, hnow⟩
    show requireNonEmpty _ ("cil_" ++ ulid) = _
    rw [hid]
    exact hlinkId
  · change s.ciamIdentityLinks.find ("cil_" ++ ulid) = _ at hstored
    rw [hid, h.sole.stored, Option.some.injEq] at hstored
    subst hstored
    exact ⟨⟨rfl, rfl, rfl, rfl⟩, fun _ => rfl⟩
  · rw [h.sole.sole stored hstored hverifies]
    exact hid.symm

/-- A later login that draws the identifier of the link succeeds. -/
theorem Settled.run (h : Settled login u s link) (henv : env.Healthy)
    (hid : "cil_" ++ env.linkUlid = link.id) (hroute : login.RoutesToProvider)
    (haccount : login.provider.accountLinking = true)
    (hplanned : Planned login.providers login.request login.claims links provider plan) :
    (login.run env s).1 = .done u ∧ ∃ link', link'.id = link.id ∧
      Settled login u (login.run env s).2 link' := by
  obtain ⟨plan', hplan, hlinked, hcreates⟩ := h.sole.planned henv.lookup hplanned hroute haccount
  have hlinkable := h.linkable hid henv.now
  have huser : link.userId = u := by
    obtain ⟨now, ulid, rfl⟩ := h.shape
    rfl
  rw [run_of_linked hplan hlinked hcreates henv.audit, huser, storeLink_done hlinkable henv]
  exact ⟨rfl, _, hid, settled_put hlinkable⟩

/-- A later login that draws any other identifier is refused, and nothing changes. -/
theorem returning_login_refused (h : SoleLink s login.key link) (hlookup : env.lookupError = none)
    (haudit : env.audit = .ok ()) (hid : "cil_" ++ env.linkUlid ≠ link.id)
    (hroute : login.RoutesToProvider) (haccount : login.provider.accountLinking = true)
    (hplanned : Planned login.providers login.request login.claims links provider plan) :
    ∃ e, login.run env s = (.refused e, s) := by
  obtain ⟨plan', hplan, hlinked, hcreates⟩ := h.planned hlookup hplanned hroute haccount
  rw [run_of_linked hplan hlinked hcreates haudit]
  rcases storeCiamIdentityLink_cases env.persist s
      (login.newLink link.userId env.now env.linkUlid) with ⟨e, -, hstore⟩ | ⟨hlinkable, -⟩
  · refine ⟨e, ?_⟩
    rw [Jobs.complete_succ rfl, hstore, LoginPhase.andThen, Jobs.complete_of_none rfl]
  · exact absurd (h.of_linkable hlinkable (newLink_verifies _ _ _ _)).1 hid

def verifiedLinks (s : Store) (key : ExternalKey) : Nat :=
  (s.ciamIdentityLinks.values.filter fun link => link.verifies key).length

theorem Settled.verifiedLinks (h : Settled login u s link) : verifiedLinks s login.key = 1 := by
  rw [Federation.verifiedLinks, h.sole.filter]
  rfl

end

/-- Once a login has succeeded, every later one of the same identity that draws the identifier
of the stored link succeeds with the same user, and one verified link is stored all along. -/
theorem returning_users_reach_account (login : BrokerLogin) (hroute : login.RoutesToProvider)
    (haccount : login.provider.accountLinking = true) (s : Store) (first : Env) (u : String)
    (hfirst : (login.run first s).1 = .done u) (later : List Env)
    (hhealthy : ∀ env ∈ later, env.Healthy)
    (hids : ∀ env ∈ later, ∀ link, SoleLink (login.run first s).2 login.key link →
      "cil_" ++ env.linkUlid = link.id) :
    verifiedLinks (login.run first s).2 login.key = 1 ∧
    ∀ e ∈ run (fun s env => login.run env s) (login.run first s).2 later,
      e.reply = .done u ∧ verifiedLinks e.after login.key = 1 := by
  obtain ⟨⟨plan, hplan⟩, link, hsettled⟩ := settled_of_run hfirst
  obtain ⟨provider, hplanned⟩ := planInboundLogin_eq_ok.mp hplan
  refine ⟨hsettled.verifiedLinks, ?_⟩
  have hdraws : ∀ env ∈ later, env.Healthy ∧ "cil_" ++ env.linkUlid = link.id :=
    fun env henv => ⟨hhealthy env henv, hids env henv link hsettled.sole⟩
  clear hids hhealthy hfirst hplan
  generalize (login.run first s).2 = t at hsettled
  -- the link keeps its identifier from login to login
  induction later generalizing t link with
  | nil => exact fun e he => by cases he
  | cons env later ih =>
    obtain ⟨henv, hid⟩ := hdraws env List.mem_cons_self
    obtain ⟨hdone, link', hid', hsettled'⟩ := hsettled.run henv hid hroute haccount hplanned
    intro e he
    rcases List.mem_cons.mp he with rfl | he
    · exact ⟨hdone, hsettled'.verifiedLinks⟩
    · refine ih link' (fun env' henv' => ?_) _ hsettled' e he
      obtain ⟨hhealthy, hdraw⟩ := hdraws env' (List.mem_cons_of_mem _ henv')
      exact ⟨hhealthy, hdraw.trans hid'.symm⟩

def LoginPhase.userId : LoginPhase → Option String
  | .done userId => some userId
  | _ => none

def LoginPhase.error : LoginPhase → Option QidError
  | .refused e => some e
  | _ => none

theorem eq_done_of_userId {phase : LoginPhase} {u : String} (h : phase.userId = some u) :
    phase = .done u := by
  cases phase with
  | done => rw [Option.some.inj h]
  | _ => cases h

def sampleProvider : InboundIdentityProvider where
  id := "okta"
  kind := .okta
  issuer := "https://idp.example"
  enabled := true
  jitProvisioning := true
  accountLinking := true

def sampleLogin : BrokerLogin where
  realm := "corp"
  providers := [sampleProvider]
  provider := sampleProvider
  configured := List.mem_singleton.mpr rfl
  request := { idpHint := some "okta" }
  claims := { issuer := "https://idp.example", subject := "ext-1", claims := [] }

def sampleEnv (userUlid linkUlid : String) : Env where
  now := 1
  lookupError := none
  audit := .ok ()
  persist := .done
  userUlid := userUlid
  linkUlid := linkUlid

def emptyStore : Store where
  users := .empty
  ciamIdentityLinks := .empty

theorem sampleLogin_routes : sampleLogin.RoutesToProvider := by
  have hroute : routeInboundProvider sampleLogin.providers sampleLogin.request =
      .ok (routeDecision sampleProvider "idp_hint") := by decide +kernel
  intro route h
  rw [hroute, Except.ok.injEq] at h
  rw [← h]
  rfl

theorem returning_users_reach_account_redrawn :
    verifiedLinks (sampleLogin.run (sampleEnv "A" "L") emptyStore).2 sampleLogin.key = 1 ∧
    ∀ e ∈ run (fun s env => sampleLogin.run env s)
        (sampleLogin.run (sampleEnv "A" "L") emptyStore).2 [sampleEnv "B" "L"],
      e.reply = .done "usr_A" ∧ verifiedLinks e.after sampleLogin.key = 1 := by
  have hlinks : ((sampleLogin.run (sampleEnv "A" "L") emptyStore).2.ciamIdentityLinks.values.map
      CiamIdentityLink.id) = ["cil_L"] := by decide +kernel
  refine returning_users_reach_account sampleLogin sampleLogin_routes rfl emptyStore
    (sampleEnv "A" "L") "usr_A" (eq_done_of_userId (by decide +kernel)) _ ?_ ?_
  · intro env henv
    rw [List.mem_singleton.mp henv]
    exact ⟨rfl, rfl, rfl, Nat.one_ne_zero⟩
  · intro env henv link hlink
    have hid := List.mem_map_of_mem (f := CiamIdentityLink.id) (Table.mem_values.mpr hlink.stored)
    rw [List.mem_singleton.mp henv, List.mem_singleton.mp hid]
    rfl

/-- A user logs in, and is refused the second time, as they would be every time after. -/
theorem second_login_is_refused :
    (sampleLogin.run (sampleEnv "A" "L") emptyStore).1.userId = some "usr_A" ∧
    (sampleLogin.run (sampleEnv "B" "M")
      (sampleLogin.run (sampleEnv "A" "L") emptyStore).2).1.error = some alreadyLinked := by
  constructor <;> decide +kernel

end Qid.Federation
