/-
The audience of a token.

A translation of `resolve_token_audience` of `qid-core/src/oauth.rs` and of `validate_grant_target`
of `qid-oauth/src/endpoints/mod.rs`.
-/
import Qid.OAuth.Issue
import Mathlib.Data.List.Dedup
import Mathlib.Data.List.Sort

namespace Qid.OAuth

open Lib

def sortedSet (values : List String) : List String := (values.insertionSort fun a b => a ≤ b).dedup

variable (servers : List OAuthResourceServerConfig)

def resourceServerByAudience (audience : String) : Option OAuthResourceServerConfig :=
  servers.find? fun server => server.audience = audience

def resourceServerByResource (resource : String) : Option OAuthResourceServerConfig :=
  servers.find? fun server => resource ∈ server.resources

def requireSenderConstraint (server : OAuthResourceServerConfig) (cnf : Option Json.Value) :
    QidResult Unit :=
  ensure ((server.requireSenderConstraint || server.highRisk) = true → cnf.isSome)
    (.unauthorized ("sender-constrained token is required for audience " ++ server.audience))

/-- A server with no scopes restricts none. -/
def validateScopesPerTarget (scopes : List String) (servers : List OAuthResourceServerConfig) :
    QidResult Unit :=
  forM servers fun server =>
    if server.scopes.isEmpty then .ok ()
    else forM scopes fun scope =>
      ensure (scope ∈ server.scopes)
        (.badRequest ("requested scope " ++ scope ++ " is not allowed for resource server " ++
          server.audience))

def selectResource (requestedAudiences : List String) (resource : String) :
    QidResult OAuthResourceServerConfig := do
  let server ← okOr (resourceServerByResource servers resource)
    (.unauthorized ("unknown resource indicator: " ++ resource))
  ensure (requestedAudiences ≠ [] → server.audience ∈ requestedAudiences)
    (.unauthorized ("resource indicator " ++ resource ++
      " is not allowed for requested audience " ++
      " ".intercalate requestedAudiences))
  return server

variable (realm : RealmConfig) (requestedAudiences resources scopes : List String)

def resolveAuthorizationAudience : QidResult (List String) :=
  if realm.resourceServers.isEmpty then
    match resources.head? with
    | some resource => .error (.unauthorized ("unknown resource indicator: " ++ resource))
    | none => .ok requestedAudiences
  else do
    let named ← requestedAudiences.mapM fun audience =>
      okOr (resourceServerByAudience realm.resourceServers audience)
        (.unauthorized ("unknown resource server audience: " ++ audience))
    let indicated ← resources.mapM (selectResource realm.resourceServers requestedAudiences)
    let audiences := sortedSet (requestedAudiences ++ indicated.map fun server => server.audience)
    ensure (audiences ≠ []) (.badRequest
      "audience or resource is required when OAuth resource servers are configured")
    validateScopesPerTarget scopes (named ++ indicated)
    return audiences

def resolveTokenAudience (cnf : Option Json.Value) : QidResult (List String) :=
  if realm.resourceServers.isEmpty then .ok requestedAudiences
  else do
    let audiences ← resolveAuthorizationAudience realm requestedAudiences resources scopes
    forM audiences fun audience =>
      match resourceServerByAudience realm.resourceServers audience with
      | some server => requireSenderConstraint server cnf
      | none => .ok ()
    return audiences

structure TargetRequest where
  scope : Option String
  audience : Option String
  resource : Option String
  deriving DecidableEq

def validateGrantTarget (req : TargetRequest) (clientId : String)
    (resource audience grantedScopes : List String) (cnf : Option Json.Value) :
    QidResult (List String) := do
  let scopes := (req.scope.map splitWhitespace).getD grantedScopes
  let effectiveAudience := if audience.isEmpty then [clientId] else audience
  ensure ((∀ r ∈ req.resource, resource = [r]) ∧
      (∀ a ∈ req.audience, splitWhitespace a = effectiveAudience) ∧
      ∀ scope ∈ scopes, scope ∈ grantedScopes)
    (.badRequest "token request exceeds the approved target or scopes")
  let current ← resolveTokenAudience realm [] resource scopes cnf
  ensure (current = audience) (.unauthorized "approved target audience has changed")
  return scopes

section

variable {realm : RealmConfig} {servers : List OAuthResourceServerConfig}
  {server : OAuthResourceServerConfig} {audiences resources scopes resolved : List String}
  {cnf : Option Json.Value} {a : String}

/-- A server that an audience names or a resource indicates. -/
def Selected (servers : List OAuthResourceServerConfig) (audiences resources : List String)
    (server : OAuthResourceServerConfig) : Prop :=
  (∃ a ∈ audiences, resourceServerByAudience servers a = some server) ∨
    ∃ r ∈ resources, resourceServerByResource servers r = some server

def Admits (server : OAuthResourceServerConfig) (scopes : List String) : Prop :=
  server.scopes ≠ [] → scopes ⊆ server.scopes

def Proven (server : OAuthResourceServerConfig) (cnf : Option Json.Value) : Prop :=
  (server.requireSenderConstraint || server.highRisk) = true → cnf.isSome

theorem Selected.mem (h : Selected servers audiences resources server) : server ∈ servers := by
  rcases h with ⟨a, -, hfound⟩ | ⟨r, -, hfound⟩ <;> exact List.mem_of_find?_eq_some hfound

theorem audience_of_byAudience (h : resourceServerByAudience servers a = some server) :
    server.audience = a := by
  have hfound := List.find?_some h
  exact of_decide_eq_true hfound

theorem byAudience_of_mem (hdistinct : (servers.map (·.audience)).Nodup) (h : server ∈ servers) :
    resourceServerByAudience servers server.audience = some server := by
  cases hfound : resourceServerByAudience servers server.audience with
  | none => exact absurd (decide_eq_true rfl) (List.find?_eq_none.mp hfound server h)
  | some other =>
    rw [List.inj_on_of_nodup_map hdistinct (List.mem_of_find?_eq_some hfound) h
      (audience_of_byAudience hfound)]

theorem mem_sortedSet {values : List String} : a ∈ sortedSet values ↔ a ∈ values := by
  rw [sortedSet, List.mem_dedup, List.mem_insertionSort]

theorem validateScopesPerTarget_eq_ok {a : Unit} :
    validateScopesPerTarget scopes servers = .ok a ↔ ∀ server ∈ servers, Admits server scopes := by
  rw [validateScopesPerTarget, forM_eq_ok]
  refine forall₂_congr fun server _ => ?_
  rw [Admits]
  by_cases hempty : server.scopes = []
  · simp [hempty]
  · simp only [List.isEmpty_iff, hempty, if_false, forM_eq_ok, ensure_eq_ok, ne_eq,
      not_false_eq_true, forall_const]
    rfl

theorem selectResource_eq_ok {resource : String} :
    selectResource servers audiences resource = .ok server ↔
      resourceServerByResource servers resource = some server ∧
        (audiences ≠ [] → server.audience ∈ audiences) := by
  simp only [selectResource, bind_eq_ok, okOr_eq_ok, ensure_eq_ok, pure_eq_ok, exists_const]
  constructor
  · rintro ⟨found, hfound, hnamed, rfl⟩
    exact ⟨hfound, hnamed⟩
  · exact fun h => ⟨server, h.1, h.2, rfl⟩

theorem mem_selected {named indicated : List OAuthResourceServerConfig} {e : String → QidError}
    (hnamed : audiences.mapM (fun a => okOr (resourceServerByAudience servers a) (e a)) = .ok named)
    (hindicated : resources.mapM (selectResource servers audiences) = .ok indicated) :
    server ∈ named ++ indicated ↔ Selected servers audiences resources server := by
  obtain ⟨hto, hof⟩ := mem_of_mapM_eq_ok hnamed
  obtain ⟨hto', hof'⟩ := mem_of_mapM_eq_ok hindicated
  simp only [okOr_eq_ok, selectResource_eq_ok] at hto hof hto' hof'
  rw [List.mem_append]
  refine or_congr ⟨hof server, ?_⟩ ⟨fun h => ?_, ?_⟩
  · rintro ⟨a, ha, hfound⟩
    obtain ⟨other, hother, hfound'⟩ := hto a ha
    rw [hfound, Option.some.injEq] at hfound'
    exact hfound' ▸ hother
  · obtain ⟨r, hr, hfound, -⟩ := hof' server h
    exact ⟨r, hr, hfound⟩
  · rintro ⟨r, hr, hfound⟩
    obtain ⟨other, hother, hfound', -⟩ := hto' r hr
    rw [hfound, Option.some.injEq] at hfound'
    exact hfound' ▸ hother

/-- Scopes have no part in it. -/
def Resolves (servers : List OAuthResourceServerConfig)
    (audiences resources resolved : List String) : Prop :=
  ∃ named indicated,
    (audiences.mapM fun audience => okOr (resourceServerByAudience servers audience)
      (QidError.unauthorized ("unknown resource server audience: " ++ audience))) = .ok named ∧
    resources.mapM (selectResource servers audiences) = .ok indicated ∧
    sortedSet (audiences ++ indicated.map (·.audience)) = resolved ∧ resolved ≠ []

theorem Resolves.mem_iff (h : Resolves servers audiences resources resolved) (a : String) :
    a ∈ resolved ↔ ∃ server, Selected servers audiences resources server ∧ server.audience = a := by
  obtain ⟨named, indicated, hnamed, hindicated, rfl, -⟩ := h
  have hselected : ∀ server, server ∈ named ++ indicated ↔ _ :=
    fun _ => mem_selected hnamed hindicated
  simp only [← hselected, mem_sortedSet, List.mem_append, List.mem_map, or_and_right, exists_or]
  refine or_congr_left ⟨fun ha => ?_, ?_⟩
  · obtain ⟨server, hserver, hfound⟩ := (mem_of_mapM_eq_ok hnamed).1 a ha
    exact ⟨server, hserver, audience_of_byAudience (okOr_eq_ok.mp hfound)⟩
  · rintro ⟨server, hserver, rfl⟩
    obtain ⟨a, ha, hfound⟩ := (mem_of_mapM_eq_ok hnamed).2 server hserver
    exact audience_of_byAudience (okOr_eq_ok.mp hfound) ▸ ha

/-- A request is resolved where every server it selects admits the scopes and has the proof it
asks for. -/
theorem resolveTokenAudience_eq_ok (hdistinct : (realm.resourceServers.map (·.audience)).Nodup)
    (hservers : realm.resourceServers ≠ []) :
    resolveTokenAudience realm audiences resources scopes cnf = .ok resolved ↔
      Resolves realm.resourceServers audiences resources resolved ∧
        ∀ server, Selected realm.resourceServers audiences resources server →
          Admits server scopes ∧ Proven server cnf := by
  simp only [resolveTokenAudience, resolveAuthorizationAudience, List.isEmpty_iff, hservers,
    if_false, bind_eq_ok, ensure_eq_ok, validateScopesPerTarget_eq_ok, pure_eq_ok, forM_eq_ok,
    exists_const]
  constructor
  · rintro ⟨_, ⟨named, hnamed, indicated, hindicated, hne, hadmits, rfl⟩, hproven, rfl⟩
    have hresolves : Resolves realm.resourceServers audiences resources _ :=
      ⟨named, indicated, hnamed, hindicated, rfl, hne⟩
    refine ⟨hresolves, fun server hserver =>
      ⟨hadmits server ((mem_selected hnamed hindicated).mpr hserver), ?_⟩⟩
    -- the server is found again by its audience
    have hproof := hproven _ ((hresolves.mem_iff _).mpr ⟨server, hserver, rfl⟩)
    simp only [byAudience_of_mem hdistinct hserver.mem, requireSenderConstraint, ensure_eq_ok]
      at hproof
    exact hproof
  · rintro ⟨hresolves, hall⟩
    have hmem := hresolves.mem_iff
    obtain ⟨named, indicated, hnamed, hindicated, rfl, hne⟩ := hresolves
    refine ⟨_, ⟨named, hnamed, indicated, hindicated, hne, fun server hserver =>
      (hall server ((mem_selected hnamed hindicated).mp hserver)).1, rfl⟩, fun a ha => ?_, rfl⟩
    obtain ⟨server, hserver, rfl⟩ := (hmem a).mp ha
    simp only [byAudience_of_mem hdistinct hserver.mem, requireSenderConstraint, ensure_eq_ok]
    exact (hall server hserver).2

/-- A token request does not widen what was approved. Its scopes lie within the granted ones, and
within those of every server that the grant's resources select, if it has any; the audience of the
grant is what its resources resolve to in the present configuration; a proof of possession is there
where a selected server asks for one; and a resource or an audience that the request names is that
of the grant, the client where the grant has no audience. A scope that may not be added to a request
that is resolved is not accepted with more audiences or resources either. -/
theorem grant_target_not_widened (realm : RealmConfig)
    (hdistinct : (realm.resourceServers.map (·.audience)).Nodup) :
    (∀ req clientId resource audience grantedScopes cnf S,
      validateGrantTarget realm req clientId resource audience grantedScopes cnf = .ok S →
        S ⊆ grantedScopes ∧ resolveTokenAudience realm [] resource S cnf = .ok audience ∧
        (∀ a, a ∈ audience ↔
          ∃ server, Selected realm.resourceServers [] resource server ∧ server.audience = a) ∧
        (∀ server, Selected realm.resourceServers [] resource server →
          Admits server S ∧ Proven server cnf) ∧
        (∀ r ∈ req.resource, resource = [r]) ∧
        ∀ a ∈ req.audience, splitWhitespace a = if audience = [] then [clientId] else audience) ∧
    ∀ audiences resources scopes scope cnf resolved,
      resolveTokenAudience realm audiences resources scopes cnf = .ok resolved →
      (∀ resolved', resolveTokenAudience realm audiences resources (scopes ++ [scope]) cnf ≠
        .ok resolved') →
      ∀ audiences' resources' scopes' cnf' resolved', audiences ⊆ audiences' →
        resources ⊆ resources' → scope ∈ scopes' →
          resolveTokenAudience realm audiences' resources' scopes' cnf' ≠ .ok resolved' := by
  constructor
  · intro req clientId resource audience grantedScopes cnf S h
    simp only [validateGrantTarget, bind_eq_ok, ensure_eq_ok, pure_eq_ok, exists_const] at h
    obtain ⟨⟨hresource, haudience, hscopes⟩, _, hcurrent, rfl, rfl⟩ := h
    simp only [List.isEmpty_iff] at haudience
    refine ⟨hscopes, hcurrent, ?_⟩
    by_cases hservers : realm.resourceServers = []
    · have hnone : ∀ server, ¬Selected realm.resourceServers [] resource server := by
        intro server hserver
        have hmem := hserver.mem
        rw [hservers] at hmem
        cases hmem
      rw [resolveTokenAudience, hservers] at hcurrent
      cases hcurrent
      refine ⟨fun a => ⟨(absurd · List.not_mem_nil), ?_⟩,
        fun server hserver => absurd hserver (hnone server), hresource, haudience⟩
      rintro ⟨server, hserver, -⟩
      exact absurd hserver (hnone server)
    · obtain ⟨hresolves, hselected⟩ := (resolveTokenAudience_eq_ok hdistinct hservers).mp hcurrent
      exact ⟨hresolves.mem_iff, hselected, hresource, haudience⟩
  · intro audiences resources scopes scope cnf resolved h hrefused
      audiences' resources' scopes' cnf'
      resolved' haudiences hresources hscope h'
    have hservers : realm.resourceServers ≠ [] := by
      intro hnone
      rw [resolveTokenAudience, hnone] at h hrefused
      exact hrefused resolved h
    obtain ⟨hresolves, hadmits⟩ := (resolveTokenAudience_eq_ok hdistinct hservers).mp h
    obtain ⟨-, hadmits'⟩ := (resolveTokenAudience_eq_ok hdistinct hservers).mp h'
    refine hrefused resolved ((resolveTokenAudience_eq_ok hdistinct hservers).mpr
      ⟨hresolves, fun server hserver => ⟨fun hscopes => ?_, (hadmits server hserver).2⟩⟩)
    have hselected : Selected _ _ _ server :=
      hserver.imp (Exists.imp fun _ => And.imp_left (haudiences ·))
        (Exists.imp fun _ => And.imp_left (hresources ·))
    have hadded := (hadmits' server hselected).1 hscopes hscope
    exact List.append_subset.mpr ⟨(hadmits server hserver).1 hscopes, by simpa using hadded⟩

end

def ceilingRealm : RealmConfig :=
  { id := "main", issuer := "", deviceAuthorizationEnabled := true
    resourceServers := [{ audience := "api", resources := ["https://api"], scopes := ["read"]
                          requireSenderConstraint := false, highRisk := true }] }

theorem grant_target_not_widened_ceiling :
    validateGrantTarget ceilingRealm ⟨some "read", none, some "https://api"⟩ "app" ["https://api"]
        ["api"] ["read", "write"] (some .null) = .ok ["read"] ∧
      ∀ server, Selected ceilingRealm.resourceServers [] ["https://api"] server →
        Admits server ["read"] ∧ Proven server (some .null) := by
  have h : validateGrantTarget ceilingRealm ⟨some "read", none, some "https://api"⟩ "app"
      ["https://api"] ["api"] ["read", "write"] (some .null) = .ok ["read"] := by
    decide +kernel
  obtain ⟨-, -, -, hselected, -⟩ :=
    (grant_target_not_widened ceilingRealm (by decide)).1 _ _ _ _ _ _ _ h
  exact ⟨h, hselected⟩

/-- A grant without an audience may be named by its client, which is not the stored audience. -/
theorem client_named_as_audience :
    ∃ realm req clientId resource audience grantedScopes cnf S,
      (realm.resourceServers.map (·.audience)).Nodup ∧
      validateGrantTarget realm req clientId resource audience grantedScopes cnf = .ok S ∧
      ∃ a ∈ req.audience, splitWhitespace a ≠ audience :=
  ⟨{ ceilingRealm with resourceServers := [] }, ⟨none, some "app", none⟩, "app", [], [], [], none,
    [], by decide, by decide +kernel, "app", rfl, by decide +kernel⟩

end Qid.OAuth
