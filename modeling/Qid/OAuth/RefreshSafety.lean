/-
Safety of refresh token families.

Any interleaving of the calls of requests, any clock, and any calls from other endpoints but
rotations. SHA-256 is assumed injective, and the identifiers that are drawn new.
-/
import Qid.OAuth.Containment

namespace Qid.OAuth

open Lib Lib.Service Models Storage Dpop

variable {r : TokenResponse} {st : SharedState} {q : RefreshRun}

section

def StoredDeadline (fid : String) (f₀ : TokenFamily) (events : List StoreEvent)
    (deadline : Nat) : Prop :=
  f₀.refreshExpiresAt.or ((rotations fid events).head?.map fun r => r.refreshExpiresAt) =
    some deadline

/-- The access token of a response is opaque, or its claims carry the scopes and expire by
the deadline. -/
def AccessWithin (st : SharedState) (deadline : Nat) (q : RefreshRun) (scopes : List String)
    (token : String) : Prop :=
  token = encodeOpaqueAccessToken q.run.accessJti ∨
    ∃ claims exp, st.signer.signWithTyp claims "at+jwt" = .ok token ∧
      claims.jti = some q.run.accessJti ∧
      claims.extra.lookup "scope" = some (.string (" ".intercalate scopes)) ∧
      claims.exp = some exp ∧ exp ≤ deadline

/-- The claims of the refresh token of a response expire by the deadline. -/
def RefreshWithin (st : SharedState) (deadline : Nat) (q : RefreshRun) (token : String) : Prop :=
  ∃ claims exp, st.signer.sign claims = .ok token ∧ claims.jti = some q.run.refreshJti ∧
    claims.exp = some exp ∧ exp ≤ deadline

/-- The tokens of a response stay within the grant. -/
structure Within (st : SharedState) (f₀ : TokenFamily) (deadline : Nat) (q : RefreshRun)
    (r : TokenResponse) : Prop where
  access : ∃ scopes ⊆ f₀.scopes, r.scope = some (" ".intercalate scopes) ∧
    AccessWithin st deadline q scopes r.accessToken
  expiresIn : r.expiresIn ≤ deadline - q.run.now
  refresh : ∃ token, r.refreshToken = some token ∧ RefreshWithin st deadline q token

theorem lookup_insertSome_of_ne {α : Type} {key k : String} (hk : k ≠ key) (value : Option α)
    (encode : α → Json.Value) (extra : HashMap Json.Value) :
    (insertSome key value encode extra).lookup k = extra.lookup k := by
  cases value with
  | none => rfl
  | some v => exact (KeyMap.lookup_insert_eq extra key k (encode v)).trans (if_neg hk)

variable {f : TokenFamily} {issuer : String} {user : Models.User} {scopes : List String}

/-- What a refresh answers stays within the copy of the family it has read. -/
theorem within_refreshResponse (hscopes : refreshScopes q f = .ok scopes)
    (h : refreshResponse st q f issuer user scopes = .ok r) :
    Within st f (refreshDeadline st f) q r := by
  rw [refreshResponse, bind_eq_ok] at h
  obtain ⟨access, haccess, h⟩ := h
  rw [bind_eq_ok] at h
  obtain ⟨refresh, hrefresh, h⟩ := h
  rw [pure_eq_ok] at h
  subst h
  refine ⟨⟨scopes, refreshScopes_subset hscopes, rfl, ?_⟩, Nat.min_le_left _ _, refresh, rfl, ?_⟩
  · rw [formatAccessToken] at haccess
    cases hformat : (st.tokenTtl f.realmId).accessTokenFormat with
    | isOpaque =>
      rw [hformat] at haccess
      exact Or.inl (Except.ok.inj haccess).symm
    | jwt =>
      rw [hformat] at haccess
      refine Or.inr ⟨_, _, signed_eq_ok haccess, rfl, ?_, rfl, Nat.min_le_right _ _⟩
      show (accessTokenExtra _ _ _).lookup "scope" = _
      rw [accessTokenExtra]
      iterate 8 rw [lookup_insertSome_of_ne (by decide)]
      rw [KeyMap.lookup_insert_eq, if_neg (by decide), KeyMap.lookup_insert_eq,
        if_neg (by decide), KeyMap.lookup_insert_eq, if_pos rfl]
  · exact ⟨_, _, signed_eq_ok hrefresh, rfl, rfl, Nat.min_le_right _ _⟩

theorem Lineage.storedDeadline {fid : String} {f₀ : TokenFamily} {h : List StoreEvent}
    {m : Served Store Request RefreshPhase} (hm : Lineage st fid f₀ h m)
    (hrots : rotations fid h ≠ []) : StoredDeadline fid f₀ h (refreshDeadline st f₀) := by
  obtain ⟨r, rots, heq⟩ := List.exists_cons_of_ne_nil hrots
  have hr : r ∈ rotations fid h := by
    rw [heq]
    exact List.mem_cons_self
  have hdeadline := (hm.drawn r hr).1
  cases hexpires : f₀.refreshExpiresAt with
  | none =>
    rw [StoredDeadline, hexpires, heq]
    exact congrArg some hdeadline
  | some =>
    rw [StoredDeadline, refreshDeadline, hexpires]
    rfl

end

section

/-- What holds of a family `f₀`, stored under `fid` at the start. -/
structure LineageSafe (st : SharedState) (fid : String) (f₀ : TokenFamily) (start : Store)
    (acts : List Act) : Prop where
  /-- A refresh token yields at most one successful response. -/
  once : ∀ {i j : Nat} {q q' : RefreshRun} {p : Presented} {r r' : TokenResponse},
    Presents st acts i q p → Presents st acts j q' p → p.familyId = fid →
    Succeeded (final (step st) (opened start) acts) i r →
    Succeeded (final (step st) (opened start) acts) j r' → i = j
  /-- When the owner presents a token that was rotated before, the family is revoked by the time the
  request returns, and no later refresh succeeds. -/
  contained : ∀ {pre mid post : List Act} {q : RefreshRun} {p : Presented}
    {res : QidResult Response}, acts = pre ++ [.arrive (.refreshToken q)] ++ mid ++ post →
    p.familyId = fid → Reuse st f₀ (rotations fid (trace st (opened start) pre)) q p →
    (∀ e ∈ trace st (final (step st) (opened start) (pre ++ [.arrive (.refreshToken q)])) mid,
      SessionActive f₀ q e.before) →
    (final (step st) (opened start) (pre ++ [.arrive (.refreshToken q)] ++ mid)).threads[
      (arrivals pre).length]? = some (.ret res) →
    FamilyRevoked fid
      (final (step st) (opened start) (pre ++ [.arrive (.refreshToken q)] ++ mid)).shared ∧
    ∀ (i : Nat) (q' : RefreshRun) (p' : Presented) (r : TokenResponse),
      (arrivals (pre ++ [.arrive (.refreshToken q)] ++ mid)).length ≤ i →
      Presents st acts i q' p' → p'.familyId = fid →
      ¬ Succeeded (final (step st) (opened start) acts) i r
  /-- The tokens of a response stay within the scopes and the deadline of the family. -/
  within : ∀ {i : Nat} {q : RefreshRun} {p : Presented} {r : TokenResponse},
    Presents st acts i q p → p.familyId = fid →
    Succeeded (final (step st) (opened start) acts) i r →
    ∃ deadline, StoredDeadline fid f₀ (trace st (opened start) acts) deadline ∧
      Within st f₀ deadline q r
  /-- So do the access tokens that refreshes store. -/
  stored : ∀ e ∈ trace st (opened start) acts, ∀ (i : Nat) (persist : Persist) (q : RefreshRun)
    (t : AccessToken) (a : (Call.createAccessToken t).Answer), e.call = .advance i persist →
    (arrivals acts)[i]? = some (.refreshToken q) → e.reply = some ⟨.createAccessToken t, a⟩ →
    t.familyId = some fid → t.scopes ⊆ f₀.scopes ∧
      ∃ deadline, StoredDeadline fid f₀ (trace st (opened start) acts) deadline ∧
        t.expiresAt ≤ deadline
  /-- A request that is not a refresh by the owner never changes the family. -/
  foreign : ∀ e ∈ trace st (opened start) acts, ∀ (i : Nat) (persist : Persist) (req : Request),
    e.call = .advance i persist → (arrivals acts)[i]? = some req →
    (∀ q, req = .refreshToken q → ¬ f₀.OwnedBy q.client) →
    e.after.tokenFamilies.find fid = e.before.tokenFamilies.find fid

variable {fid : String} {f₀ : TokenFamily} {start : Store} {acts : List Act}

section

variable (hsha : Function.Injective st.sha256Base64url)
  (hstart : start.tokenFamilies.find fid = some f₀) {p : Presented} {pre : List Act}
include hsha hstart

theorem redeems_once (hacts : Admissible st f₀ acts) {i j : Nat} {q' : RefreshRun}
    {r' : TokenResponse} (hp : Presents st acts i q p) (hp' : Presents st acts j q' p)
    (hfamily : p.familyId = fid) (hr : Succeeded (final (step st) (opened start) acts) i r)
    (hr' : Succeeded (final (step st) (opened start) acts) j r') : i = j := by
  obtain ⟨m, hm⟩ := lineage_run hsha hstart hacts
  obtain ⟨f, hjob, hid, -⟩ := hm.issued hp hr
  obtain ⟨f', hjob', hid', -⟩ := hm.issued hp' hr'
  have hredeemed := (hm.lineage.sound i q _ hjob).2 (hid.trans hfamily)
  have hredeemed' := (hm.lineage.sound j q' _ hjob').2 (hid'.trans hfamily)
  -- two runs that redeem the same token made the same rotation, so they are the same run
  obtain ⟨g, hg, -⟩ := hm.lineage.stored
  have hnodup := (List.nodup_append.mp (hm.lineage.expected_nodup hg)).1
  obtain ⟨x, hx, hexpected, hnew⟩ := hredeemed
  obtain ⟨x', hx', hexpected', hnew'⟩ := hredeemed'
  have hsame : x = x' := List.inj_on_of_nodup_map hnodup hx hx' (hexpected.trans hexpected'.symm)
  refine hacts.fresh.distinct i j q q' hp.request hp'.request (hsha ?_)
  rw [← hnew, ← hnew', hsame]

theorem issues_within (hacts : Admissible st f₀ acts) {i : Nat} (hp : Presents st acts i q p)
    (hfamily : p.familyId = fid) (hr : Succeeded (final (step st) (opened start) acts) i r) :
    ∃ deadline, StoredDeadline fid f₀ (trace st (opened start) acts) deadline ∧
      Within st f₀ deadline q r := by
  obtain ⟨m, hm⟩ := lineage_run hsha hstart hacts
  obtain ⟨f, hjob, hid, issuer, user, scopes, hscopes, hresp⟩ := hm.issued hp hr
  obtain ⟨hcopy, hredeemed⟩ := hm.lineage.sound i q _ hjob
  have hid : f.id = fid := hid.trans hfamily
  have hcont := hcopy.continues hid
  obtain ⟨rot, hrot, -⟩ := hredeemed hid
  refine ⟨_, hm.lineage.storedDeadline (List.ne_nil_of_mem hrot), ?_⟩
  have hwithin := within_refreshResponse hscopes hresp
  rw [hcont.deadline] at hwithin
  obtain ⟨⟨scopes', hsub, haccess⟩, hexpires, hrefresh⟩ := hwithin
  exact ⟨⟨scopes', hcont.scopes ▸ hsub, haccess⟩, hexpires, hrefresh⟩

theorem caught_arrive (hacts : Admissible st f₀ (pre ++ [.arrive (.refreshToken q)]))
    (p : Presented) :
    ∃ m, Followed st fid f₀ start (pre ++ [.arrive (.refreshToken q)]) m ∧
      Caught st fid (arrivals pre).length q p m := by
  obtain ⟨m, hm⟩ := lineage_run hsha hstart hacts.left
  have hrequests : (m.jobs ++ [(Request.refreshToken q, RefreshPhase.start)]).map Prod.fst =
      arrivals (pre ++ [.arrive (.refreshToken q)]) := by
    rw [List.map_append, hm.requests, arrivals_append]
    rfl
  have hlineage := hm.lineage.moved hsha (hrequests ▸ hacts.fresh)
    (fun r persist hcall => by cases hcall) (Moved.arrive (.refreshToken q))
  refine ⟨{ m with jobs := m.jobs ++ [(.refreshToken q, .start)] }, ⟨?_, hrequests, ?_⟩, .start,
    ?_, trivial⟩
  · rw [final_append]
    exact hm.reached.arrive (leads_serve st (.refreshToken q))
  · rw [trace_append]
    have hshared := hm.reached.shared
    exact hshared ▸ hlineage
  · rw [← hm.requests, List.length_map]
    exact List.getElem?_concat_length

/-- Follow the run to the request that presents a redeemed token, to its return, and to
the end. -/
theorem contains_reuse {mid post : List Act} {res : QidResult Response}
    (hacts : Admissible st f₀ (pre ++ [.arrive (.refreshToken q)] ++ mid ++ post))
    (hfamily : p.familyId = fid)
    (hreuse : Reuse st f₀ (rotations fid (trace st (opened start) pre)) q p)
    (hsession : ∀ e ∈ trace st (final (step st) (opened start) (pre ++ [.arrive (.refreshToken q)]))
      mid, SessionActive f₀ q e.before)
    (hret : (final (step st) (opened start) (pre ++ [.arrive (.refreshToken q)] ++
      mid)).threads[(arrivals pre).length]? = some (.ret res)) :
    FamilyRevoked fid
      (final (step st) (opened start) (pre ++ [.arrive (.refreshToken q)] ++ mid)).shared ∧
    ∀ (i : Nat) (q' : RefreshRun) (p' : Presented) (r : TokenResponse),
      (arrivals (pre ++ [.arrive (.refreshToken q)] ++ mid)).length ≤ i →
      Presents st (pre ++ [.arrive (.refreshToken q)] ++ mid ++ post) i q' p' →
      p'.familyId = fid →
      ¬ Succeeded (final (step st) (opened start)
        (pre ++ [.arrive (.refreshToken q)] ++ mid ++ post)) i r := by
  obtain ⟨m, hm, hcaught⟩ := caught_arrive hsha hstart hacts.left.left p
  have hreuse' : Reuse st f₀ (rotations fid (trace st (opened start)
      (pre ++ [.arrive (.refreshToken q)]))) q p := by
    rw [trace_append, rotations_append]
    exact hreuse.mono _
  obtain ⟨m', hm', hcaught'⟩ := hm.track_caught hsha hacts.left hreuse' hfamily hcaught hsession
  have hrevoked := hcaught'.revoked hreuse.presented hm'.reached hret
  refine ⟨hm'.reached.shared ▸ hrevoked, fun i q' p' r hi hp' hfamily' hr => ?_⟩
  obtain ⟨m'', hm'', hshut⟩ := hm'.track hsha hacts (J := fun _ m => ShutOut fid m'.jobs.length m)
    ⟨hrevoked, fun i q ph hi hjob =>
      absurd (List.getElem?_eq_some_iff.mp hjob).1 (Nat.not_lt.mpr hi)⟩
    fun x m e m' _ hJ hmoved => hJ.moved hmoved
  obtain ⟨f, hjob, hid, -⟩ := hm''.issued hp' hr
  have hlate : m'.jobs.length ≤ i := by
    rw [← hm'.requests, List.length_map] at hi
    exact hi
  exact hshut.uninvolved i q' _ hlate hjob f rfl (hid.trans hfamily')

end

/-- Refresh token families are safe in every run. -/
theorem refresh_lineage_safe (hsha : Function.Injective st.sha256Base64url)
    (hstart : start.tokenFamilies.find fid = some f₀) (hacts : Admissible st f₀ acts) :
    LineageSafe st fid f₀ start acts := by
  refine ⟨redeems_once hsha hstart hacts, ?_, issues_within hsha hstart hacts, ?_, ?_⟩
  · intro pre mid post q p res heq hfamily hreuse hsession hret
    subst heq
    exact contains_reuse hsha hstart hacts hfamily hreuse hsession hret
  · intro e he i persist q t a hact hreq hreply ht
    obtain ⟨pre, post, m, m', later, htrace, hm, hmoved, hrequests⟩ :=
      lineage_event hsha hstart hacts he
    obtain ⟨hscopes, hexpires, hrots⟩ := hm.within hmoved hact (hrequests ▸ hreq) hreply ht
    refine ⟨hscopes, _, ?_, hexpires⟩
    obtain ⟨m'', hm''⟩ := lineage_run hsha hstart hacts
    refine hm''.lineage.storedDeadline ?_
    rw [htrace, rotations_append]
    exact List.append_ne_nil_of_left_ne_nil hrots _
  · intro e he i persist req hact hreq hnot
    obtain ⟨pre, post, m, m', later, -, hm, hmoved, hrequests⟩ := lineage_event hsha hstart hacts he
    rw [hrequests] at hreq
    cases hmoved with
    | arrive | outside => cases hact
    | idle => rfl
    | advance i persist q ph c hjob hcall =>
      cases hact
      have hq := request_eq hjob hreq
      subst hq
      cases req with
      | refreshToken r => exact hm.find_foreign (hm.sound i r ph hjob) hcall (hnot r rfl) persist
      | _ =>
        obtain ⟨f, hf, -⟩ := hm.stored
        rw [hf]
        exact find_of_changesFamily hcall persist hf

end

def sampleFamily : TokenFamily :=
  { id := "fam", realmId := "main", currentRefreshHash := "oat_r0", refreshExpiresAt := none
    revoked := false, userId := "alice", clientId := "app", scopes := ["openid"]
    authTime := none, acr := none, amr := [], audience := [], resource := []
    authorizationDetails := none, senderConstraint := none, issuedAt := 100, sessionId := none }

def sampleFamilyStore : Store := { sampleStore with tokenFamilies := Table.empty.put sampleFamily }

def sampleRefresh (token ulid : String) : RefreshRun :=
  { refreshToken := some token, scope := none, client := sampleClient, cnf := none
    run := sampleRun 200 ulid }

def sampleRefreshes : List Act :=
  [.arrive (.refreshToken (sampleRefresh "oat_r0" "1")), .advance 0 .done, .advance 0 .done,
    .advance 0 .done, .advance 0 .done] ++
  [.arrive (.refreshToken (sampleRefresh "oat_r0" "2"))] ++
  [.advance 1 .done, .advance 1 .done] ++
  [.arrive (.refreshToken (sampleRefresh "oat_r1" "3")), .advance 2 .done]

theorem admissible_sampleRefreshes : Admissible sampleState sampleFamily sampleRefreshes := by
  refine ⟨⟨fun i j q q' hi hj hjti => ?_, fun q hq => ?_⟩, fun r persist => ?_⟩
  · match i, j, hi, hj with
    | 0, 0, _, _ | 1, 1, _, _ | 2, 2, _, _ => rfl
    | 0, 1, rfl, rfl | 0, 2, rfl, rfl | 1, 0, rfl, rfl | 1, 2, rfl, rfl | 2, 0, rfl, rfl
    | 2, 1, rfl, rfl => revert hjti; decide
  · have hq : q = sampleRefresh "oat_r0" "1" ∨ q = sampleRefresh "oat_r0" "2" ∨
        q = sampleRefresh "oat_r1" "3" := by
      simpa [sampleRefreshes, arrivals] using hq
    rcases hq with rfl | rfl | rfl <;> decide
  · simp [sampleRefreshes]

/-- The refresh that presents the token again revokes the family, and the second token is refused.
-/
theorem refresh_lineage_safe_sample :
    LineageSafe sampleState "fam" sampleFamily sampleFamilyStore sampleRefreshes ∧
    FamilyRevoked "fam" (final (step sampleState) (opened sampleFamilyStore)
      (sampleRefreshes.take 8)).shared ∧
    ∀ r, ¬ Succeeded (final (step sampleState) (opened sampleFamilyStore) sampleRefreshes) 2 r := by
  have hsafe : LineageSafe sampleState "fam" sampleFamily sampleFamilyStore sampleRefreshes :=
    refresh_lineage_safe (fun _ _ h => h) (Table.find_put_self _ _) admissible_sampleRefreshes
  have hreuse : Reuse sampleState sampleFamily
      (rotations "fam" (trace sampleState (opened sampleFamilyStore) (sampleRefreshes.take 5)))
      (sampleRefresh "oat_r0" "2") { jti := "oat_r0", familyId := "fam" } :=
    ⟨rfl, by decide, by decide, _, List.mem_singleton_self _, rfl⟩
  obtain ⟨hrevoked, hlater⟩ := hsafe.contained rfl rfl hreuse (fun e _ id hid => by cases hid) rfl
  exact ⟨hsafe, hrevoked, fun r => hlater 2 _ _ r (by decide) ⟨rfl, rfl⟩ rfl⟩

end Qid.OAuth
