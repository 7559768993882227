/-
Runs of the endpoint that refresh a family.

`Followed.track` follows a run with the invariant, `lineage_run` starts one and `lineage_event`
looks at one of its events.
-/
import Qid.OAuth.Lineage

namespace Qid.OAuth

open Lib Lib.Service Models Storage Dpop

variable {f : TokenFamily} {m : Served Store Request RefreshPhase} {h : List StoreEvent}
  {q : RefreshRun} {i : Nat} {start : Store} {acts : List Act}

section

variable (st : SharedState) (fid : String) (f₀ : TokenFamily) {e : StoreEvent}
  {m' : Served Store Request RefreshPhase} {persist : Persist} {later : List Request}
  {J : List StoreEvent → Served Store Request RefreshPhase → Prop}

/-- What a run is asked for: the refresh tokens it draws are new, and only the grant
rotates families. -/
structure Admissible (acts : List Act) : Prop where
  fresh : FreshJtis st f₀ (arrivals acts)
  proper : ∀ r persist, Service.Act.outside (.updateTokenFamilyRefreshHash r) persist ∉ acts

variable {st fid f₀}

theorem refreshScopes_subset {scopes : List String} (h : refreshScopes q f = .ok scopes) :
    scopes ⊆ f.scopes := by
  rw [refreshScopes, bind_eq_ok] at h
  obtain ⟨-, -, h⟩ := h
  cases hscope : q.scope with
  | none =>
    rw [hscope] at h
    cases h
    exact List.Subset.refl _
  | some =>
    rw [hscope] at h
    obtain ⟨⟨⟩, hall, h⟩ := bind_eq_ok.mp h
    cases h
    intro scope hmem
    exact ensure_eq_ok.mp (forM_eq_ok.mp hall scope hmem)

theorem TokenFamily.Continues.scopes (h : f.Continues st f₀) : f.scopes = f₀.scopes := by
  rw [h.grant]

theorem TokenFamily.Continues.ownedBy (h : f.Continues st f₀) (client : Client) :
    f.OwnedBy client ↔ f₀.OwnedBy client := by
  rw [h.grant]
  exact Iff.rfl

theorem Lineage.find_foreign (hm : Lineage st fid f₀ h m) {ph : RefreshPhase} {c : Call}
    (hph : SoundPhase st fid f₀ (rotations fid h) q ph) (hcall : RefreshCall st q ph c)
    (howner : ¬ f₀.OwnedBy q.client) (persist : Persist) :
    (answer persist m.shared c).2.tokenFamilies.find fid = m.shared.tokenFamilies.find fid := by
  have hforeign {p : Presented} {f : TokenFamily} (hf : Copied st fid f₀ q p f) : f.id ≠ fid :=
    fun hid => howner (((hf.continues hid).ownedBy q.client).mp hf.owned)
  by_cases hc : c.changesFamily = false
  · obtain ⟨f, hf, -⟩ := hm.stored
    rw [hf]
    exact find_of_changesFamily hc persist hf
  · have hstep := familyStep persist m.shared fid c
    generalize (answer persist m.shared c).1 = a at hstep
    generalize (answer persist m.shared c).2.tokenFamilies.find fid = found at hstep ⊢
    cases hcall with
    | @rotate p f =>
      cases hstep with
      | kept => rfl
      | rotated hid => exact absurd hid (hforeign hph.1)
    | @revoke p f =>
      generalize hid : f.id = id at hstep
      cases hstep with
      | kept _ => rfl
      | revoked => exact absurd hid (hforeign hph)
    | _ => exact absurd rfl hc

theorem Lineage.within (hm : Lineage st fid f₀ h m)
    (hmoved : Moved (familyProtocol st) familyStart answer m e m')
    (hact : e.call = .advance i persist)
    (hi : (m.jobs.map Prod.fst ++ later)[i]? = some (.refreshToken q)) {t : AccessToken}
    {a : (Call.createAccessToken t).Answer} (hreply : e.reply = some ⟨.createAccessToken t, a⟩)
    (ht : t.familyId = some fid) :
    t.scopes ⊆ f₀.scopes ∧ t.expiresAt ≤ refreshDeadline st f₀ ∧ rotations fid h ≠ [] := by
  cases hmoved with
  | arrive q | outside c persist => cases hact
  | idle => cases hreply
  | advance i persist req ph c hjob hcall =>
    cases hact
    have hq := request_eq hjob hi
    subst hq
    cases hreply
    cases hcall with
    | @create p f scopes hscopes =>
      have hid : f.id = fid := Option.some.inj ht
      obtain ⟨hcopy, hredeemed⟩ := hm.sound i q _ hjob
      have hcont := hcopy.continues hid
      obtain ⟨rot, hrot, -⟩ := hredeemed hid
      refine ⟨hcont.scopes ▸ refreshScopes_subset hscopes, ?_, List.ne_nil_of_mem hrot⟩
      show min _ (refreshDeadline st f) ≤ _
      rw [hcont.deadline]
      exact Nat.min_le_right _ _

variable {acts' : List Act}

theorem Admissible.left (h : Admissible st f₀ (acts ++ acts')) : Admissible st f₀ acts := by
  have hfresh := h.fresh
  rw [arrivals_append] at hfresh
  exact ⟨hfresh.of_append, fun r persist hmem => h.proper r persist (List.mem_append_left _ hmem)⟩

theorem trace_append (st : SharedState) (w : Endpoint) (acts acts' : List Act) :
    trace st w (acts ++ acts') = trace st w acts ++ trace st (final (step st) w acts) acts' := by
  show (run (step st) w (acts ++ acts')).map ofStore = _
  rw [run_append, List.map_append]
  rfl

structure Followed (st : SharedState) (fid : String) (f₀ : TokenFamily) (start : Store)
    (acts : List Act) (m : Served Store Request RefreshPhase) : Prop where
  reached : Reached (familyProtocol st) (familyReturns st) (final (step st) (opened start) acts) m
  requests : m.jobs.map Prod.fst = arrivals acts
  lineage : Lineage st fid f₀ (trace st (opened start) acts) m

theorem followed_opened (hstart : start.tokenFamilies.find fid = some f₀) :
    Followed st fid f₀ start [] { shared := start, jobs := [] } := by
  refine ⟨reached_opened start, rfl, ⟨f₀, hstart, ⟨rfl, rfl⟩, rfl, rfl⟩,
    List.nodup_singleton _, ?_, ?_⟩
  · exact fun r hr => by cases hr
  · exact fun i q ph hi => by cases hi

variable (hsha : Function.Injective st.sha256Base64url)
include hsha

theorem Followed.track (hm : Followed st fid f₀ start acts m)
    (hacts : Admissible st f₀ (acts ++ acts')) (hJ : J [] m)
    (hstep : ∀ x m e m', Lineage st fid f₀ (trace st (opened start) acts ++ x) m →
      J x m → Moved (familyProtocol st) familyStart answer m e m' → J (x ++ [e]) m') :
    ∃ m', Followed st fid f₀ start (acts ++ acts') m' ∧
      J (trace st (final (step st) (opened start) acts) acts') m' := by
  -- the lineage and the relation, under what prefixes of the run inherit from it
  obtain ⟨m', hw, hrequests, hinv⟩ := Service.track (I := fun x m =>
      FreshJtis st f₀ (m.jobs.map Prod.fst) → (∀ e ∈ x, StoreEvent.Proper e) →
        Lineage st fid f₀ (trace st (opened start) acts ++ x) m ∧ J x m) answer (leads_serve st)
    (fun x m e m' hinv hmoved hfresh hproper => by
      have hbefore : FreshJtis st f₀ (m.jobs.map Prod.fst) := by
        rw [hmoved.requests] at hfresh
        exact hfresh.of_append
      obtain ⟨hm, hJ⟩ := hinv hbefore fun e' he' => hproper e' (List.mem_append_left _ he')
      have he : StoreEvent.Proper e := hproper e List.mem_append_cons_self
      rw [← List.append_assoc]
      exact ⟨hm.moved hsha hfresh he hmoved, hstep x m e m' hm hJ hmoved⟩) hm.reached
    (fun _ _ => ⟨(List.append_nil _).symm ▸ hm.lineage, hJ⟩) acts'
  rw [hm.requests, ← arrivals_append] at hrequests
  obtain ⟨hlineage, hJ'⟩ := hinv (hrequests ▸ hacts.fresh) fun e he r persist hcall =>
    hacts.proper r persist (List.mem_append_right _ (hcall ▸ call_mem_of_mem_trace he))
  refine ⟨m', ⟨?_, hrequests, ?_⟩, hJ'⟩
  · rw [final_append]
    exact hw
  · rw [trace_append]
    exact hlineage

variable (hstart : start.tokenFamilies.find fid = some f₀) (hacts : Admissible st f₀ acts)
include hstart hacts

theorem lineage_run : ∃ m, Followed st fid f₀ start acts m := by
  obtain ⟨m, hm, -⟩ := (followed_opened hstart).track hsha hacts (J := fun _ _ => True) trivial
    fun _ _ _ _ _ _ _ => trivial
  exact ⟨m, hm⟩

theorem lineage_event (he : e ∈ trace st (opened start) acts) :
    ∃ pre post m m' later, trace st (opened start) acts = pre ++ e :: post ∧
      Lineage st fid f₀ pre m ∧ Moved (familyProtocol st) familyStart answer m e m' ∧
      arrivals acts = m.jobs.map Prod.fst ++ later := by
  refine Service.track_event answer (leads_serve st) (fun acts₁ acts₂ heq => ?_) he
  obtain ⟨m, hm⟩ := lineage_run hsha hstart (heq ▸ hacts).left
  exact ⟨m, hm.reached, hm.requests, hm.lineage⟩

end

variable (st : SharedState)

/-- The `i`-th request of the run presents a refresh token of the family. -/
structure Presents (acts : List Act) (i : Nat) (q : RefreshRun) (p : Presented) : Prop where
  request : (arrivals acts)[i]? = some (.refreshToken q)
  token : presentedToken st q = .ok p

variable {st} {fid : String} {f₀ : TokenFamily} {p : Presented} {r : TokenResponse}

theorem Followed.issued (hm : Followed st fid f₀ start acts m) (hp : Presents st acts i q p)
    (hr : Succeeded (final (step st) (opened start) acts) i r) :
    ∃ f, m.jobs[i]? = some (.refreshToken q, .issued p f) ∧ f.id = p.familyId ∧
      ∃ issuer user scopes, refreshScopes q f = .ok scopes ∧
        refreshResponse st q f issuer user scopes = .ok r := by
  obtain ⟨req, ph, hjob, hlead⟩ := hm.reached.job hr
  have hreq : req = .refreshToken q := by
    have hi := hp.request
    rw [← hm.requests, List.getElem?_map, hjob] at hi
    exact Option.some.inj hi
  subst hreq
  have hret : refreshReturns st q ph (.ok r) := hlead
  cases ph with
  | issued p' f =>
    have hcopy : Copied st fid f₀ q p' f := (hm.lineage.sound i q _ hjob).1
    have hpp : p' = p := by
      have := hcopy.presented
      rw [hp.token] at this
      cases this
      rfl
    subst hpp
    exact ⟨f, hjob, hcopy.id, hret⟩
  | start =>
    obtain ⟨e, -, he⟩ := hret
    cases he
  | _ => exact hret.elim

theorem Lineage.expected_nodup (hm : Lineage st fid f₀ h m)
    (hf : m.shared.tokenFamilies.find fid = some f) :
    ((rotations fid h).map (fun r => r.expectedRefreshHash) ++ [f.currentRefreshHash]).Nodup := by
  obtain ⟨f', hf', -, -, hhashes⟩ := hm.stored
  rw [hf] at hf'
  cases hf'
  rw [hhashes]
  exact hm.nodup

end Qid.OAuth
