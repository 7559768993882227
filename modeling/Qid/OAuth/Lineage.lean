/-
The lineage of a token family.

The rotations of a family form a chain: each one replaces the hash that the one before it installed.
`Lineage` says so, together with what each refresh in progress knows.
-/
import Qid.OAuth.RefreshProtocol

namespace Qid.OAuth

open Lib Lib.Service Models Storage Dpop

variable {f : TokenFamily} {s : Store} (fid : String)

def acceptedRotation : Option ((c : Call) × c.Answer) → Option Token.Rotation
  | some ⟨.updateTokenFamilyRefreshHash r, .ok ()⟩ => if r.id = fid then some r else none
  | _ => none

def rotations (events : List StoreEvent) : List Token.Rotation :=
  events.filterMap fun e => acceptedRotation fid e.reply

theorem rotations_append (xs ys : List StoreEvent) :
    rotations fid (xs ++ ys) = rotations fid xs ++ rotations fid ys :=
  List.filterMap_append

theorem rotations_snoc (xs : List StoreEvent) (e : StoreEvent) :
    rotations fid (xs ++ [e]) = rotations fid xs ++ (acceptedRotation fid e.reply).toList := by
  rw [rotations_append]
  rfl

/-- What a call with its answer does to the family. -/
inductive FamilyStep (s : Store) (fid : String) :
    (c : Call) → c.Answer → Option TokenFamily → Prop
  | kept {c : Call} {a : c.Answer} (h : acceptedRotation fid (some ⟨c, a⟩) = none) :
      FamilyStep s fid c a (s.tokenFamilies.find fid)
  | created {f : TokenFamily} {a : QidResult Unit} (hid : f.id = fid)
      (hnone : s.tokenFamilies.find fid = none) :
      FamilyStep s fid (.createTokenFamily f) a (some f)
  | rotated {r : Token.Rotation} {f : TokenFamily} (hid : r.id = fid)
      (hf : s.tokenFamilies.find fid = some f) (hrevoked : f.revoked = false)
      (hhash : f.currentRefreshHash = r.expectedRefreshHash) :
      FamilyStep s fid (.updateTokenFamilyRefreshHash r) (.ok ()) (some (f.withRefresh r.refresh))
  | revoked {f : TokenFamily} {realmId : String} {a : QidResult Unit}
      (hf : s.tokenFamilies.find fid = some f) :
      FamilyStep s fid (.revokeTokenFamily fid realmId) a (some (f.revokeIn realmId))

theorem family_id_of_find {id : String} (h : s.tokenFamilies.find id = some f) : f.id = id :=
  s.tokenFamilies.keyed id f h

variable (persist : Persist)

theorem familyStep_update (s : Store) (fid : String) (r : Token.Rotation) :
    FamilyStep s fid (.updateTokenFamilyRefreshHash r) (s.updateTokenFamilyRefreshHash persist r).1
      ((s.updateTokenFamilyRefreshHash persist r).2.tokenFamilies.find fid) := by
  rw [Store.updateTokenFamilyRefreshHash]
  cases hf : (s.tokenFamilies.find r.id).filter fun family => family.realmId = r.realmId with
  | none => exact .kept rfl
  | some f =>
    dsimp only
    cases hv : Token.validateTokenFamilyRotation f.toTokenFamily r.expectedRefreshHash
        r.refreshHash with
    | error => exact .kept rfl
    | ok =>
      cases persist.result with
      | error => exact .kept rfl
      | ok =>
        have hfind := (Option.filter_eq_some_iff.mp hf).1
        obtain ⟨hrevoked, hhash, -⟩ := Token.validateTokenFamilyRotation_ok hv
        have hfid : f.id = r.id := family_id_of_find hfind
        have hkey : (f.withRefresh r.refresh).id = r.id := hfid
        rw [Table.find_put, hkey]
        by_cases hid : r.id = fid
        · rw [if_pos hid.symm]
          exact .rotated hid (hid ▸ hfind) hrevoked hhash
        · rw [if_neg (Ne.symm hid)]
          refine .kept ?_
          rw [acceptedRotation, if_neg hid]

theorem familyStep (s : Store) (fid : String) (c : Call) :
    FamilyStep s fid c (answer persist s c).1 ((answer persist s c).2.tokenFamilies.find fid) := by
  by_cases hc : c.writesFamilies = false
  · rw [tokenFamilies_answer persist s hc]
    refine .kept ?_
    cases c with
    | updateTokenFamilyRefreshHash => cases hc
    | _ => rfl
  · cases c with
    | updateTokenFamilyRefreshHash => exact familyStep_update ..
    | revokeTokenFamily id realmId =>
      dsimp only [answer]
      rw [Store.revokeTokenFamily]
      cases hf : s.tokenFamilies.find id with
      | none => exact .kept rfl
      | some f =>
        have hfid : f.id = id := family_id_of_find hf
        have hkey : (f.revokeIn realmId).id = id := hfid
        rw [Table.find_put, hkey]
        by_cases hid : fid = id
        · subst hid
          rw [if_pos rfl]
          exact .revoked hf
        · rw [if_neg hid]
          exact .kept rfl
    | createTokenFamily f =>
      dsimp only [answer]
      rw [Store.createTokenFamily]
      split_ifs with hsome
      · exact .kept rfl
      · rw [Table.find_put]
        by_cases hid : fid = f.id
        · subst hid
          rw [if_pos rfl]
          exact .created rfl (by simpa using hsome)
        · rw [if_neg hid]
          exact .kept rfl
    | _ => exact absurd rfl hc

variable {f₀ : TokenFamily}

section

variable (st : SharedState)

/-- `f` carries the same grant as `f₀`, up to the same deadline. -/
structure TokenFamily.Continues (f f₀ : TokenFamily) : Prop where
  grant : f = { f₀ with
    currentRefreshHash := f.currentRefreshHash
    refreshExpiresAt := f.refreshExpiresAt
    revoked := f.revoked }
  deadline : refreshDeadline st f = refreshDeadline st f₀

variable {st} in
theorem TokenFamily.Continues.withRefresh (h : f.Continues st f₀) {r : Token.Refresh}
    (hr : r.expiresAt = some (refreshDeadline st f₀)) : (f.withRefresh r).Continues st f₀ := by
  refine ⟨?_, ?_⟩
  · have hgrant := h.grant
    rw [TokenFamily.withRefresh, Token.TokenFamily.withRefresh, hgrant]
  · show Option.getD r.expiresAt _ = _
    rw [hr]
    rfl

variable {st} in
theorem TokenFamily.Continues.revokeIn (h : f.Continues st f₀) (realmId : String) :
    (f.revokeIn realmId).Continues st f₀ := by
  refine ⟨?_, h.deadline⟩
  have hgrant := h.grant
  rw [TokenFamily.revokeIn, hgrant]

variable (fid : String) (f₀ : TokenFamily) (rots : List Token.Rotation)

/-- The refresh hashes the family has had, the first one first. -/
def installedHashes : List String := f₀.currentRefreshHash :: rots.map fun r => r.refreshHash

structure Copied (q : RefreshRun) (p : Presented) (f : TokenFamily) : Prop where
  presented : presentedToken st q = .ok p
  id : f.id = p.familyId
  owned : f.OwnedBy q.client
  continues : f.id = fid → f.Continues st f₀

def Redeemed (q : RefreshRun) (p : Presented) : Prop :=
  ∃ r ∈ rots, r.expectedRefreshHash = st.sha256Base64url p.jti ∧
    r.refreshHash = st.sha256Base64url q.run.refreshJti

def SoundPhase (q : RefreshRun) : RefreshPhase → Prop
  | .session p f => Copied st fid f₀ q p f
  | .current p f => Copied st fid f₀ q p f ∧ f.currentRefreshHash = st.sha256Base64url p.jti
  | .reuse p f => Copied st fid f₀ q p f
  | .rotated p f | .issued p f => Copied st fid f₀ q p f ∧ (f.id = fid → Redeemed st rots q p)
  | _ => True

/-- The refresh may still rotate. -/
def RefreshPhase.isPending : RefreshPhase → Bool
  | .start | .session _ _ | .current _ _ => true
  | _ => false

structure Lineage (h : List StoreEvent) (m : Served Store Request RefreshPhase) : Prop where
  stored : ∃ f, m.shared.tokenFamilies.find fid = some f ∧ f.Continues st f₀ ∧
    f.refreshExpiresAt =
      (if rotations fid h = [] then f₀.refreshExpiresAt else some (refreshDeadline st f₀)) ∧
    (rotations fid h).map (fun r => r.expectedRefreshHash) ++ [f.currentRefreshHash] =
      installedHashes f₀ (rotations fid h)
  nodup : (installedHashes f₀ (rotations fid h)).Nodup
  drawn : ∀ r ∈ rotations fid h, r.refreshExpiresAt = refreshDeadline st f₀ ∧
    ∃ (i : Nat) (q : RefreshRun) (ph : RefreshPhase), m.jobs[i]? = some (.refreshToken q, ph) ∧
      ph.isPending = false ∧ r.refreshHash = st.sha256Base64url q.run.refreshJti
  sound : ∀ (i : Nat) (q : RefreshRun) (ph : RefreshPhase),
    m.jobs[i]? = some (.refreshToken q, ph) → SoundPhase st fid f₀ (rotations fid h) q ph

/-- No two runs draw the same refresh token, and none draws the one the family starts with. -/
structure FreshJtis (requests : List Request) : Prop where
  distinct : ∀ (i j : Nat) (q q' : RefreshRun), requests[i]? = some (.refreshToken q) →
    requests[j]? = some (.refreshToken q') → q.run.refreshJti = q'.run.refreshJti → i = j
  unused : ∀ q : RefreshRun, .refreshToken q ∈ requests →
    st.sha256Base64url q.run.refreshJti ≠ f₀.currentRefreshHash

end

variable {st : SharedState} {fid : String} {h : List StoreEvent}
  {m : Served Store Request RefreshPhase} {e : StoreEvent} {m' : Served Store Request RefreshPhase}
  {p : Presented} {c : Call} {q : RefreshRun} {ph : RefreshPhase} {r : Token.Rotation} {i : Nat}
  {rots : List Token.Rotation}

theorem checkFamily_eq_ok {found : Option TokenFamily} :
    checkFamily st q found = .ok f ↔ found = some f ∧ f.OwnedBy q.client ∧ f.revoked = false ∧
      q.run.now < refreshDeadline st f := by
  simp only [checkFamily, bind_eq_ok, okOr_eq_ok, ensure_eq_ok, pure_eq_ok]
  constructor
  · rintro ⟨f', rfl, -, howned, -, hrevoked, -, hnow, rfl⟩
    exact ⟨rfl, howned, hrevoked, hnow⟩
  · rintro ⟨rfl, howned, hrevoked, hnow⟩
    exact ⟨f, rfl, (), howned, (), hrevoked, (), hnow, rfl⟩

theorem FreshJtis.of_append {requests later : List Request}
    (hfresh : FreshJtis st f₀ (requests ++ later)) : FreshJtis st f₀ requests := by
  have hleft {i : Nat} {q : Request} (hq : requests[i]? = some q) :
      (requests ++ later)[i]? = some q := by
    rw [List.getElem?_append_left (List.getElem?_eq_some_iff.mp hq).1]
    exact hq
  refine ⟨fun i j q q' hi hj => hfresh.distinct i j q q' (hleft hi) (hleft hj), fun q hq => ?_⟩
  exact hfresh.unused q (List.mem_append_left later hq)

theorem SoundPhase.mono {rots' : List Token.Rotation} (hsub : rots ⊆ rots')
    (hph : SoundPhase st fid f₀ rots q ph) : SoundPhase st fid f₀ rots' q ph := by
  have hredeemed {p : Presented} (hr : Redeemed st rots q p) : Redeemed st rots' q p := by
    obtain ⟨r, hr, hhash⟩ := hr
    exact ⟨r, hsub hr, hhash⟩
  cases ph with
  | rotated p f | issued p f => exact ⟨hph.1, fun hid => hredeemed (hph.2 hid)⟩
  | _ => exact hph

/-- The requests stay, and a run that can no longer rotate never can again. -/
def Onward (jobs jobs' : List (Request × RefreshPhase)) : Prop :=
  ∀ (i : Nat) (q : RefreshRun) (ph : RefreshPhase), jobs[i]? = some (.refreshToken q, ph) →
    ∃ ph', jobs'[i]? = some (.refreshToken q, ph') ∧ (ph.isPending = false → ph'.isPending = false)

theorem onward_of_moved (hmoved : Moved (familyProtocol st) familyStart answer m e m') :
    Onward m.jobs m'.jobs := by
  intro i q ph hjob
  rcases hmoved.job hjob with hkept | ⟨persist, c, hcall, -, hnext⟩
  · exact ⟨ph, hkept, id⟩
  · refine ⟨_, hnext, fun hdone => ?_⟩
    cases hcall with
    | revoke => rfl
    | create =>
      cases (answer persist m.shared _).1 with
      | _ => rfl
    | _ => cases hdone

theorem soundPhase_afterSession (hf : Copied st fid f₀ q p f) :
    SoundPhase st fid f₀ rots q (afterSession st p f) := by
  rw [afterSession]
  split_ifs with hhash
  · exact ⟨hf, hhash⟩
  · exact hf

theorem find_of_changesFamily (hc : c.changesFamily = false) (persist : Persist)
    (hf : s.tokenFamilies.find fid = some f) :
    (answer persist s c).2.tokenFamilies.find fid = some f := by
  have hstep := familyStep persist s fid c
  generalize (answer persist s c).1 = a at hstep
  generalize (answer persist s c).2.tokenFamilies.find fid = found at hstep ⊢
  cases hstep with
  | kept => exact hf
  | created hid hnone =>
    rw [hnone] at hf
    cases hf
  | _ => cases hc

/-- The event is not a rotation by another endpoint; none other rotates. -/
def StoreEvent.Proper (e : StoreEvent) : Prop :=
  ∀ r persist, e.call ≠ .outside (.updateTokenFamilyRefreshHash r) persist

theorem call_of_acceptedRotation {a : c.Answer} (h : acceptedRotation fid (some ⟨c, a⟩) = some r) :
    c = .updateTokenFamilyRefreshHash r := by
  cases c with
  | updateTokenFamilyRefreshHash r' =>
    cases a with
    | ok =>
      rw [acceptedRotation, Option.ite_none_right_eq_some] at h
      rw [Option.some.inj h.2]
    | error => cases h
  | _ => cases h

variable (hm : Lineage st fid f₀ h m)
include hm

theorem Lineage.drawn_moved (hmoved : Moved (familyProtocol st) familyStart answer m e m')
    (hr : r ∈ rotations fid h) :
    r.refreshExpiresAt = refreshDeadline st f₀ ∧ ∃ (i : Nat) (q : RefreshRun) (ph : RefreshPhase),
      m'.jobs[i]? = some (.refreshToken q, ph) ∧ ph.isPending = false ∧
        r.refreshHash = st.sha256Base64url q.run.refreshJti := by
  obtain ⟨hdeadline, i, q, ph, hjob, hdone, hhash⟩ := hm.drawn r hr
  obtain ⟨ph', hjob', hdone'⟩ := onward_of_moved hmoved i q ph hjob
  exact ⟨hdeadline, i, q, ph', hjob', hdone' hdone, hhash⟩

theorem Lineage.sound_afterRead (hp : presentedToken st q = .ok p) :
    SoundPhase st fid f₀ (rotations fid h) q
      (afterRead st q p (m.shared.tokenFamilies.find p.familyId)) := by
  rw [afterRead]
  cases hcheck : checkFamily st q (m.shared.tokenFamilies.find p.familyId) with
  | error => exact trivial
  | ok f =>
    obtain ⟨hfind, howned, -, -⟩ := checkFamily_eq_ok.mp hcheck
    have hfid : f.id = p.familyId := family_id_of_find hfind
    have hcopy : Copied st fid f₀ q p f := by
      refine ⟨hp, hfid, howned, fun hid => ?_⟩
      obtain ⟨f', hf', hcont, -⟩ := hm.stored
      rw [← hid, hfid, hfind] at hf'
      cases hf'
      exact hcont
    dsimp only
    split
    · exact hcopy
    · exact soundPhase_afterSession hcopy

theorem Lineage.sound_moved (hmoved : Moved (familyProtocol st) familyStart answer m e m')
    (hi : m'.jobs[i]? = some (.refreshToken q, ph)) :
    SoundPhase st fid f₀ (rotations fid (h ++ [e])) q ph := by
  have hsub : rotations fid h ⊆ rotations fid (h ++ [e]) := by
    rw [rotations_snoc]
    exact List.subset_append_left _ _
  rcases hmoved.of_job hi with hold | ⟨rfl, -⟩ | ⟨ph₀, persist, c, hjob, hcall, he, rfl⟩
  · exact (hm.sound i q ph hold).mono hsub
  · exact trivial
  · have hph := (hm.sound i q ph₀ hjob).mono hsub
    cases hcall with
    | @read p hp =>
      show SoundPhase st fid f₀ _ q (readPhase st q _)
      rw [readPhase_eq hp]
      exact (hm.sound_afterRead hp).mono hsub
    | @session p f id hid =>
      show SoundPhase st fid f₀ _ q
        (if sessionLive q f (m.shared.directory.sessions.find id) then _ else _)
      split
      · exact soundPhase_afterSession hph
      · exact trivial
    | user | client => exact hph
    | revoke => exact trivial
    | create =>
      cases (answer persist m.shared _).1 with
      | ok => exact hph
      | error => exact trivial
    | @rotate p f =>
      generalize (answer persist m.shared _).1 = a at he ⊢
      cases a with
      | ok =>
        refine ⟨hph.1, fun hid => ⟨rotationOf st q p f, ?_, rfl, rfl⟩⟩
        have hid : (rotationOf st q p f).id = fid := hid
        rw [rotations_snoc, he, acceptedRotation, if_pos hid]
        exact List.mem_append_cons_self
      | error e =>
        cases e with
        | conflict => exact hph.1
        | _ => exact trivial

theorem Lineage.kept (he : acceptedRotation fid e.reply = none)
    (hmoved : Moved (familyProtocol st) familyStart answer m e m') :
    Lineage st fid f₀ (h ++ [e]) m' := by
  have hrots : rotations fid (h ++ [e]) = rotations fid h := by
    rw [rotations_snoc, he]
    exact List.append_nil _
  obtain ⟨f, hf, hcont, hexpires, hhashes⟩ := hm.stored
  have hstored : ∃ f', m'.shared.tokenFamilies.find fid = some f' ∧
      (f' = f ∨ ∃ id, f' = f.revokeIn id) := by
    cases hmoved with
    | arrive | idle => exact ⟨f, hf, Or.inl rfl⟩
    | outside c persist | advance i persist q ph c =>
      have hstep := familyStep persist m.shared fid c
      generalize (answer persist m.shared c).1 = a at hstep he
      generalize (answer persist m.shared c).2.tokenFamilies.find fid = found at hstep ⊢
      cases hstep with
      | kept => exact ⟨f, hf, Or.inl rfl⟩
      | created hid hmissing =>
        rw [hmissing] at hf
        cases hf
      | rotated hid =>
        rw [acceptedRotation, if_pos hid] at he
        cases he
      | revoked hg =>
        rw [hf] at hg
        cases hg
        exact ⟨_, rfl, Or.inr ⟨_, rfl⟩⟩
  refine ⟨?_, hrots ▸ hm.nodup, ?_, fun i q ph => hm.sound_moved hmoved⟩
  · rw [hrots]
    rcases hstored with ⟨f', hf', rfl | ⟨id, rfl⟩⟩
    · exact ⟨f', hf', hcont, hexpires, hhashes⟩
    · exact ⟨_, hf', hcont.revokeIn id, hexpires, hhashes⟩
  · rw [hrots]
    exact fun r => hm.drawn_moved hmoved

variable (hsha : Function.Injective st.sha256Base64url)
include hsha

theorem Lineage.fresh (hfresh : FreshJtis st f₀ (m.jobs.map Prod.fst))
    (hjob : m.jobs[i]? = some (.refreshToken q, ph)) (hpending : ph.isPending = true) :
    st.sha256Base64url q.run.refreshJti ∉ installedHashes f₀ (rotations fid h) := by
  have hreq {j : Nat} {r : RefreshRun} {ph : RefreshPhase}
      (hj : m.jobs[j]? = some (.refreshToken r, ph)) :
      (m.jobs.map Prod.fst)[j]? = some (.refreshToken r) := by
    rw [List.getElem?_map, hj]
    rfl
  intro hmem
  rcases List.mem_cons.mp hmem with heq | hmem
  · exact hfresh.unused q (List.mem_of_getElem? (hreq hjob)) heq
  · obtain ⟨r, hr, heq⟩ := List.mem_map.mp hmem
    obtain ⟨-, j, q', ph', hjob', hdone, hhash⟩ := hm.drawn r hr
    have hjti : q.run.refreshJti = q'.run.refreshJti := hsha (heq.symm.trans hhash)
    have hij : i = j := hfresh.distinct i j q q' (hreq hjob) (hreq hjob') hjti
    rw [hij, hjob'] at hjob
    cases hjob
    rw [hdone] at hpending
    cases hpending

theorem Lineage.rotate (hfresh : FreshJtis st f₀ (m.jobs.map Prod.fst)) {g : TokenFamily}
    (hjob : m.jobs[i]? = some (.refreshToken q, .current p f)) (hid : f.id = fid)
    (he : acceptedRotation fid e.reply = some (rotationOf st q p f))
    (hg : m.shared.tokenFamilies.find fid = some g)
    (hhash : g.currentRefreshHash = st.sha256Base64url p.jti)
    (hstored : m'.shared.tokenFamilies.find fid =
      some (g.withRefresh (rotationOf st q p f).refresh))
    (hmoved : Moved (familyProtocol st) familyStart answer m e m')
    (hdone : m'.jobs[i]? = some (.refreshToken q, .rotated p f)) :
    Lineage st fid f₀ (h ++ [e]) m' := by
  have hrots : rotations fid (h ++ [e]) = rotations fid h ++ [rotationOf st q p f] := by
    rw [rotations_snoc, he]
    rfl
  have hcopy : Copied st fid f₀ q p f := (hm.sound i q _ hjob).1
  have hdeadline : (rotationOf st q p f).refreshExpiresAt = refreshDeadline st f₀ :=
    (hcopy.continues hid).deadline
  obtain ⟨g', hg', hcont, -, hhashes⟩ := hm.stored
  rw [hg] at hg'
  cases hg'
  refine ⟨⟨_, hstored, hcont.withRefresh (congrArg some hdeadline), ?_, ?_⟩, ?_, ?_,
    fun i q ph => hm.sound_moved hmoved⟩
  · rw [hrots, if_neg (by simp)]
    exact congrArg some hdeadline
  · rw [hrots, installedHashes, List.map_append, List.map_append]
    rw [hhash] at hhashes
    show (_ ++ [st.sha256Base64url p.jti]) ++ _ = _
    rw [hhashes]
    rfl
  · rw [hrots, installedHashes, List.map_append, ← List.cons_append, List.nodup_append]
    refine ⟨hm.nodup, List.nodup_singleton _, ?_⟩
    intro x hx y hy hxy
    have hnew := hm.fresh hsha hfresh hjob rfl
    rw [List.map_singleton, List.mem_singleton] at hy
    rw [hxy, hy] at hx
    exact hnew hx
  · rw [hrots]
    intro r hr
    rcases List.mem_append.mp hr with hr | hr
    · exact hm.drawn_moved hmoved hr
    · rw [List.mem_singleton] at hr
      subst hr
      exact ⟨hdeadline, i, q, _, hdone, rfl, rfl⟩

theorem Lineage.moved (hfresh : FreshJtis st f₀ (m'.jobs.map Prod.fst)) (hproper : e.Proper)
    (hmoved : Moved (familyProtocol st) familyStart answer m e m') :
    Lineage st fid f₀ (h ++ [e]) m' := by
  rw [hmoved.requests] at hfresh
  have hbefore := hfresh.of_append
  cases he : acceptedRotation fid e.reply with
  | none => exact hm.kept he hmoved
  | some r =>
    have hstep := hmoved
    cases hmoved with
    | arrive | idle => cases he
    | outside c persist =>
      have hc := call_of_acceptedRotation he
      exact absurd (congrArg (Act.outside · persist) hc) (hproper r persist)
    | advance i persist q ph c hjob hcall =>
      have hc := call_of_acceptedRotation he
      subst hc
      cases q with
      | refreshToken q =>
        cases hcall with
        | @rotate p f =>
          have hfamily := familyStep persist m.shared fid
            (.updateTokenFamilyRefreshHash (rotationOf st q p f))
          generalize (answer persist m.shared _).1 = a at hfamily hstep he ⊢
          generalize (answer persist m.shared _).2 = s at hfamily hstep ⊢
          generalize hfound : s.tokenFamilies.find fid = found at hfamily
          cases hfamily with
          | kept hnone =>
            rw [hnone] at he
            cases he
          | @rotated _ g hid hg hrevoked hhash =>
            refine hm.rotate hsha hbefore hjob hid he hg hhash hfound hstep ?_
            exact List.getElem?_set_self (List.getElem?_eq_some_iff.mp hjob).1
      | _ => cases hcall

end Qid.OAuth
