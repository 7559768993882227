/-
Containment of a stolen refresh token.

A refresh that presents a token which has already been rotated revokes the family before it returns,
and a refresh that starts later never holds a copy of it that passed the checks.
-/
import Qid.Lib.Claim
import Qid.OAuth.RefreshRuns

namespace Qid.OAuth

open Lib Lib.Service Models Storage

variable {m' m : Served Store Request RefreshPhase} {e : StoreEvent} {f : TokenFamily}
  {ph : RefreshPhase} {n : Nat} {start s : Store} {acts acts' : List Act} {c : Call}

def FamilyRevoked (fid : String) (s : Store) : Prop :=
  ∃ f, s.tokenFamilies.find fid = some f ∧ f.revoked = true

variable {fid : String}

theorem FamilyRevoked.answer (h : FamilyRevoked fid s) (persist : Persist) (c : Call) :
    FamilyRevoked fid (answer persist s c).2 := by
  obtain ⟨f, hf, hrevoked⟩ := h
  have hstep := familyStep persist s fid c
  show ∃ f, (OAuth.answer persist s c).2.tokenFamilies.find fid = some f ∧ f.revoked = true
  generalize (OAuth.answer persist s c).1 = a at hstep
  generalize (OAuth.answer persist s c).2.tokenFamilies.find fid = found at hstep ⊢
  cases hstep with
  | kept => exact ⟨f, hf, hrevoked⟩
  | created hid hnone =>
    rw [hnone] at hf
    cases hf
  | rotated hid hg hlive =>
    rw [hg] at hf
    cases hf
    rw [hlive] at hrevoked
    cases hrevoked
  | @revoked g realmId a hg =>
    rw [hg] at hf
    cases hf
    refine ⟨_, rfl, ?_⟩
    show (f.revoked || f.realmId == realmId) = true
    rw [hrevoked, Bool.true_or]

theorem FamilyRevoked.moved {P : Request → Protocol RefreshPhase Call Call.Answer}
    {start : Request → RefreshPhase} (h : FamilyRevoked fid m.shared)
    (hmoved : Moved P start OAuth.answer m e m') : FamilyRevoked fid m'.shared :=
  hmoved.flagged (fun persist _ c hs => hs.answer persist c) h

variable {q : RefreshRun}

section

variable (st : SharedState) (fid : String) (f₀ : TokenFamily)

/-- The owner presents a token that one of the rotations has redeemed, before the family
expires. -/
structure Reuse (rots : List Token.Rotation) (q : RefreshRun) (p : Presented) : Prop where
  presented : presentedToken st q = .ok p
  owned : f₀.OwnedBy q.client
  unexpired : q.run.now < refreshDeadline st f₀
  redeemed : ∃ r ∈ rots, r.expectedRefreshHash = st.sha256Base64url p.jti

def SessionActive (q : RefreshRun) (s : Store) : Prop :=
  ∀ id, f₀.sessionId = some id → sessionLive q f₀ (s.directory.sessions.find id) = true

def CaughtPhase (jti : String) (s : Store) : RefreshPhase → Prop
  | .start => True
  | .session _ f => f.id = fid ∧ f.currentRefreshHash ≠ st.sha256Base64url jti
  | .reuse _ f => f.id = fid
  | .contained | .refused => FamilyRevoked fid s
  | _ => False

variable {st fid f₀} {h : List StoreEvent} {p : Presented}

theorem Reuse.mono {rots : List Token.Rotation} (hreuse : Reuse st f₀ rots q p)
    (rots' : List Token.Rotation) : Reuse st f₀ (rots ++ rots') q p := by
  obtain ⟨r, hr, hexpected⟩ := hreuse.redeemed
  exact ⟨hreuse.presented, hreuse.owned, hreuse.unexpired, r, List.mem_append_left _ hr, hexpected⟩

theorem caught_afterSession (hid : f.id = fid)
    (hhash : f.currentRefreshHash ≠ st.sha256Base64url p.jti) :
    CaughtPhase st fid p.jti s (afterSession st p f) := by
  rw [afterSession, if_neg hhash]
  exact hid

section

variable (hm : Lineage st fid f₀ h m) (hreuse : Reuse st f₀ (rotations fid h) q p)
  (hfamily : p.familyId = fid)
include hm hreuse hfamily

/-- The copy that the refresh reads shows the reuse, or that the family is revoked. -/
theorem Lineage.caught_afterRead :
    CaughtPhase st fid p.jti m.shared
      (afterRead st q p (m.shared.tokenFamilies.find p.familyId)) := by
  obtain ⟨f, hf, hcont, -⟩ := hm.stored
  rw [hfamily, afterRead, hf]
  cases hcheck : checkFamily st q (some f) with
  | error =>
    refine ⟨f, hf, ?_⟩
    by_contra hrevoked
    have hlive : q.run.now < refreshDeadline st f := by
      rw [hcont.deadline]
      exact hreuse.unexpired
    have hok := checkFamily_eq_ok.mpr
      ⟨rfl, (hcont.ownedBy q.client).mpr hreuse.owned, Bool.not_eq_true _ ▸ hrevoked, hlive⟩
    rw [hok] at hcheck
    cases hcheck
  | ok f' =>
    have hff : f = f' := Option.some.inj (checkFamily_eq_ok.mp hcheck).1
    subst hff
    have hid : f.id = fid := family_id_of_find hf
    have hhash : f.currentRefreshHash ≠ st.sha256Base64url p.jti := by
      -- the token has been redeemed, so it is not the current one
      obtain ⟨r, hr, hexpected⟩ := hreuse.redeemed
      obtain ⟨-, -, hdisjoint⟩ := List.nodup_append.mp (hm.expected_nodup hf)
      intro heq
      exact hdisjoint _ (List.mem_map_of_mem hr) _ (List.mem_singleton_self _)
        (hexpected.trans heq.symm)
    dsimp only
    split
    · exact ⟨hid, hhash⟩
    · exact caught_afterSession hid hhash

theorem Lineage.caught_next (hsession : SessionActive f₀ q m.shared) {i : Nat}
    (hjob : m.jobs[i]? = some (.refreshToken q, ph)) (hcall : RefreshCall st q ph c)
    (hph : CaughtPhase st fid p.jti m.shared ph) (persist : Persist) :
    CaughtPhase st fid p.jti (answer persist m.shared c).2
      (refreshNext st q ph c (answer persist m.shared c).1) := by
  have hsound := hm.sound i q ph hjob
  have hsame {p' : Presented} (hp' : presentedToken st q = .ok p') : p' = p := by
    have hp := hreuse.presented
    rw [hp'] at hp
    cases hp
    rfl
  cases hcall with
  | @read p' hp' =>
    have hpp := hsame hp'
    subst hpp
    show CaughtPhase st fid _ m.shared (readPhase st q _)
    rw [readPhase_eq hp']
    exact hm.caught_afterRead hreuse hfamily
  | @session p' f id hid =>
    have hcopy : Copied st fid f₀ q p' f := hsound
    have hpp := hsame hcopy.presented
    subst hpp
    have hgrant := (hcopy.continues hph.1).grant
    have hlive : sessionLive q f (m.shared.directory.sessions.find id) = true := by
      rw [hgrant] at hid ⊢
      exact hsession id hid
    show CaughtPhase st fid _ m.shared
      (if sessionLive q f (m.shared.directory.sessions.find id) then _ else _)
    rw [if_pos hlive]
    exact caught_afterSession hph.1 hph.2
  | @revoke p' f =>
    have hcopy : Copied st fid f₀ q p' f := hsound
    have hid : f.id = fid := hph
    obtain ⟨g, hg, hcont, -⟩ := hm.stored
    have hrealm : f.realmId = g.realmId := by rw [(hcopy.continues hid).grant, hcont.grant]
    rw [hid, hrealm]
    show FamilyRevoked fid (m.shared.revokeTokenFamily persist fid g.realmId).2
    rw [Store.revokeTokenFamily, hg]
    refine ⟨g.revokeIn g.realmId, ?_, ?_⟩
    · have hkey : fid = (g.revokeIn g.realmId).id := (family_id_of_find hg).symm
      rw [Table.find_put, if_pos hkey]
    · show (g.revoked || g.realmId == g.realmId) = true
      rw [beq_self_eq_true, Bool.or_true]
  | _ => exact hph.elim

end

def Caught (st : SharedState) (fid : String) (n : Nat) (q : RefreshRun) (p : Presented)
    (m : Served Store Request RefreshPhase) : Prop :=
  ∃ ph, m.jobs[n]? = some (.refreshToken q, ph) ∧ CaughtPhase st fid p.jti m.shared ph

theorem Followed.track_caught (hsha : Function.Injective st.sha256Base64url)
    (hm : Followed st fid f₀ start acts m) (hacts : Admissible st f₀ (acts ++ acts'))
    (hreuse : Reuse st f₀ (rotations fid (trace st (opened start) acts)) q p)
    (hfamily : p.familyId = fid) (hcaught : Caught st fid n q p m)
    (hsession : ∀ e ∈ trace st (final (step st) (opened start) acts) acts',
      SessionActive f₀ q e.before) :
    ∃ m', Followed st fid f₀ start (acts ++ acts') m' ∧ Caught st fid n q p m' := by
  obtain ⟨m', hm', hcaught'⟩ := hm.track hsha hacts
    (J := fun x m => (∀ e ∈ x, SessionActive f₀ q e.before) → Caught st fid n q p m)
    (fun _ => hcaught) fun x m e m' hm hJ hmoved hactive => by
      have hbefore := hactive e List.mem_append_cons_self
      rw [hmoved.before] at hbefore
      obtain ⟨ph, hjob, hph⟩ := hJ fun e' he' => hactive e' (List.mem_append_left _ he')
      rcases hmoved.job hjob with hjob' | ⟨persist, c, hcall, hshared, hjob'⟩
      · refine ⟨ph, hjob', ?_⟩
        cases ph with
        | contained | refused => exact FamilyRevoked.moved hph hmoved
        | _ => exact hph
      · refine ⟨_, hjob', ?_⟩
        rw [hshared]
        refine hm.caught_next ?_ hfamily hbefore hjob hcall hph persist
        rw [rotations_append]
        exact hreuse.mono _
  exact ⟨m', hm', hcaught' hsession⟩

theorem Caught.revoked {w : Endpoint} (hcaught : Caught st fid n q p m)
    (hp : presentedToken st q = .ok p)
    (hw : Reached (familyProtocol st) (familyReturns st) w m) {res : QidResult Response}
    (hret : w.threads[n]? = some (.ret res)) : FamilyRevoked fid m.shared := by
  obtain ⟨ph, hjob, hph⟩ := hcaught
  have hlead : familyReturns st (.refreshToken q) ph res := hw.leads n _ _ hret hjob
  have hreturns : ∃ r, refreshReturns st q ph r := by
    cases res with
    | error => exact ⟨_, hlead⟩
    | ok resp =>
      cases resp with
      | tokens => exact ⟨_, hlead⟩
      | approved => exact hlead.elim
  obtain ⟨r, hr⟩ := hreturns
  cases ph with
  | contained | refused => exact hph
  | start =>
    obtain ⟨e, he, -⟩ := hr
    rw [hp] at he
    cases he
  | session p' f | reuse p' f => exact hr.elim
  | _ => exact hph.elim

end

def RefreshPhase.copy : RefreshPhase → Option TokenFamily
  | .session _ f | .current _ f | .reuse _ f | .rotated _ f | .issued _ f => some f
  | _ => none

/-- The refresh holds no copy of the family. -/
def Uninvolved (fid : String) (ph : RefreshPhase) : Prop := ∀ f, ph.copy = some f → f.id ≠ fid

variable {st : SharedState}

theorem uninvolved_of_copy_none (h : ph.copy = none) : Uninvolved fid ph := by
  intro f hf
  rw [h] at hf
  cases hf

theorem copy_afterSession (p : Presented) (f : TokenFamily) :
    (afterSession st p f).copy = some f := by
  rw [afterSession]
  split <;> rfl

/-- The copy of a revoked family does not pass the checks. -/
theorem uninvolved_afterRead (hrevoked : FamilyRevoked fid s) (p : Presented) :
    Uninvolved fid (afterRead st q p (s.tokenFamilies.find p.familyId)) := by
  rw [afterRead]
  cases hcheck : checkFamily st q (s.tokenFamilies.find p.familyId) with
  | error => exact uninvolved_of_copy_none rfl
  | ok f =>
    obtain ⟨hfind, -, hlive, -⟩ := checkFamily_eq_ok.mp hcheck
    have hid : f.id ≠ fid := by
      intro hid
      obtain ⟨g, hg, hr⟩ := hrevoked
      have hkey : f.id = p.familyId := family_id_of_find hfind
      rw [← hid, hkey, hfind] at hg
      cases hg
      rw [hlive] at hr
      cases hr
    have hcopy : (if f.sessionId.isSome then RefreshPhase.session p f
        else afterSession st p f).copy = some f := by
      split
      · rfl
      · exact copy_afterSession p f
    intro f' hf'
    rw [hcopy] at hf'
    cases hf'
    exact hid

/-- A refresh that holds no copy of a revoked family never comes to hold one. -/
theorem Uninvolved.next (hrevoked : FamilyRevoked fid s) (hph : Uninvolved fid ph)
    (hcall : RefreshCall st q ph c) (persist : Persist) :
    Uninvolved fid (refreshNext st q ph c (answer persist s c).1) := by
  cases hcall with
  | @read p hp =>
    show Uninvolved fid (readPhase st q _)
    rw [readPhase_eq hp]
    exact uninvolved_afterRead hrevoked p
  | @session p f id hid =>
    show Uninvolved fid
      (if sessionLive q f (s.directory.sessions.find id) then afterSession st p f else .refused)
    split
    · exact fun f' hf => hph f' ((copy_afterSession p f).symm.trans hf)
    · exact uninvolved_of_copy_none rfl
  | user id | client realmId clientId => exact hph
  | revoke => exact uninvolved_of_copy_none rfl
  | create =>
    generalize (answer persist s _).1 = a
    cases a with
    | ok => exact hph
    | error => exact uninvolved_of_copy_none rfl
  | rotate =>
    generalize (answer persist s _).1 = a
    cases a with
    | ok u => exact hph
    | error e =>
      cases e with
      | conflict => exact hph
      | _ => exact uninvolved_of_copy_none rfl

/-- The family is revoked, and no request from the `n`-th on holds a copy of it. -/
structure ShutOut (fid : String) (n : Nat) (m : Served Store Request RefreshPhase) : Prop where
  revoked : FamilyRevoked fid m.shared
  uninvolved : ∀ (i : Nat) (q : RefreshRun) (ph : RefreshPhase), n ≤ i →
    m.jobs[i]? = some (.refreshToken q, ph) → Uninvolved fid ph

theorem ShutOut.moved (hm : ShutOut fid n m)
    (hmoved : Moved (familyProtocol st) familyStart answer m e m') : ShutOut fid n m' := by
  refine ⟨hm.revoked.moved hmoved, fun k q ph hn hk => ?_⟩
  rcases hmoved.of_job hk with hk | ⟨hstart, -⟩ | ⟨ph₀, persist, c, hk, hcall, -, hnext⟩
  · exact hm.uninvolved k q ph hn hk
  · rw [hstart]
    exact uninvolved_of_copy_none rfl
  · rw [hnext]
    exact (hm.uninvolved k q ph₀ hn hk).next hm.revoked hcall persist

end Qid.OAuth
