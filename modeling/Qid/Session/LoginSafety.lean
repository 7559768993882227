/-
Failed logins under concurrency.

A login writes back the copy of the user it has read, with the failure added.
-/
import Qid.Session.LoginTrail

namespace Qid.Session

open Lib Lib.Service Storage

variable {u : Models.User} {i : Nat} {env : Env} {h : List StoreEvent} {e : StoreEvent}

section

variable (st : SharedState) (s : Store) (id : String) (u₀ : Models.User) {k : Nat} {q : LoginRun}
  {c : Call} {u' v : Models.User} {ph : LoginPhase} (m : Served Store Request LoginPhase)

def RecordedBy (i : Nat) : Prop := ∃ q u, m.jobs[i]? = some (.login q, .recorded u) ∧ u.id = id

def NoneCleared : Prop :=
  ∀ (i : Nat) (q : LoginRun) (u : Models.User), m.jobs[i]? = some (.login q, .cleared u) → u.id ≠ id

abbrev accountPolicy : PasswordPolicy := (st.authenticator u₀.realmId).policy

/-- The stored user counts every failure that was stored. -/
structure Counts (m : Served Store Request LoginPhase) (u : Models.User) : Prop where
  stored : m.shared.users.find id = some u
  below : u.failedLoginAttempts = u₀.failedLoginAttempts ∨
    u.failedLoginAttempts < (accountPolicy st u₀).maxFailedAttempts
  counted : ∀ is : List Nat, is.Nodup → (∀ i ∈ is, RecordedBy id m i) →
    u₀.failedLoginAttempts + is.length ≤ u.failedLoginAttempts

variable {st s id u₀} {m m' : Served Store Request LoginPhase}

theorem NoneCleared.of_moved (hmoved : Moved (loginProtocol st) loginStart answer m e m')
    (hm' : NoneCleared id m') : NoneCleared id m := by
  intro i q u hjob
  rcases hmoved.job hjob with hjob' | ⟨env, c, hcall, -, -⟩
  · exact hm' i q u hjob'
  · cases hcall

/-- Only the request that moves can come to be counted. -/
theorem RecordedBy.of_moved (hmoved : Moved (loginProtocol st) loginStart answer m e m')
    (hi : RecordedBy id m' i) : RecordedBy id m i ∨ ∃ env, e.call = .advance i env := by
  obtain ⟨q, u, hjob, hid⟩ := hi
  rcases hmoved.of_job hjob with hold | ⟨hnew, -⟩ | ⟨ph, env, c, hold, hcall, he, hnext⟩
  · exact Or.inl ⟨q, u, hold, hid⟩
  · cases hnew
  · exact Or.inr ⟨env, by rw [he]⟩

theorem Counts.same (hm : Counts st id u₀ m u) (hu' : m'.shared.users.find id = some u')
    (hcount : u'.failedLoginAttempts = u.failedLoginAttempts)
    (hrecorded : ∀ i, RecordedBy id m' i → RecordedBy id m i) : Counts st id u₀ m' u' := by
  refine ⟨hu', hcount ▸ hm.below, fun is hnodup his => ?_⟩
  rw [hcount]
  exact hm.counted is hnodup fun i hi => hrecorded i (his i hi)

theorem Counts.succ (hm : Counts st id u₀ m u) (hu' : m'.shared.users.find id = some u')
    (hcount : u'.failedLoginAttempts = u.failedLoginAttempts + 1)
    (hbelow : u'.failedLoginAttempts < (accountPolicy st u₀).maxFailedAttempts)
    (hrecorded : ∀ i, RecordedBy id m' i → i = k ∨ RecordedBy id m i) : Counts st id u₀ m' u' := by
  refine ⟨hu', Or.inr hbelow, fun is hnodup his => ?_⟩
  have hrest := hm.counted (is.erase k) (hnodup.erase k) fun i hi => by
    have hne : i ≠ k := fun heq => (hnodup.not_mem_erase (heq ▸ hi))
    exact (hrecorded i (his i (List.mem_of_mem_erase hi))).resolve_left hne
  have hlength : is.length ≤ (is.erase k).length + 1 := by
    rw [List.length_erase]
    split <;> omega
  omega

/-- A login that neither stores a failure of the user nor clears them leaves the user alone, as
long as there is no lock. -/
theorem LoginTrail.find_advance (hm : LoginTrail s id u₀ h m)
    (hjob : m.jobs[k]? = some (.login q, ph))
    (hcall : LoginCalls (st.authenticator q.realmId) q ph c) (hu : m.shared.users.find id = some u)
    (hlock : NoLock s h id) (hsaved : env.persist = .done)
    (hclear : ∀ u', loginNext (st.authenticator q.realmId) q ph c (answer env m.shared c).1 =
      .cleared u' → u'.id ≠ id) (hwrong : ∀ u', ph = .wrong u' → u'.id ≠ id) :
    (answer env m.shared c).2.users.find id = some u := by
  rcases find_answer env hu c with hsame | ⟨v, realm, rfl, hid, hresult, -⟩
  · exact hsame
  cases hcall with
  | release hlocked =>
    rw [(hm.copies k q _ _ hjob rfl).unlocked hlock hid] at hlocked
    cases hlocked
  | @record u' => exact absurd hid (hwrong u' rfl)
  | @clear u' =>
    refine absurd hid (hclear u' ?_)
    show loginNext _ q (.right u') (.updateUser (cleared u') (some q.realmId))
      (m.shared.updateUser env.persist (cleared u') (some q.realmId)).1 = _
    rw [hresult, hsaved]
    rfl

theorem LoginTrail.count_record (hm : LoginTrail s id u₀ h m)
    (hjob : m.jobs[k]? = some (.login q, .wrong v)) (hv : v.id = id) (hc : Counts st id u₀ m u)
    (hfits : u₀.failedLoginAttempts + 1 < 2 ^ 32) (hlock : NoLock s h id)
    (hcurrent : IsCurrent m.shared v) {res : QidResult Unit × Store}
    (hres : answer env m.shared (.updateUser ((st.authenticator q.realmId).policy.failed q.now v)
      (some q.realmId)) = res) (hafter : Unlocked res.2 id) :
    ((∃ error, res.1 = .error error) ∧ res.2.users.find id = some u) ∨
      ∃ u', res.2.users.find id = some u' ∧
        u'.failedLoginAttempts = u.failedLoginAttempts + 1 ∧
        u'.failedLoginAttempts < (accountPolicy st u₀).maxFailedAttempts := by
  subst hres
  have hheld := hm.copies k q _ v hjob rfl
  have hfree : v.lockedUntil = none := hheld.unlocked hlock hv
  have hstored : m.shared.users.find id = some v :=
    hv ▸ hcurrent.resolve_right fun hold => hold.1 hfree
  have hsame : u = v := Option.some.inj (hc.stored.symm.trans hstored)
  subst hsame
  have hrealm : q.realmId = u₀.realmId := hheld.realm.symm.trans (hheld.account hv)
  rw [hrealm] at hafter ⊢
  have hlt := (accountPolicy st u₀).attempts_lt
  have hbelow := hc.below
  have hmod : (u.failedLoginAttempts + 1) % 2 ^ 32 = u.failedLoginAttempts + 1 :=
    Nat.mod_eq_of_lt (by omega)
  rcases find_updateUser env.persist hc.stored ((accountPolicy st u₀).failed q.now u)
    (some u₀.realmId) with ⟨e', hrefused, -⟩ | ⟨-, hwrite⟩
  · refine Or.inl ⟨⟨e', congrArg Prod.fst hrefused⟩, ?_⟩
    show (m.shared.updateUser env.persist _ _).2.users.find id = _
    rw [hrefused]
    exact hc.stored
  · have hid : ((accountPolicy st u₀).failed q.now u).id = id := hv
    rw [if_pos hid] at hwrite
    refine Or.inr ⟨_, hwrite, hmod, Nat.lt_of_not_le fun hreached => ?_⟩
    exact Option.some_ne_none _ ((if_pos hreached).symm.trans (hafter _ hwrite))

variable (hm : LoginTrail s id u₀ h m) (hc : Counts st id u₀ m u)
  (hfits : u₀.failedLoginAttempts + 1 < 2 ^ 32)
include hm hc hfits

theorem Counts.login (hlock : NoLock s h id) (hjob : m.jobs[k]? = some (.login q, ph))
    (hcall : LoginCalls (st.authenticator q.realmId) q ph c) (hsaved : env.persist = .done)
    (hcurrent : ∀ v realm, c = .updateUser v realm → v.id = id → ∀ u', ReadBy h k u' → IsCurrent
      m.shared u') (hafter : Unlocked (answer env m.shared c).2 id)
    (hshared : m'.shared = (answer env m.shared c).2)
    (hnext : m'.jobs[k]? = some (.login q, loginNext (st.authenticator q.realmId) q ph c (answer env
      m.shared c).1)) (hnone : NoneCleared id m')
    (hrecorded : ∀ i, RecordedBy id m' i → RecordedBy id m i ∨ i = k) :
    ∃ u', Counts st id u₀ m' u' := by
  have hmove := loginMove hcall (answer env m.shared c).1
  by_cases hwrong : ∃ v, ph = .wrong v ∧ v.id = id
  · obtain ⟨v, rfl, hv⟩ := hwrong
    cases hcall with
    | record =>
      have hread := (hm.copies k q _ v hjob rfl).read
      rcases hm.count_record hjob hv hc hfits hlock (hcurrent _ _ rfl hv v hread) rfl hafter with
        ⟨⟨error, hfailed⟩, hsame⟩ | ⟨u', hu', hcount, hbelow⟩
      · refine ⟨u, hc.same (hshared ▸ hsame) rfl fun i hi => ?_⟩
        refine (hrecorded i hi).resolve_right fun hik => ?_
        obtain ⟨q', v', hjob', -⟩ := hi
        rw [hik, hnext, hfailed] at hjob'
        cases hjob'
      · exact ⟨u', hc.succ (hshared ▸ hu') hcount hbelow fun i hi => (hrecorded i hi).symm⟩
  · have hsame := hm.find_advance hjob hcall hc.stored hlock hsaved
      (fun u' hclear => hnone k q u' (hclear ▸ hnext)) fun v hph hv => hwrong ⟨v, hph, hv⟩
    refine ⟨u, hc.same (hshared ▸ hsame) rfl fun i hi => ?_⟩
    refine (hrecorded i hi).resolve_right fun hik => ?_
    obtain ⟨q', v, hjob', hv⟩ := hi
    rw [hik, hnext] at hjob'
    injection hjob' with hjob'
    rw [Prod.mk.injEq] at hjob'
    rw [hjob'.2] at hmove
    exact hwrong ⟨v, wrong_of_move hmove, hv⟩

theorem Counts.moved (hregular : Regular (h ++ [e]) id) (hlock : NoLock s (h ++ [e]) id)
    (hmoved : Moved (loginProtocol st) loginStart answer m e m') (hnone : NoneCleared id m') :
    ∃ u', Counts st id u₀ m' u' := by
  have hmem : e ∈ h ++ [e] := List.mem_append_right h List.mem_cons_self
  have hrecorded := fun i (hi : RecordedBy id m' i) => hi.of_moved hmoved
  have hsaved := hregular.saved e hmem
  have hedits := hregular.edits e hmem
  have hundisturbed := hregular.undisturbed e hmem
  have hlast := hlock.last
  cases hmoved with
  | idle => exact ⟨u, hc⟩
  | arrive =>
    refine ⟨u, hc.same hc.stored rfl fun i hi => (hrecorded i hi).resolve_right ?_⟩
    rintro ⟨env, hadvance⟩
    cases hadvance
  | outside c env =>
    have hkept : ∃ u', (answer env m.shared c).2.users.find id = some u' ∧
        u'.failedLoginAttempts = u.failedLoginAttempts := by
      rcases find_answer env hc.stored c with hsame | ⟨v, realm, heq, hid, -, hwrite⟩
      · exact ⟨u, hsame, rfl⟩
      · exact ⟨_, hwrite, (hedits v (by rw [heq]; rfl) hid u hc.stored).1⟩
    obtain ⟨u', hu', hcount⟩ := hkept
    refine ⟨u', hc.same hu' hcount fun i hi => (hrecorded i hi).resolve_right ?_⟩
    rintro ⟨env', hadvance⟩
    cases hadvance
  | advance k env req ph c hjob hcall =>
    have hsame : ∀ i, (∃ env', (.advance k env : Act) = .advance i env') → i = k := by
      rintro i ⟨env', hadvance⟩
      cases hadvance
      rfl
    have hmine := fun i hi => (hrecorded i hi).imp_right (hsame i)
    have hlt : k < m.jobs.length := (List.getElem?_eq_some_iff.mp hjob).1
    have hother : c.ofLogin = false → (∀ q, req ≠ .login q) →
        ∃ u', Counts st id u₀
          { shared := (answer env m.shared c).2
            jobs := m.jobs.set k (req, (loginProtocol st req).next ph c
              (answer env m.shared c).1) } u' := by
      intro hc' hreq
      have hsame : (answer env m.shared c).2.users.find id = some u := by
        refine (find_answer env hc.stored c).resolve_right ?_
        rintro ⟨v, realm, rfl, -⟩
        cases hc'
      refine ⟨u, hc.same hsame rfl fun i hi => ?_⟩
      refine (hmine i hi).resolve_right fun hik => ?_
      obtain ⟨q, v, hjob', -⟩ := hi
      rw [hik, List.getElem?_set_self hlt] at hjob'
      injection hjob' with hjob'
      rw [Prod.mk.injEq] at hjob'
      exact hreq q hjob'.1
    cases req with
    | totpVerify q | totpAuthenticate q => exact hother hcall fun q' => Request.noConfusion
    | login =>
      refine hc.login hm hfits hlock.of_append hjob hcall hsaved ?_ hlast rfl
        (List.getElem?_set_self hlt) hnone hmine
      intro v realm heq hv u' hread
      refine hundisturbed k u' ?_ hread.mono
      rw [heq, ← hv]
      rfl

end

section

variable {st : SharedState} {s : Store} {id : String} {u₀ : Models.User}
  {m m' : Served Store Request LoginPhase}

/-- The step of a login that comes once a lock of the user is over. -/
def Releases (requests : List Request) (id : String) (e : StoreEvent) : Prop :=
  ∃ i env q u t, e.call = .advance i env ∧ requests[i]? = some (.login q) ∧
    e.before.users.find id = some u ∧ u.lockedUntil = some t ∧ t ≤ q.now

/-- A lock of the user is there still, or has been released. -/
def LockKept (s : Store) (id : String) (h : List StoreEvent)
    (m : Served Store Request LoginPhase) : Prop :=
  NoLock s h id ∨ ¬ Unlocked m.shared id ∨ ∃ e ∈ h, Releases (m.jobs.map Prod.fst) id e

theorem lockKept_opened (s : Store) (id : String) :
    LockKept s id [] { shared := s, jobs := [] } := by
  by_cases hfree : Unlocked s id
  · exact Or.inl ⟨hfree, fun e he => nomatch he⟩
  · exact Or.inr (Or.inl hfree)

variable (hm : LoginTrail s id u₀ h m) (hregular : Regular (h ++ [e]) id)
  (hmoved : Moved (loginProtocol st) loginStart answer m e m') (hnone : NoneCleared id m')
include hm hregular hmoved hnone

/-- Only a login that comes once the lock is over takes it away. -/
theorem LoginTrail.releases (hlocked : ¬ Unlocked m.shared id) (hafter : Unlocked m'.shared id) :
    Releases (m'.jobs.map Prod.fst) id e := by
  have hmem : e ∈ h ++ [e] := List.mem_append_right h List.mem_cons_self
  obtain ⟨u, hu, -⟩ := hm.stored
  have hlock : u.lockedUntil ≠ none := fun hfree => hlocked fun u' hu' => by
    cases hu.symm.trans hu'
    exact hfree
  have hsaved := hregular.saved e hmem
  have hedits := hregular.edits e hmem
  have hcurrent := hregular.undisturbed e hmem
  cases hmoved with
  | arrive | idle => exact absurd hafter hlocked
  | outside c env =>
    rcases find_answer env hu c with hsame | ⟨v, realm, rfl, hid, -, hwrite⟩
    · exact absurd (hafter u hsame) hlock
    · rw [← (hedits v rfl hid u hu).2] at hlock
      exact absurd (hafter _ hwrite) hlock
  | advance k env req ph c hjob hcall =>
    have hlt : k < m.jobs.length := (List.getElem?_eq_some_iff.mp hjob).1
    rcases find_answer env hu c with hsame | ⟨v, realm, rfl, rfl, hresult, hwrite⟩
    · exact absurd (hafter u hsame) hlock
    have hfree : v.lockedUntil = none := hafter { v with realmId := u.realmId } hwrite
    cases req with
    | totpVerify q | totpAuthenticate q => cases hcall
    | login q =>
      cases hcall with
      | @release u' t hlocked' hover =>
        have hread := (hm.copies k q _ u' hjob rfl).read
        rcases hcurrent k u' rfl hread.mono with hsame | ⟨-, hsame⟩
        · cases Option.some.inj (hu.symm.trans hsame)
          refine ⟨k, env, q, u, t, rfl, ?_, hu, hlocked', hover⟩
          rw [List.getElem?_map, List.getElem?_set_self hlt]
          rfl
        · cases Option.some.inj (hu.symm.trans hsame)
          exact absurd rfl hlock
      | @record u' =>
        have hfree' : u'.lockedUntil = none := by
          simp only [PasswordPolicy.failed] at hfree
          split at hfree
          · cases hfree
          · exact hfree
        have hread := (hm.copies k q _ u' hjob rfl).read
        have hstored := (hcurrent k u' rfl hread.mono).resolve_right fun h => h.1 hfree'
        cases Option.some.inj (hu.symm.trans hstored)
        exact absurd hfree' hlock
      | @clear u' =>
        refine absurd rfl (hnone k q u' ?_)
        rw [List.getElem?_set_self hlt]
        show some (_, loginNext _ q (.right u') (.updateUser (cleared u') (some q.realmId))
          (m.shared.updateUser env.persist (cleared u') (some q.realmId)).1) = _
        rw [hresult, hsaved]
        rfl

theorem LockKept.moved (hk : LockKept s id h m) : LockKept s id (h ++ [e]) m' := by
  by_cases hafter : Unlocked m'.shared id
  · rcases hk with hno | hlocked | ⟨e', he', i, env, q, u, t, hcall, hq, hrest⟩
    · refine Or.inl ⟨hno.1, fun e' he' => ?_⟩
      rcases List.mem_append.mp he' with hold | hnew
      · exact hno.2 e' hold
      · rw [List.mem_singleton.mp hnew, hmoved.after]
        exact hafter
    · exact Or.inr (Or.inr ⟨e, List.mem_append_right h List.mem_cons_self,
        hm.releases hregular hmoved hnone hlocked hafter⟩)
    · refine Or.inr (Or.inr ⟨e', List.mem_append_left _ he', i, env, q, u, t, hcall, ?_, hrest⟩)
      rw [hmoved.requests, List.getElem?_append_left (List.getElem?_eq_some_iff.mp hq).1]
      exact hq
  · exact Or.inr (Or.inl hafter)

end

section

variable (st : SharedState) (s : Store) (acts : List Act) (id : String) (u₀ : Models.User)
  {w : Endpoint}

structure LoginsCounted : Prop where
  /-- A request changes no field of the user but the counter and the lock. -/
  framed : ∀ e ∈ trace st (opened s) acts, ∀ i env u, e.call = .advance i env →
    e.before.users.find id = some u → ∃ n t, e.after.users.find id =
      some { u with failedLoginAttempts := n, lockedUntil := t }
  /-- No failure is lost. -/
  counted : NoSuccess (final (step st) (opened s) acts) id →
    NoLock s (trace st (opened s) acts) id → ∀ is : List Nat, is.Nodup →
    (∀ i ∈ is, WrongLogin (final (step st) (opened s) acts) (trace st (opened s) acts) id i) →
    ∃ u, (final (step st) (opened s) acts).shared.users.find id = some u ∧
      is.length ≤ u.failedLoginAttempts
  /-- As many failures as the policy allows lock the account, up to a login that comes once a
  lock is over. -/
  locked : NoSuccess (final (step st) (opened s) acts) id → ∀ is : List Nat, is.Nodup →
    (∀ i ∈ is, WrongLogin (final (step st) (opened s) acts) (trace st (opened s) acts) id i) →
    (accountPolicy st u₀).maxFailedAttempts ≤ is.length →
    ¬ NoLock s (trace st (opened s) acts) id ∧
      (¬ Unlocked (final (step st) (opened s) acts).shared id ∨
        ∃ e ∈ trace st (opened s) acts, Releases (arrivals acts) id e)

variable {st s acts id u₀} {m m' : Served Store Request LoginPhase}

structure Tracked (st : SharedState) (s : Store) (id : String) (u₀ : Models.User)
    (h : List StoreEvent) (m : Served Store Request LoginPhase) : Prop where
  trail : LoginTrail s id u₀ h m
  counts : Regular h id → NoLock s h id → NoneCleared id m → ∃ u, Counts st id u₀ m u
  lock : Regular h id → NoneCleared id m → LockKept s id h m

theorem Tracked.moved (hfits : u₀.failedLoginAttempts + 1 < 2 ^ 32) (hm : Tracked st s id u₀ h m)
    (hmoved : Moved (loginProtocol st) loginStart answer m e m') :
    Tracked st s id u₀ (h ++ [e]) m' := by
  refine ⟨hm.trail.moved hmoved, fun hregular hlock hnone => ?_, fun hregular hnone => ?_⟩
  · obtain ⟨u, hu⟩ := hm.counts hregular.of_append hlock.of_append (hnone.of_moved hmoved)
    exact hu.moved hm.trail hfits hregular hlock hmoved hnone
  · exact (hm.lock hregular.of_append (hnone.of_moved hmoved)).moved hm.trail hregular hmoved hnone

theorem tracked_opened (hu : s.users.find id = some u₀) :
    Tracked st s id u₀ [] { shared := s, jobs := [] } := by
  refine ⟨⟨⟨u₀, hu, rfl⟩, fun hl => hl.1, ?_, ?_, ?_⟩, fun _ _ _ => ⟨u₀, hu, Or.inl rfl, ?_⟩,
    fun _ _ => lockKept_opened s id⟩
  · intro i q ph u hjob
    cases hjob
  · intro i id' hchecked
    obtain ⟨e, he, -⟩ := hchecked
    cases he
  · intro i q u error hjob
    cases hjob
  · intro is _ his
    cases is with
    | nil => exact Nat.le_refl _
    | cons i =>
      obtain ⟨q, u, hjob, -⟩ := his i List.mem_cons_self
      cases hjob

theorem recordedBy_of_wrongLogin (hw : Reached (loginProtocol st) requestReturns w m)
    (hm : LoginTrail s id u₀ h m) (hi : WrongLogin w h id i) : RecordedBy id m i := by
  obtain ⟨hret, hchecked⟩ := hi
  obtain ⟨q, ph, hjob, hph⟩ := hm.checked i id hchecked
  have hreturns : loginReturns ph (.error (.unauthorized "invalid credentials")) :=
    hw.leads i _ _ hret hjob
  cases ph with
  | recorded u => exact ⟨q, u, hjob, Option.some.inj hph⟩
  | wrong => exact hreturns.elim
  | right => cases hreturns
  | cleared =>
    obtain ⟨r, hr, -⟩ := hreturns
    cases hr
  | broken u =>
    cases hreturns
    exact absurd rfl (hm.broken i q u _ hjob _)
  | _ => cases hph

theorem noneCleared_of_noSuccess (hw : Reached (loginProtocol st) requestReturns w m)
    (hnone : NoSuccess w id) : NoneCleared id m := by
  intro i q u hjob
  have hlt : i < w.threads.length := hw.length ▸ (List.getElem?_eq_some_iff.mp hjob).1
  have hthread : w.threads[i]? = some w.threads[i] := List.getElem?_eq_getElem hlt
  have hlead := hw.leads i _ _ hthread hjob
  generalize w.threads[i] = p at hthread hlead
  cases p with
  | call c =>
    have hcall : LoginCalls (st.authenticator q.realmId) q (.cleared u) c := hlead.1
    cases hcall
  | ret r =>
    cases r with
    | error e =>
      obtain ⟨x, hx, -⟩ := (hlead : loginReturns (.cleared u) (.error e))
      cases hx
    | ok resp =>
      cases resp with
      | authenticated r =>
        obtain ⟨x, hx, huser⟩ := (hlead : loginReturns (.cleared u) (.ok r))
        cases hx
        exact huser ▸ hnone i r hthread
      | _ => exact (hlead : False).elim

/-- A request that finds the record it has read changes only the counter and the lock. -/
theorem LoginTrail.framed (hm : LoginTrail s id u₀ h m)
    (hmoved : Moved (loginProtocol st) loginStart answer m e m')
    (hundisturbed : Undisturbed (h ++ [e]) id) (hadvance : e.call = .advance i env)
    (hu : e.before.users.find id = some u) :
    ∃ n t, e.after.users.find id = some { u with failedLoginAttempts := n, lockedUntil := t } := by
  have hcurrent := hundisturbed e (List.mem_append_right h List.mem_cons_self)
  cases hmoved with
  | arrive q | outside c env' => cases hadvance
  | idle => exact ⟨_, _, hu⟩
  | advance k env' req ph c hjob hcall =>
    rcases find_answer env' hu c with hsame | ⟨v, realm, rfl, hid, -, hwrite⟩
    · exact ⟨_, _, hsame⟩
    cases req with
    | totpVerify q | totpAuthenticate q => cases hcall
    | login q =>
      obtain ⟨copy, n, t, hcopy, rfl⟩ := write_of_copy hcall
      have hread := (hm.copies k q ph copy hjob hcopy).read
      have hstored := hcurrent k copy (by rw [← hid]; rfl) hread.mono
      subst hid
      rcases hstored with hsame | ⟨-, hsame⟩
      all_goals
        cases Option.some.inj (hu.symm.trans hsame)
        exact ⟨n, t, hwrite⟩

/-- In every run in which a login that writes the user finds the record it has read, no failed
login is lost and no other field is changed. -/
theorem failed_logins_counted (hu : s.users.find id = some u₀)
    (hfits : u₀.failedLoginAttempts + 1 < 2 ^ 32)
    (hregular : Regular (trace st (opened s) acts) id) : LoginsCounted st s acts id u₀ := by
  have hrun := track answer (login_serve st)
    (fun h m e m' hm hmoved => Tracked.moved hfits hm hmoved) (reached_opened s)
    (tracked_opened hu)
  obtain ⟨m, hw, hrequests, htrail, hcounts, hlockKept⟩ := hrun acts
  have hcount : NoSuccess (final (step st) (opened s) acts) id →
      NoLock s (trace st (opened s) acts) id → ∀ is : List Nat, is.Nodup →
      (∀ i ∈ is, WrongLogin (final (step st) (opened s) acts) (trace st (opened s) acts) id i) →
      ∃ u, Counts st id u₀ m u ∧ u₀.failedLoginAttempts + is.length ≤ u.failedLoginAttempts := by
    intro hnone hlock is hnodup his
    obtain ⟨u, hu⟩ := hcounts hregular hlock (noneCleared_of_noSuccess hw hnone)
    exact ⟨u, hu, hu.counted is hnodup fun i hi => recordedBy_of_wrongLogin hw htrail (his i hi)⟩
  refine ⟨?_, ?_, ?_⟩
  · intro e he i env u hadvance hbefore
    obtain ⟨pre, post, m₁, m₂, later, htrace, htracked, hmoved, -⟩ :=
      track_event answer (login_serve st) (fun acts₁ _ _ => hrun acts₁) he
    refine htracked.trail.framed hmoved ?_ hadvance hbefore
    have hsub : ∀ e' ∈ pre ++ [e], e' ∈ trace st (opened s) acts := by
      intro e' he'
      rw [trace, htrace, List.append_cons]
      exact List.mem_append_left post he'
    intro e' he' i' u' hwrite hread
    obtain ⟨e'', he'', hread⟩ := hread
    exact hregular.undisturbed e' (hsub e' he') i' u' hwrite ⟨e'', hsub e'' he'', hread⟩
  · intro hnone hlock is hnodup his
    obtain ⟨u, hc, hle⟩ := hcount hnone hlock is hnodup his
    refine ⟨u, hw.shared ▸ hc.stored, by omega⟩
  · intro hnone is hnodup his hmax
    have hlock : ¬ NoLock s (trace st (opened s) acts) id := by
      intro hlock
      obtain ⟨u, hc, hle⟩ := hcount hnone hlock is hnodup his
      have hpos := (accountPolicy st u₀).attempts_pos
      have hbelow := hc.below
      omega
    refine ⟨hlock, ?_⟩
    have hkept := (hlockKept hregular (noneCleared_of_noSuccess hw hnone)).resolve_left hlock
    rw [hw.shared, hrequests] at hkept
    exact hkept

end

def renamedUser (failures : Nat) : Models.User :=
  { sampleUser with displayName := some "Alice", failedLoginAttempts := failures }

/-- A name is added between two logins with a wrong password. -/
def loginsApart : List Act :=
  [.arrive (.login (sampleLogin 1 "guess")), savedStep 0, savedStep 0, savedStep 0,
    .outside (.updateUser (renamedUser 1) (some "main")) Env.saved,
    .arrive (.login (sampleLogin 2 "guess")), savedStep 1, savedStep 1, savedStep 1]

/-- The same logins, overlapping: both read the user before the name is added. -/
def loginsOverlapping : List Act :=
  [.arrive (.login (sampleLogin 1 "guess")), .arrive (.login (sampleLogin 2 "guess")),
    savedStep 0, savedStep 1, .outside (.updateUser (renamedUser 0) (some "main")) Env.saved,
    savedStep 0, savedStep 0, savedStep 1, savedStep 1]

theorem regular_loginsApart :
    Regular (trace sampleState (opened sampleStore) loginsApart) "u1" := by
  have hcurrent : ∀ e ∈ trace sampleState (opened sampleStore) loginsApart,
      ∀ e' ∈ trace sampleState (opened sampleStore) loginsApart,
      ∀ x ∈ writeOf e.call e.reply, ∀ y ∈ readOf e'.call e'.reply, x.1 = y.1 →
        IsCurrent e.before y.2 := by
    decide +kernel
  refine ⟨by decide +kernel, ?_, ?_⟩
  · unfold EditsOtherFields
    decide +kernel
  · intro e he i u hwrite hread
    obtain ⟨e', he', hread⟩ := hread
    exact hcurrent e he e' he' _ hwrite _ hread rfl

theorem failed_logins_counted_apart :
    LoginsCounted sampleState sampleStore loginsApart "u1" sampleUser ∧
      (final (step sampleState) (opened sampleStore) loginsApart).shared.users.find "u1" =
        some (renamedUser 2) := by
  refine ⟨failed_logins_counted ?_ ?_ regular_loginsApart, ?_⟩
  · decide +kernel
  · decide
  · decide +kernel

/-- The failure of the first login is lost, and so is the name. -/
theorem overlapping_logins_lose_writes :
    (∀ e ∈ trace sampleState (opened sampleStore) loginsOverlapping, Saved e.call) ∧
    EditsOtherFields (trace sampleState (opened sampleStore) loginsOverlapping) "u1" ∧
    (final (step sampleState) (opened sampleStore) loginsOverlapping).shared.users.find "u1" =
      some { sampleUser with failedLoginAttempts := 1 } ∧
    ¬ LoginsCounted sampleState sampleStore loginsOverlapping "u1" sampleUser := by
  have hstored : (final (step sampleState) (opened sampleStore)
      loginsOverlapping).shared.users.find "u1" =
        some { sampleUser with failedLoginAttempts := 1 } := by
    decide +kernel
  refine ⟨by decide +kernel, ?_, hstored, fun hcounted => ?_⟩
  · unfold EditsOtherFields
    decide +kernel
  · have hlock : NoLock sampleStore (trace sampleState (opened sampleStore) loginsOverlapping)
        "u1" := by
      unfold NoLock
      decide +kernel
    have hchecked : ∀ i ∈ [0, 1], CheckedBy
        (trace sampleState (opened sampleStore) loginsOverlapping) i "u1" := by
      unfold CheckedBy
      decide +kernel
    have hwrong : ∀ i ∈ [0, 1], WrongLogin (final (step sampleState) (opened sampleStore)
        loginsOverlapping) (trace sampleState (opened sampleStore) loginsOverlapping) "u1" i := by
      intro i hi
      refine ⟨?_, hchecked i hi⟩
      rcases List.mem_cons.mp hi with rfl | hi
      · rfl
      · rw [List.mem_singleton.mp hi]
        rfl
    have hnone : NoSuccess (final (step sampleState) (opened sampleStore) loginsOverlapping)
        "u1" := by
      intro i r hr
      have hlt : i < 2 := (List.getElem?_eq_some_iff.mp hr).1
      have hi : i ∈ [0, 1] := by
        rw [List.mem_cons, List.mem_singleton]
        omega
      rw [(hwrong i hi).1] at hr
      cases hr
    obtain ⟨u, hu, hle⟩ := hcounted.counted hnone hlock [0, 1] (by decide) hwrong
    cases hu
    exact absurd hle (by decide)

end Qid.Session
