/-
Just-in-time provisioning under interleavings.

Two logins that both find no link both create a user, and a login that fails after it has created
its user leaves that user behind. `Orderly` excludes both. `Sound` is the invariant of such runs: a
new user belongs to the one link of the identity, or to the one login that is about to store it.
-/
import Qid.Federation.Returning

namespace Qid.Federation

open Lib Json Storage

variable {u v : String} {link : CiamIdentityLink} {user : Models.User} {key : ExternalKey}
  {job : Job}

abbrev System : Type := Jobs.System Store Job

abbrev Act : Type := Jobs.Act BrokerLogin Env

def step : System → Act → Option Job × System := Jobs.step BrokerLogin.start Job.advance

variable (s : Store)

def idle : System where
  store := s
  jobs := []

/-! ## Where a login stands -/

def Job.provisioning (job : Job) : Option String :=
  match job.phase with
  | .auditCreated _ _ userId => some userId
  | .storeLink plan _ link => if plan.createSubject then some link.userId else none
  | _ => none

/-- Whether a login has created its user and not yet returned. -/
def Job.hasCreated (job : Job) : Bool :=
  match job.phase with
  | .auditCreated _ _ _ => true
  | .storeLink plan _ _ | .auditStored plan _ _ => plan.createSubject
  | _ => false

def Job.createsUser (job : Job) : Bool :=
  match job.phase with
  | .createUser _ _ _ => true
  | _ => false

def Job.storesFirstLink (job : Job) : Option CiamIdentityLink :=
  match job.phase with
  | .storeLink plan _ link => if plan.createSubject then some link else none
  | _ => none

def Unlinked (key : ExternalKey) : Prop :=
  ∀ link ∈ s.ciamIdentityLinks.values, link.verifies key = false

instance (s : Store) (key : ExternalKey) : Decidable (Unlinked s key) :=
  inferInstanceAs (Decidable (∀ _ ∈ _, _))

/-- A user is created, and saved, only while the identity has no link and no login is between the
creation of its user and the link; the calls of a login that has created its user succeed, and its
link is valid and new. -/
def Orderly (key : ExternalKey) (s : System) (env : Env) (job : Job) : Prop :=
  (job.createsUser = true → env.persist = .done ∧ Unlinked s.store key ∧
    ∀ other ∈ s.jobs, other.provisioning = none) ∧
  (job.hasCreated = true → env.audit = .ok () ∧ env.persist = .done) ∧
  (∀ link ∈ job.storesFirstLink, link.validate = .ok () ∧
    (s.store.ciamIdentityLinks.find link.id).isNone = true)

instance (key : ExternalKey) (s : System) (env : Env) (job : Job) :
    Decidable (Orderly key s env job) :=
  inferInstanceAs (Decidable (_ ∧ _ ∧ _))

def OrderlyAct (key : ExternalKey) (s : System) : Act → Prop
  | .arrive _ => True
  | .advance i env => ∀ job ∈ s.jobs[i]?, Orderly key s env job

instance (key : ExternalKey) (s : System) : (act : Act) → Decidable (OrderlyAct key s act)
  | .arrive _ => inferInstanceAs (Decidable True)
  | .advance i env => inferInstanceAs (Decidable (∀ job ∈ s.jobs[i]?, Orderly key s env job))

def Linked (key : ExternalKey) (u : String) : Prop := ∃ link, SoleLink s key link ∧ link.userId = u

theorem Linked.unique {s : Store} (hu : Linked s key u) (hv : Linked s key v) : u = v := by
  obtain ⟨link, hlink, rfl⟩ := hu
  obtain ⟨link', hlink', rfl⟩ := hv
  rw [hlink.sole link' hlink'.stored hlink'.verifies]

theorem Linked.not_unlinked {s : Store} (h : Linked s key u) : ¬Unlinked s key := by
  obtain ⟨link, hlink, -⟩ := h
  intro hnone
  have := hnone link (Table.mem_values.mpr hlink.stored)
  rw [hlink.verifies] at this
  cases this

def Registered (key : ExternalKey) (u : String) : Prop :=
  ∃ user, s.users.find u = some user ∧ user.realmId = key.realmId

/-- What a login knows at each of its phases. -/
def PhaseSound (key : ExternalKey) (s : Store) (login : BrokerLogin) : LoginPhase → Prop
  | .createUser plan _ user => plan.createSubject = true ∧ user.realmId = key.realmId
  | .auditCreated plan _ u => plan.createSubject = true ∧ Registered s key u
  | .auditLinked plan _ u => plan.createSubject = false ∧ Linked s key u
  | .storeLink plan now link => (∃ u ulid, link = login.newLink u now ulid) ∧
      (plan.createSubject = true → Registered s key link.userId) ∧
      (plan.createSubject = false → Linked s key link.userId)
  | .auditStored _ _ u | .done u => Linked s key u
  | .lookup | .refused _ => True

structure JobSound (key : ExternalKey) (s : Store) (job : Job) : Prop where
  sameKey : job.login.key = key
  phase : PhaseSound key s job.login job.phase

structure Sound (key : ExternalKey) (users : Table Models.User (·.id)) (s : System) : Prop where
  jobs : Jobs.All (JobSound key s.store) s.jobs
  /-- While a login is about to store the first link there is none, and it is the only one. -/
  unlinked : ∀ (j : Nat) (job : Job) (u : String), s.jobs[j]? = some job →
    job.provisioning = some u → Unlinked s.store key
  only : ∀ (j k : Nat) (job job' : Job), s.jobs[j]? = some job → s.jobs[k]? = some job' →
    job.provisioning.isSome = true → job'.provisioning.isSome = true → j = k
  /-- A new user is the linked one, or is about to be linked. -/
  created : ∀ u, users.find u = none → (s.store.users.find u).isSome = true →
    Linked s.store key u ∨ Jobs.Any (fun job => job.provisioning = some u) s.jobs

/-! ## What a step keeps -/

variable {login : BrokerLogin}

section

variable {s s' : Store}

/-- Users stay, and so does the user of the identity. -/
structure Keeps (key : ExternalKey) (s s' : Store) : Prop where
  registered : ∀ u, Registered s key u → Registered s' key u
  linked : ∀ u, Linked s key u → Linked s' key u

theorem Keeps.refl (key : ExternalKey) (s : Store) : Keeps key s s := ⟨fun _ h => h, fun _ h => h⟩

theorem PhaseSound.mono {phase : LoginPhase} (h : PhaseSound key s login phase)
    (hkeeps : Keeps key s s') : PhaseSound key s' login phase := by
  cases phase with
  | lookup => trivial
  | createUser => exact h
  | auditCreated plan now u => exact ⟨h.1, hkeeps.registered u h.2⟩
  | auditLinked plan now u => exact ⟨h.1, hkeeps.linked u h.2⟩
  | storeLink =>
    exact ⟨h.1, fun hc => hkeeps.registered _ (h.2.1 hc), fun hc => hkeeps.linked _ (h.2.2 hc)⟩
  | auditStored plan now u | done u => exact hkeeps.linked u h
  | refused => trivial

theorem keeps_createUser (key : ExternalKey) (persist : Persist) (s : Store)
    (user : Models.User) : Keeps key s (s.createUser persist user).2 := by
  rcases createUser_cases persist s user with ⟨e, hcreate⟩ | ⟨hnew, hcreate⟩
  · rw [hcreate]
    exact .refl key s
  · rw [hcreate]
    constructor
    · rintro u ⟨found, hfound, hrealm⟩
      have hne : u ≠ user.id := by
        rintro rfl
        rw [hnew] at hfound
        cases hfound
      exact ⟨found, by rw [← hfound]; exact Table.find_put_of_ne _ hne, hrealm⟩
    · rintro u ⟨link, hlink, hu⟩
      exact ⟨link, ⟨hlink.stored, hlink.verifies, hlink.sole⟩, hu⟩

theorem keeps_storeLink (persist : Persist) (hverifies : link.verifies key = true) :
    Keeps key s (s.storeCiamIdentityLink persist link).2 := by
  rcases storeCiamIdentityLink_cases persist s link with ⟨e, -, hstore⟩ | ⟨hlinkable, hstore⟩
  · rw [hstore]
    exact .refl key s
  · rw [hstore]
    refine ⟨fun u hu => hu, fun u hu => ?_⟩
    obtain ⟨found, hfound, rfl⟩ := hu
    exact ⟨link, soleLink_put hlinkable hverifies, (hfound.of_linkable hlinkable hverifies).2⟩

end

variable {users : Table Models.User (·.id)} {s : System} {i : Nat} {job' : Job} {store : Store}

section

variable (h : Sound key users s) (hi : s.jobs[i]? = some job)
include h hi

/-- While another login is about to store the first link, there is still none and this one is not
about to. -/
theorem Sound.move (hkeeps : Keeps key s.store store)
    (hjob : JobSound key store job')
    (hothers : ∀ j found u, j ≠ i → s.jobs[j]? = some found → found.provisioning = some u →
      Unlinked store key ∧ job'.provisioning = none)
    (hafter : ∀ u, job'.provisioning = some u → Unlinked store key)
    (hcreated : ∀ u, (store.users.find u).isSome = true → job'.provisioning = some u ∨
      (s.store.users.find u).isSome = true ∧ (job.provisioning = some u → Linked store key u)) :
    Sound key users { store := store, jobs := s.jobs.set i job' } where
  jobs := by
    intro j found hfound
    rcases Jobs.of_getElem?_set hfound with ⟨-, rfl⟩ | ⟨-, hold⟩
    · exact hjob
    · have hsound := h.jobs j found hold
      exact ⟨hsound.sameKey, hsound.phase.mono hkeeps⟩
  unlinked := by
    intro j found u hfound hprov
    rcases Jobs.of_getElem?_set hfound with ⟨-, rfl⟩ | ⟨hne, hold⟩
    · exact hafter u hprov
    · exact (hothers j found u hne hold hprov).1
  only := by
    have hnone : ∀ j found, j ≠ i → s.jobs[j]? = some found → found.provisioning.isSome = true →
        job'.provisioning.isSome = true → False := by
      intro j found hne hold hprov hprov'
      obtain ⟨u, hu⟩ := Option.isSome_iff_exists.mp hprov
      rw [(hothers j found u hne hold hu).2] at hprov'
      cases hprov'
    intro j k found found' hfound hfound' hprov hprov'
    rcases Jobs.of_getElem?_set hfound with ⟨rfl, rfl⟩ | ⟨hne, hold⟩
    · rcases Jobs.of_getElem?_set hfound' with ⟨rfl, -⟩ | ⟨hne', hold'⟩
      · rfl
      · exact (hnone k found' hne' hold' hprov' hprov).elim
    · rcases Jobs.of_getElem?_set hfound' with ⟨rfl, rfl⟩ | ⟨-, hold'⟩
      · exact (hnone j found hne hold hprov hprov').elim
      · exact h.only j k found found' hold hold' hprov hprov'
  created := by
    intro u hnew hu
    have hself : job'.provisioning = some u → Jobs.Any (fun job => job.provisioning = some u)
        (s.jobs.set i job') := fun hprov =>
      ⟨i, job', List.getElem?_set_self (Jobs.lt_length hi), hprov⟩
    rcases hcreated u hu with hprov | ⟨hold, hlinked⟩
    · exact Or.inr (hself hprov)
    rcases h.created u hnew hold with hlinked' | ⟨j, found, hfound, hprov⟩
    · exact Or.inl (hkeeps.linked u hlinked')
    by_cases hj : j = i
    · subst hj
      cases hi.symm.trans hfound
      exact Or.inl (hlinked hprov)
    · exact Or.inr ⟨j, found, by rwa [List.getElem?_set_ne (Ne.symm hj)], hprov⟩

/-- The login that is about to store the first link is the only one. -/
theorem Sound.alone (hbefore : job.provisioning = some u) {j : Nat}
    {found : Job} (hne : j ≠ i) (hj : s.jobs[j]? = some found)
    (hprov : found.provisioning = some v) : False :=
  hne (h.only j i found job hj hi (by rw [hprov]; rfl) (by rw [hbefore]; rfl))

/-- A step of a login that is not about to store the first link, before or after. -/
theorem Sound.move_idle (hkeeps : Keeps key s.store store)
    (hlinks : Unlinked s.store key → Unlinked store key)
    (husers : ∀ u, (store.users.find u).isSome = true → (s.store.users.find u).isSome = true)
    (hjob : JobSound key store job') (hbefore : job.provisioning = none)
    (hafter : job'.provisioning = none) :
    Sound key users { store := store, jobs := s.jobs.set i job' } := by
  refine h.move hi hkeeps hjob (fun j found u _ hj hprov => ?_) (fun u hprov => ?_) fun u hu => ?_
  · exact ⟨hlinks (h.unlinked j found u hj hprov), hafter⟩
  · cases hafter.symm.trans hprov
  · exact Or.inr ⟨husers u hu, fun hprov => by cases hbefore.symm.trans hprov⟩

theorem Sound.move_read (hjob : JobSound key s.store job')
    (hbefore : job.provisioning = none) (hafter : job'.provisioning = none) :
    Sound key users { store := s.store, jobs := s.jobs.set i job' } :=
  h.move_idle hi (.refl key s.store) (fun hu => hu) (fun _ hu => hu) hjob hbefore hafter

end

/-! ## The phases of a login -/

variable {env : Env}

section

variable {plan : BrokerLoginPlan} {next : LoginPhase} {now : Nat}

theorem phaseSound_ofPlan {s : Store} (hkey : login.key = key) (hplan : login.plan env s = .ok plan)
    (now : Nat) (ulid : String) :
    PhaseSound key s login (.ofPlan login plan now ulid) ∧
      Job.provisioning ⟨login, .ofPlan login plan now ulid⟩ = none := by
  obtain ⟨provider, hplanned⟩ := planInboundLogin_eq_ok.mp hplan
  subst hkey
  rw [LoginPhase.ofPlan]
  split
  · exact ⟨trivial, rfl⟩
  · cases hlinked : plan.linkedSubject with
    | some =>
      refine ⟨⟨?_, ?_⟩, rfl⟩
      · rw [hplanned.creates, hlinked]
        rfl
      · have h := hplanned.linked.symm.trans hlinked
        rw [BrokerLogin.loadBrokerLinks] at h
        split at h
        · rename_i link _ hlookup
          obtain ⟨found, hfound, rfl⟩ := Option.map_eq_some_iff.mp h
          rw [List.mem_singleton.mp (List.mem_of_find?_eq_some hfound)]
          exact ⟨link, soleLink_of_lookup hlookup, rfl⟩
        · cases h
    | none =>
      have hcreates : plan.createSubject = true := by
        rw [hplanned.creates, hlinked]
        rfl
      simp only [hcreates, if_true]
      split
      · exact ⟨⟨hcreates, rfl⟩, rfl⟩
      · exact ⟨trivial, rfl⟩

theorem phaseSound_andThen {s : Store} (h : PhaseSound key s login next) (result : QidResult Unit) :
    PhaseSound key s login (.andThen result next) := by
  cases result with
  | ok => exact h
  | error => trivial

theorem provisioning_andThen (h : Job.provisioning ⟨login, next⟩ = none) (result : QidResult Unit) :
    Job.provisioning ⟨login, .andThen result next⟩ = none := by
  cases result with
  | ok => exact h
  | error => rfl

theorem Sound.createUser (h : Sound key users s)
    (hi : s.jobs[i]? = some ⟨login, .createUser plan now user⟩)
    (horderly : Orderly key s env ⟨login, .createUser plan now user⟩) :
    Sound key users {
      store := (s.store.createUser env.persist user).2
      jobs := s.jobs.set i ⟨login, .andThen (s.store.createUser env.persist user).1
        (.auditCreated plan now user.id)⟩ } := by
  obtain ⟨hkey, hcreates, hrealm⟩ := h.jobs i _ hi
  obtain ⟨hpersist, hunlinked, hnone⟩ := horderly.1 rfl
  have hkeeps := keeps_createUser key env.persist s.store user
  rcases createUser_cases env.persist s.store user with ⟨e, hcreate⟩ | ⟨hnew, hcreate⟩
  · rw [hcreate]
    exact h.move_read hi ⟨hkey, trivial⟩ rfl rfl
  · rw [hcreate] at hkeeps ⊢
    rw [hpersist]
    refine h.move hi hkeeps ⟨hkey, hcreates, user, Table.find_put_self _ _, hrealm⟩
      (fun j found u _ hj hprov => ?_) (fun _ _ => hunlinked) fun u hu => ?_
    · cases (hnone found (List.mem_of_getElem? hj)).symm.trans hprov
    · by_cases huser : u = user.id
      · exact Or.inl (congrArg some huser.symm)
      · refine Or.inr ⟨?_, fun hprov => by cases hprov⟩
        rwa [Table.find_put_of_ne _ huser] at hu

theorem Sound.storeLink (h : Sound key users s)
    (hi : s.jobs[i]? = some ⟨login, .storeLink plan now link⟩)
    (horderly : Orderly key s env ⟨login, .storeLink plan now link⟩) :
    Sound key users {
      store := (s.store.storeCiamIdentityLink env.persist link).2
      jobs := s.jobs.set i ⟨login, .andThen (s.store.storeCiamIdentityLink env.persist link).1
        (.auditStored plan now link.userId)⟩ } ∧
    (plan.createSubject = true → (s.store.storeCiamIdentityLink env.persist link).1 = .ok ()) := by
  obtain ⟨hkey, ⟨u, ulid, hlink⟩, hregistered, hlinked⟩ := h.jobs i _ hi
  have hverifies : link.verifies key = true := by
    rw [hlink, ← hkey]
    exact newLink_verifies ..
  have hkeeps := keeps_storeLink (s := s.store) env.persist hverifies
  cases hcreates : plan.createSubject with
  | true =>
    have hprov : Job.provisioning ⟨login, .storeLink plan now link⟩ = some link.userId := by
      simp only [Job.provisioning, hcreates, if_true]
    have hstores : Job.storesFirstLink ⟨login, .storeLink plan now link⟩ = some link := by
      simp only [Job.storesFirstLink, hcreates, if_true]
    obtain ⟨hvalid, hnew⟩ := horderly.2.2 link hstores
    rw [Option.isNone_iff_eq_none] at hnew
    obtain ⟨-, hpersist⟩ := horderly.2.1 hcreates
    have hlinkable : Linkable s.store link := by
      obtain ⟨hverified, rfl⟩ := CiamIdentityLink.verifies_iff.mp hverifies
      refine ⟨hvalid, fun stored hstored => ?_, hregistered hcreates,
        fun _ stored hstored hfor => ?_⟩
      · rw [hnew] at hstored
        cases hstored
      · rw [h.unlinked i _ link.userId hi hprov stored (Table.mem_values.mpr hstored)] at hfor
        cases hfor
    have hnow : Linked _ key link.userId := ⟨link, soleLink_put hlinkable hverifies, rfl⟩
    rcases storeCiamIdentityLink_cases env.persist s.store link with
      ⟨e, herror, -⟩ | ⟨-, hstore⟩
    · rw [checkLink_eq_ok.mpr hlinkable] at herror
      cases herror
    · rw [hstore] at hkeeps ⊢
      rw [hpersist]
      refine ⟨h.move hi hkeeps ⟨hkey, hnow⟩ (fun j found v hne hj hv => ?_) (fun v hv => ?_)
        fun v hv => Or.inr ⟨hv, fun hlinks => ?_⟩, fun _ => rfl⟩
      · exact (h.alone hi hprov hne hj hv).elim
      · cases hv
      · cases hprov.symm.trans hlinks
        exact hnow
  | false =>
    have hprov : Job.provisioning ⟨login, .storeLink plan now link⟩ = none := by
      simp only [Job.provisioning, hcreates, Bool.false_eq_true, if_false]
    refine ⟨?_, fun hc => by cases hc⟩
    rcases storeCiamIdentityLink_cases env.persist s.store link with
      ⟨e, -, hstore⟩ | ⟨-, hstore⟩
    · rw [hstore]
      exact h.move_read hi ⟨hkey, trivial⟩ hprov rfl
    · rw [hstore] at hkeeps ⊢
      have hstored : PhaseSound key
          { s.store with ciamIdentityLinks := s.store.ciamIdentityLinks.put link } login
          (.auditStored plan now link.userId) := hkeeps.linked _ (hlinked hcreates)
      exact h.move_idle hi hkeeps (fun hun => absurd hun (hlinked hcreates).not_unlinked)
        (fun _ hv => hv) ⟨hkey, phaseSound_andThen hstored _⟩ hprov (provisioning_andThen rfl _)

theorem Sound.advance (h : Sound key users s)
    (hi : s.jobs[i]? = some job) (horderly : Orderly key s env job)
    (hadvance : job.advance env s.store = some (job', store)) :
    Sound key users { store := store, jobs := s.jobs.set i job' } := by
  obtain ⟨login, phase⟩ := job
  obtain ⟨hkey, hphase⟩ := h.jobs i _ hi
  obtain ⟨next, hnext, heq⟩ := Option.map_eq_some_iff.mp hadvance
  cases heq
  cases phase with
  | lookup =>
    rw [LoginPhase.advance] at hnext
    split at hnext
    · rename_i plan hplan
      cases hnext
      obtain ⟨hsound, hprov⟩ := phaseSound_ofPlan hkey hplan env.now env.userUlid
      exact h.move_read hi ⟨hkey, hsound⟩ rfl hprov
    · cases hnext
      exact h.move_read hi ⟨hkey, trivial⟩ rfl rfl
  | createUser =>
    cases hnext
    exact h.createUser hi horderly
  | auditCreated plan now u =>
    cases hnext
    obtain ⟨haudit, -⟩ := horderly.2.1 rfl
    rw [haudit]
    have hprov : Job.provisioning ⟨login, .andThen (.ok ()) (.storeLink plan now
        (login.newLink u now env.linkUlid))⟩ = some u := by
      simp only [Job.provisioning, LoginPhase.andThen, hphase.1]
      rfl
    refine h.move hi (.refl key s.store)
      ⟨hkey, ⟨u, env.linkUlid, rfl⟩, fun _ => hphase.2, fun hcreates => ?_⟩
      (fun j found v hne hj hv => ?_) (fun v _ => h.unlinked i _ u hi rfl) fun v hv => ?_
    · cases hphase.1.symm.trans hcreates
    · exact (h.alone hi rfl hne hj hv).elim
    · by_cases huv : u = v
      · exact Or.inl (huv ▸ hprov)
      · exact Or.inr ⟨hv, fun hsame => absurd (Option.some.inj hsame) huv⟩
  | auditLinked plan now u =>
    cases hnext
    refine h.move_read hi ⟨hkey, phaseSound_andThen ?_ _⟩ rfl (provisioning_andThen ?_ _)
    · refine ⟨⟨u, env.linkUlid, rfl⟩, fun hcreates => ?_, fun _ => hphase.2⟩
      rw [hphase.1] at hcreates
      cases hcreates
    · simp only [Job.provisioning, hphase.1, Bool.false_eq_true, if_false]
  | storeLink =>
    rw [LoginPhase.advance, Option.some.injEq] at hnext
    subst hnext
    exact (h.storeLink hi horderly).1
  | auditStored plan now u =>
    cases hnext
    have hdone : PhaseSound key s.store login (.done u) := hphase
    exact h.move_read hi ⟨hkey, phaseSound_andThen hdone _⟩ rfl (provisioning_andThen rfl _)
  | _ => cases hnext

end

section

variable {act : Act}

def ActFor (key : ExternalKey) : Act → Prop
  | .arrive login => login.key = key
  | .advance _ _ => True

instance (key : ExternalKey) : (act : Act) → Decidable (ActFor key act)
  | .arrive login => inferInstanceAs (Decidable (login.key = key))
  | .advance _ _ => inferInstanceAs (Decidable True)

theorem Sound.arrive (h : Sound key users s) (hkey : login.key = key) :
    Sound key users { s with jobs := s.jobs ++ [login.start] } where
  jobs := h.jobs.append ⟨hkey, trivial⟩
  unlinked := by
    intro j found u hfound hprov
    rcases Jobs.of_getElem?_append hfound with ⟨-, rfl⟩ | hold
    · cases hprov
    · exact h.unlinked j found u hold hprov
  only := by
    intro j k found found' hfound hfound' hprov hprov'
    rcases Jobs.of_getElem?_append hfound with ⟨-, rfl⟩ | hold
    · cases hprov
    rcases Jobs.of_getElem?_append hfound' with ⟨-, rfl⟩ | hold'
    · cases hprov'
    exact h.only j k found found' hold hold' hprov hprov'
  created u hnew hu := (h.created u hnew hu).imp_right fun hany => hany.append _

theorem Sound.step (h : Sound key users s) (horderly : OrderlyAct key s act)
    (hact : ActFor key act) : Sound key users (step s act).2 := by
  refine Jobs.step_induction (motive := fun r => Sound key users r.2) ?_ h ?_
  · rintro login rfl
    exact h.arrive hact
  · rintro i env job job' store rfl hi hadvance
    exact h.advance hi (horderly job hi) hadvance

theorem sound_idle (key : ExternalKey) (s : Store) : Sound key s.users (idle s) where
  jobs j job hjob := by cases hjob
  unlinked j job u hjob := by cases hjob
  only j k job job' hjob := by cases hjob
  created u hnew hu := by
    change (s.users.find u).isSome = true at hu
    rw [hnew] at hu
    cases hu

/-! ## A login that has created its user succeeds -/

/-- The login has created its user and not yet returned, or has succeeded. -/
def Settling (i : Nat) (s : System) : Prop :=
  ∃ job, s.jobs[i]? = some job ∧ (job.hasCreated = true ∨ ∃ u, job.phase = .done u)

theorem hasCreated_advance (h : Sound key users s) (hi : s.jobs[i]? = some job)
    (horderly : Orderly key s env job) (hcreated : job.hasCreated = true)
    (hadvance : job.advance env s.store = some (job', store)) :
    job'.hasCreated = true ∨ ∃ u, job'.phase = .done u := by
  obtain ⟨haudit, -⟩ := horderly.2.1 hcreated
  obtain ⟨login, phase⟩ := job
  have hsound := (h.jobs i _ hi).phase
  obtain ⟨next, hnext, heq⟩ := Option.map_eq_some_iff.mp hadvance
  cases heq
  cases phase with
  | auditCreated =>
    cases hnext
    rw [haudit]
    exact Or.inl hsound.1
  | storeLink =>
    rw [LoginPhase.advance, Option.some.injEq] at hnext
    subst hnext
    rw [(h.storeLink hi horderly).2 hcreated]
    exact Or.inl hcreated
  | auditStored plan now u =>
    cases hnext
    rw [haudit]
    exact Or.inr ⟨u, rfl⟩
  | _ => cases hcreated

theorem Settling.step (h : Settling i s) (hsound : Sound key users s)
    (horderly : OrderlyAct key s act) : Settling i (step s act).2 := by
  obtain ⟨found, hfound, hsettling⟩ := h
  rcases Jobs.step_job BrokerLogin.start Job.advance act hfound with
    hkept | ⟨env, job', store, rfl, hadvance, hstep⟩
  · exact ⟨found, hkept, hsettling⟩
  · rw [Federation.step, hstep]
    refine ⟨job', List.getElem?_set_self (Jobs.lt_length hfound), ?_⟩
    rcases hsettling with hcreated | ⟨u, hdone⟩
    · exact hasCreated_advance hsound hfound (horderly found hfound) hcreated hadvance
    · rw [Job.advance, hdone] at hadvance
      cases hadvance

theorem users_of_advance (horderly : Orderly key s env job)
    (hadvance : job.advance env s.store = some (job', store)) :
    store.users = s.store.users ∨ job'.hasCreated = true := by
  obtain ⟨login, phase⟩ := job
  obtain ⟨next, hnext, heq⟩ := Option.map_eq_some_iff.mp hadvance
  cases heq
  cases phase with
  | lookup =>
    left
    rw [LoginPhase.advance] at hnext
    split at hnext
    all_goals
      cases hnext
      rfl
  | createUser plan now user =>
    cases hnext
    obtain ⟨hpersist, -, -⟩ := horderly.1 rfl
    rcases createUser_cases env.persist s.store user with ⟨e, hcreate⟩ | ⟨-, hcreate⟩
    · rw [hcreate]
      exact Or.inl rfl
    · rw [hcreate, hpersist]
      exact Or.inr rfl
  | auditCreated plan now u | auditLinked plan now u | auditStored plan now u =>
    cases hnext
    exact Or.inl rfl
  | storeLink plan now link =>
    rw [LoginPhase.advance, Option.some.injEq] at hnext
    subst hnext
    rcases storeCiamIdentityLink_cases env.persist s.store link with
      ⟨e, -, hstore⟩ | ⟨-, hstore⟩
    all_goals
      rw [hstore]
      exact Or.inl rfl
  | _ => cases hnext

/-- A step that changes the users is that of a login that has then created one. -/
theorem settling_of_users_ne (horderly : OrderlyAct key s (.advance i env))
    (h : (step s (.advance i env)).2.store.users ≠ s.store.users) :
    Settling i (step s (.advance i env)).2 := by
  revert h
  refine Jobs.step_induction
    (motive := fun r => r.2.store.users ≠ s.store.users → Settling i r.2) nofun (absurd rfl) ?_
  intro k env' job job' store hact hk hadvance h
  cases hact
  rcases users_of_advance (horderly job hk) hadvance with hsame | hcreated
  · exact absurd hsame h
  · exact ⟨job', List.getElem?_set_self (Jobs.lt_length hk), Or.inl hcreated⟩

/-! ## The new users -/

def New (users : Table Models.User (·.id)) (s : System) (u : String) : Prop :=
  users.find u = none ∧ (s.store.users.find u).isSome = true

theorem Sound.new_eq_linked (h : Sound key users s) (hv : New users s v)
    (hlinked : Linked s.store key u) : v = u := by
  rcases h.created v hv.1 hv.2 with hlinked' | ⟨k, job, hk, hprov⟩
  · exact hlinked'.unique hlinked
  · exact absurd (h.unlinked k job v hk hprov) hlinked.not_unlinked

theorem Sound.new_unique (h : Sound key users s) (hu : New users s u) (hv : New users s v) :
    u = v := by
  rcases h.created u hu.1 hu.2 with hlinked | ⟨j, job, hj, hprov⟩
  · exact (h.new_eq_linked hv hlinked).symm
  · rcases h.created v hv.1 hv.2 with hlinked' | ⟨k, job', hk, hprov'⟩
    · exact h.new_eq_linked hu hlinked'
    · have hjk : j = k := h.only j k job job' hj hk (by rw [hprov]; rfl) (by rw [hprov']; rfl)
      subst hjk
      rw [hj, Option.some.injEq] at hk
      subst hk
      rw [hprov, Option.some.injEq] at hprov'
      exact hprov'

theorem Sound.done_linked (h : Sound key users s) (hjob : job ∈ s.jobs)
    (hdone : job.phase = .done u) : Linked s.store key u := by
  obtain ⟨j, hj⟩ := List.mem_iff_getElem?.mp hjob
  have hphase := (h.jobs j job hj).phase
  rw [hdone] at hphase
  exact hphase

/-- In every orderly run of logins of one external identity at most one user is created, the logins
that succeed all return one user, who is the created one if there is one, and a refused login has
not changed the users. -/
theorem provisioning_atomic_unique (key : ExternalKey) (s : Store) (acts : List Act)
    (hacts : ∀ act ∈ acts, ActFor key act)
    (horderly : ∀ e ∈ run step (idle s) acts, OrderlyAct key e.before e.call) :
    (∀ u v, New s.users (final step (idle s) acts) u → New s.users (final step (idle s) acts) v →
      u = v) ∧
    (∀ job ∈ (final step (idle s) acts).jobs, ∀ u, job.phase = .done u →
      (∀ job' ∈ (final step (idle s) acts).jobs, ∀ v, job'.phase = .done v → v = u) ∧
      ∀ v, New s.users (final step (idle s) acts) v → v = u) ∧
    (∀ e ∈ run step (idle s) acts, ∀ i env, e.call = .advance i env →
      (∃ job error, (final step (idle s) acts).jobs[i]? = some job ∧ job.phase = .refused error) →
        e.after.store.users = e.before.store.users) := by
  have hmeets : ∀ e ∈ run step (idle s) acts, OrderlyAct key e.before e.call ∧ ActFor key e.call :=
    fun e he => ⟨horderly e he, hacts _ (call_mem_of_mem_run step he)⟩
  have hstep : ∀ t act, Sound key s.users t → OrderlyAct key t act ∧ ActFor key act →
      Sound key s.users (step t act).2 := fun t act ht hact => ht.step hact.1 hact.2
  obtain ⟨hevents, hfinal⟩ := run_invariant step hstep (sound_idle key s) hmeets
  refine ⟨fun u v => hfinal.new_unique, fun job hjob u hdone => ?_, ?_⟩
  · have hlinked := hfinal.done_linked hjob hdone
    refine ⟨fun job' hjob' v hdone' => ?_, fun v hv => hfinal.new_eq_linked hv hlinked⟩
    exact (hfinal.done_linked hjob' hdone').unique hlinked
  · rintro e he i env hcall ⟨job, error, hjob, hrefused⟩
    by_contra hne
    -- from the creation on, the login is settling, so it is not refused at the end
    obtain ⟨xs, ys, hrun⟩ := List.append_of_mem he
    obtain ⟨ks, act, ls, rfl, -, rfl, hys⟩ := run_eq_append_cons step hrun
    subst hcall
    have hsettling := settling_of_users_ne (horderly _ he) hne
    have hafter := (hevents _ he).2
    have hlater : ∀ e ∈ run step (step (final step (idle s) ks) (.advance i env)).2 ls,
        OrderlyAct key e.before e.call ∧ ActFor key e.call := by
      intro e' he'
      rw [hys] at he'
      refine hmeets e' ?_
      rw [hrun]
      exact List.mem_append_right _ (List.mem_cons_of_mem _ he')
    have hboth : ∀ t act, (Sound key s.users t ∧ Settling i t) →
        OrderlyAct key t act ∧ ActFor key act →
        Sound key s.users (step t act).2 ∧ Settling i (step t act).2 :=
      fun t act ht hact => ⟨ht.1.step hact.1 hact.2, ht.2.step ht.1 hact.1⟩
    obtain ⟨-, found, hfound, hstate⟩ := (run_invariant step hboth ⟨hafter, hsettling⟩ hlater).2
    rw [final_append] at hjob
    obtain rfl : job = found := Option.some.inj (hjob.symm.trans hfound)
    rcases hstate with hcreated | ⟨u, hdone⟩
    · rw [Job.hasCreated, hrefused] at hcreated
      cases hcreated
    · rw [hrefused] at hdone
      cases hdone

end

def advances (count i : Nat) (env : Env) : List Act := List.replicate count (.advance i env)

/-- The second login looks up the link after the first has stored it, and the audit of the third
fails. -/
def orderlyActs : List Act :=
  [.arrive sampleLogin] ++ advances 2 0 (sampleEnv "A" "L") ++
    [.arrive sampleLogin, .arrive sampleLogin] ++ advances 2 0 (sampleEnv "A" "L") ++
    advances 2 1 (sampleEnv "B" "L") ++ advances 1 0 (sampleEnv "A" "L") ++
    advances 2 2 { sampleEnv "C" "N" with audit := .error alreadyLinked } ++
    advances 2 1 (sampleEnv "B" "L")

def orderlyEnd : System := final step (idle emptyStore) orderlyActs

theorem orderlyEnd_refused :
    ∃ job error, orderlyEnd.jobs[2]? = some job ∧ job.phase = .refused error := by
  have herror : orderlyEnd.jobs[2]?.bind (·.phase.error) = some alreadyLinked := by decide +kernel
  obtain ⟨job, hjob, herror⟩ := Option.bind_eq_some_iff.mp herror
  cases hphase : job.phase with
  | refused e => exact ⟨job, e, hjob, hphase⟩
  | _ =>
    rw [hphase] at herror
    cases herror

theorem provisioning_atomic_unique_orderly :
    orderlyEnd.jobs.map (·.phase.userId) = [some "usr_A", some "usr_A", none] ∧
    orderlyEnd.store.users.values.map Models.User.id = ["usr_A"] ∧
    (∀ u v, New emptyStore.users orderlyEnd u → New emptyStore.users orderlyEnd v → u = v) ∧
    (∀ job ∈ orderlyEnd.jobs, ∀ u, job.phase = .done u →
      (∀ job' ∈ orderlyEnd.jobs, ∀ v, job'.phase = .done v → v = u) ∧
      ∀ v, New emptyStore.users orderlyEnd v → v = u) ∧
    ∀ e ∈ run step (idle emptyStore) orderlyActs, ∀ env, e.call = .advance 2 env →
      e.after.store.users = e.before.store.users := by
  obtain ⟨hone, hsame, hkept⟩ := provisioning_atomic_unique sampleLogin.key emptyStore orderlyActs
    (by decide +kernel) (by decide +kernel)
  exact ⟨by decide +kernel, by decide +kernel, hone, hsame,
    fun e he env hcall => hkept e he 2 env hcall orderlyEnd_refused⟩

/-- Both logins find no link, and both create a user. -/
def racingActs : List Act :=
  [.arrive sampleLogin, .arrive sampleLogin] ++ advances 1 0 (sampleEnv "A" "L") ++
    advances 1 1 (sampleEnv "B" "M") ++ advances 4 0 (sampleEnv "A" "L") ++
    advances 3 1 (sampleEnv "B" "M")

/-- Two users are created for one identity, and the login that is refused leaves its user
behind. -/
theorem racing_logins_create_two_users :
    (final step (idle emptyStore) racingActs).store.users.values.map Models.User.id =
      ["usr_B", "usr_A"] ∧
    (final step (idle emptyStore) racingActs).jobs.map (·.phase.userId) = [some "usr_A", none] ∧
    (final step (idle emptyStore) racingActs).jobs.map (·.phase.error) =
      [none, some alreadyLinked] := by
  refine ⟨?_, ?_, ?_⟩
  · decide +kernel
  · decide +kernel
  · decide +kernel

end Qid.Federation
