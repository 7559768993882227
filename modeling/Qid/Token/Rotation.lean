/-
Refresh rotation is atomic.

A rotation changes the family in memory before it is written and puts the old refresh token back if
the write fails. In between it holds the save lock, so the tentative refresh token is seen by no
save but its own.
-/
import Qid.Lib.Run
import Qid.Token.Update

namespace Qid.Token

open Lib Storage

variable {ρ : Type} {g : String → Refresh → Refresh} {r : Rotation}
  {reply : Call ρ × QidResult Unit}

/-! ## The refresh token of a family -/

abbrev Occurrence (ρ : Type) : Type :=
  Event (System ρ) (Mutex.Act (Outside ρ) Persist) (Option (Call ρ × QidResult Unit))

/-- The rotation that returned `Ok`, if the reply is one. -/
def accepted : Option (Call ρ × QidResult Unit) → Option Rotation
  | some (.rotate r, .ok ()) => some r
  | _ => none

theorem accepted_saved (c : Saved ρ) (x : QidResult Unit) : accepted (some (c.call, x)) = none := by
  cases c with
  | _ => rfl

def created (s s' : Store ρ) (id : String) : Option Refresh :=
  match s.families.lookup id with
  | none => (s'.families.lookup id).map TokenFamily.refresh
  | some _ => none

/-- The refresh token that a step installs for a family, by an accepted rotation or by
the family's creation. -/
def installs (id : String) (e : Occurrence ρ) : Option Refresh :=
  match accepted e.reply with
  | some r => if r.id = id then some r.refresh else none
  | none => created e.before.shared.store e.after.shared.store id

/-- Installed by the family's last accepted rotation or its creation. -/
def current (start : Store ρ) (h : List (Occurrence ρ)) (id : String) : Option Refresh :=
  latest (installs id) ((start.families.lookup id).map TokenFamily.refresh) h

def Installed (start : Store ρ) (h : List (Occurrence ρ)) (id : String) (x : Refresh) : Prop :=
  (start.families.lookup id).map TokenFamily.refresh = some x ∨ ∃ e ∈ h, installs id e = some x

variable {h : List (Occurrence ρ)} {err : QidError}

theorem Installed.append {start : Store ρ} {id : String} {x : Refresh} (hx : Installed start h id x)
    (e : Occurrence ρ) : Installed start (h ++ [e]) id x := by
  rcases hx with hstart | ⟨e', he', hx⟩
  · exact Or.inl hstart
  · exact Or.inr ⟨e', List.mem_append_left _ he', hx⟩

theorem created_of_updates {s s' : Store ρ} (h : Updates g s s') (id : String) :
    created s s' id = none := by
  rw [created]
  split
  · rename_i hnone
    cases hs' : s'.families.lookup id with
    | none => rfl
    | some f' =>
      obtain ⟨f, hf, -⟩ := h id f' hs'
      rw [hnone] at hf
      cases hf
  · rfl

/-- The rotation whose refresh token is in memory but not yet written, with the refresh
token it replaced. -/
def Inside.tentative : Inside ρ → Option (Rotation × Refresh)
  | .flushRotation r previous | .writeRotation r previous _ | .rollback r previous _ =>
    some (r, previous)
  | _ => none

def Inside.content : Inside ρ → Option (Store ρ)
  | .writeRotation _ _ content | .write _ content => some content
  | _ => none

def shown (start : Store ρ) (h : List (Occurrence ρ)) (u : Option (Inside ρ)) (id : String) :
    Option Refresh :=
  match u.bind Inside.tentative with
  | some (r, _) => if id = r.id then some r.refresh else current start h id
  | none => current start h id

/-- Every family of the store has the refresh token `v` gives it. -/
def Shows (v : String → Option Refresh) (s : Store ρ) : Prop :=
  ∀ id f, s.families.lookup id = some f → v id = some f.refresh

theorem Shows.updates {v w : String → Option Refresh} {s s' : Store ρ} (h : Shows v s)
    (hg : Updates g s s') (hvw : ∀ id x, v id = some x → w id = some (g id x)) : Shows w s' := by
  intro id f' hf'
  obtain ⟨f, hf, hrefresh, -⟩ := hg id f' hf'
  rw [hrefresh]
  exact hvw id f.refresh (h id f hf)

structure Consistent (start : Store ρ) (h : List (Occurrence ρ)) (s : Repository ρ)
    (u : Option (Inside ρ)) : Prop where
  memory : Shows (shown start h u) s.store
  content : ∀ c, u.bind Inside.content = some c → Shows (shown start h u) c
  tentative : ∀ r previous, u.bind Inside.tentative = some (r, previous) →
    current start h r.id = some previous ∧ previous.hash = r.expectedRefreshHash ∧
      r.refreshHash ≠ r.expectedRefreshHash
  file : ∀ c id f, s.file = some c → c.families.lookup id = some f → Installed start h id f.refresh

section

variable {start store : Store ρ} {s : Repository ρ}
  {u : Option (Inside ρ)} {e : Occurrence ρ} {previous : Refresh} {i : Inside ρ} {t : Outside ρ}

section

variable (hc : Consistent start h s u)
include hc

/-- A step that installs nothing does not change what the families show. -/
theorem Consistent.quiet (hq : ∀ id, installs id e = none) : Consistent start (h ++ [e]) s u := by
  have hcurrent : current start (h ++ [e]) = current start h := by
    funext id
    rw [current, latest_append_singleton, hq id]
    rfl
  have hshown : shown start (h ++ [e]) u = shown start h u := by
    funext id
    rw [shown, shown, hcurrent]
  refine ⟨?_, ?_, ?_, ?_⟩
  · rw [hshown]
    exact hc.memory
  · rw [hshown]
    exact hc.content
  · rw [hcurrent]
    exact hc.tentative
  · intro c id f hfile hf
    exact (hc.file c id f hfile hf).append e

theorem Consistent.move (u' : Option (Inside ρ))
    (ht : u'.bind Inside.tentative = u.bind Inside.tentative)
    (hcontent : ∀ c, u'.bind Inside.content = some c → Shows (shown start h u) c) :
    Consistent start h s u' := by
  have hshown : shown start h u' = shown start h u := by
    funext id
    rw [shown, shown, ht]
  refine ⟨?_, ?_, ?_, hc.file⟩
  · rw [hshown]
    exact hc.memory
  · rw [hshown]
    exact hcontent
  · rw [ht]
    exact hc.tentative

theorem Consistent.mutate (change : Mutation ρ) :
    Consistent start h { s with store := s.store.mutate change } u :=
  { hc with memory := hc.memory.updates (s.store.updates_mutate change) fun _ _ hx => hx }

theorem Consistent.write (hu : u.bind Inside.tentative = none) {c : Store ρ}
    (hshows : Shows (shown start h u) c) : Consistent start h { s with file := some c } u := by
  refine ⟨hc.memory, hc.content, hc.tentative, ?_⟩
  intro c' id f hfile hf
  cases hfile
  have hcurrent : shown start h u id = some f.refresh := hshows id f hf
  rw [shown, hu] at hcurrent
  exact of_latest_eq_some (installs id) hcurrent

theorem Consistent.rotate (hu : u.bind Inside.tentative = none)
    (hr : s.store.rotate r = .ok (previous, store)) :
    Consistent start h { s with store := store } (some (.flushRotation r previous)) := by
  obtain ⟨family, hf, hprevious, hexpected, hnew, hstore⟩ := Store.rotate_ok hr
  have hcurrent : ∀ id f, s.store.families.lookup id = some f →
      current start h id = some f.refresh := by
    intro id f hf
    have hshown := hc.memory id f hf
    rwa [shown, hu] at hshown
  refine ⟨?_, ?_, ?_, hc.file⟩
  · have hshows : Shows (current start h) s.store := hcurrent
    rw [hstore]
    refine hshows.updates (s.store.updates_setRefresh hf r.refresh) fun id x hx => ?_
    show (if id = r.id then some r.refresh else current start h id) =
      some (setAt r.id r.refresh id x)
    unfold setAt
    split
    · rfl
    · exact hx
  · intro c hcontent
    cases hcontent
  · intro r' previous' ht
    cases ht
    rw [hprevious] at hexpected ⊢
    exact ⟨hcurrent r.id family hf, hexpected, hnew⟩

end

theorem Consistent.rollback (hc : Consistent start h s (some (.rollback r previous err))) :
    Consistent start h { s with store := s.store.restore r.id previous } none := by
  obtain ⟨hcurrent, -, -⟩ := hc.tentative r previous rfl
  refine ⟨?_, ?_, ?_, hc.file⟩
  · refine hc.memory.updates (s.store.updates_restore r.id previous) fun id x hx => ?_
    have hx : (if id = r.id then some r.refresh else current start h id) = some x := hx
    show current start h id = some (setAt r.id previous id x)
    unfold setAt
    split
    · rename_i hid
      rw [hid, hcurrent]
    · rename_i hid
      rwa [if_neg hid] at hx
  · intro c hcontent
    cases hcontent
  · intro r' previous' ht
    cases ht

theorem Consistent.accept {content : Store ρ}
    (hc : Consistent start h s (some (.writeRotation r previous content)))
    (he : accepted e.reply = some r) :
    Consistent start (h ++ [e]) { s with file := some content } none := by
  have hinstalls : ∀ id, installs id e = if r.id = id then some r.refresh else none := by
    intro id
    rw [installs, he]
  have hshown : shown start (h ++ [e]) none =
      shown start h (some (.writeRotation r previous content)) := by
    funext id
    show current start (h ++ [e]) id = if id = r.id then some r.refresh else current start h id
    rw [current, latest_append_singleton, hinstalls]
    by_cases hid : r.id = id
    · rw [if_pos hid, if_pos hid.symm, Option.some_or]
    · rw [if_neg hid, if_neg (Ne.symm hid)]
      rfl
  refine ⟨?_, ?_, ?_, ?_⟩
  · rw [hshown]
    exact hc.memory
  · intro c hcontent
    cases hcontent
  · intro r' previous' ht
    cases ht
  · intro c id f hfile hf
    cases hfile
    have hcurrent := hc.content content rfl id f hf
    rw [← hshown] at hcurrent
    exact of_latest_eq_some (installs id) hcurrent

theorem Consistent.create (hc : Consistent start h s u) (hu : u.bind Inside.tentative = none)
    {family : TokenFamily} (hcreate : s.store.create family = .ok store) {c : Saved ρ}
    (he : accepted e.reply = none) (hbefore : e.before.shared = s)
    (hafter : e.after.shared = { s with store := store }) :
    Consistent start (h ++ [e]) { s with store := store } (some (.flush c)) := by
  obtain ⟨hnone, hstore⟩ := Store.create_ok hcreate
  subst hstore
  have hinstalls : ∀ id, installs id e = if id = family.id then some family.refresh else none := by
    intro id
    rw [installs, he]
    rw [hbefore, hafter, created]
    rw [KeyMap.lookup_insert_eq]
    by_cases hid : id = family.id
    · rw [if_pos hid, if_pos hid, hid, hnone]
      rfl
    · rw [if_neg hid, if_neg hid]
      cases s.store.families.lookup id with
      | _ => rfl
  refine ⟨?_, ?_, ?_, ?_⟩
  · intro id f hf
    show current start (h ++ [e]) id = some f.refresh
    rw [current, latest_append_singleton, hinstalls]
    rcases HashMap.of_lookup_insert hf with ⟨hid, rfl⟩ | ⟨hid, hold⟩
    · rw [if_pos hid, Option.some_or]
    · have hshown := hc.memory id f hold
      rw [shown, hu] at hshown
      rw [if_neg hid]
      exact hshown
  · intro c hcontent
    cases hcontent
  · intro r previous ht
    cases ht
  · intro c id f hfile hf
    exact (hc.file c id f hfile hf).append e

theorem enters (ht : approach s t = .enter i) : i.tentative = none ∧ i.content = none := by
  cases t with
  | save => cases ht; exact ⟨rfl, rfl⟩
  | start c =>
    cases c with
    | rotate r | create family | replace change => cases ht; exact ⟨rfl, rfl⟩
    | mutate => cases ht

/-- Without a tentative refresh token the lock is given back as it was taken. -/
theorem Consistent.release (hc : Consistent start h s (some i)) (hi : i.tentative = none) :
    Consistent start h s none :=
  hc.move none hi.symm fun c hcontent => (by cases hcontent)

variable {s' : Repository ρ} (hbefore : e.before.shared = s) (hafter : e.after.shared = s')
include hbefore hafter

/-- A step that keeps every family's identity and accepts no rotation installs nothing. -/
theorem installs_of_updates (he : accepted e.reply = none) (hg : Updates g s.store s'.store)
    (id : String) : installs id e = none := by
  rw [installs, he]
  rw [hbefore, hafter]
  exact created_of_updates hg id

theorem installs_of_same (he : accepted e.reply = none) (hs : s'.store = s.store) (id : String) :
    installs id e = none :=
  installs_of_updates hbefore hafter he
    (show Updates (fun _ x => x) s.store s'.store from hs.symm ▸ Updates.refl s.store) id

/-- A thread outside can only change the store by a mutation. -/
theorem Consistent.outside {t' : Outside ρ} (hc : Consistent start h s u)
    (ht : approach s t = .act s' t') (he : accepted e.reply = none) :
    Consistent start (h ++ [e]) s' u := by
  cases t with
  | save => cases ht
  | start c =>
    cases c with
    | rotate r | create family | replace change => cases ht
    | mutate change =>
      cases ht
      exact (hc.mutate change).quiet
        (installs_of_updates hbefore hafter he (s.store.updates_mutate change))

theorem Consistent.inside {i' : Inside ρ} (hc : Consistent start h s (some i))
    (hi : Turn s i (.act s' i')) (he : accepted e.reply = none) :
    Consistent start (h ++ [e]) s' (some i') := by
  have hquiet := installs_of_same hbefore hafter he
  cases hi with
  | rotate hr =>
    rename_i r previous store
    obtain ⟨family, hf, -, -, -, hstore⟩ := Store.rotate_ok hr
    have hg : Updates (setAt r.id r.refresh) s.store store :=
      hstore ▸ s.store.updates_setRefresh hf r.refresh
    exact (hc.rotate rfl hr).quiet (installs_of_updates hbefore hafter he hg)
  | flushRotation r previous =>
    refine (hc.move (some (.writeRotation r previous s.store)) rfl fun c hcontent => ?_).quiet
      (hquiet rfl)
    cases hcontent
    exact hc.memory
  | fail r previous content err =>
    refine (hc.move (some (.rollback r previous err)) rfl fun c hcontent => ?_).quiet (hquiet rfl)
    cases hcontent
  | create hcreate => exact hc.create rfl hcreate he hbefore hafter
  | flush call =>
    refine (hc.move (some (.write call s.store)) rfl fun c hcontent => ?_).quiet (hquiet rfl)
    cases hcontent
    exact hc.memory

theorem Consistent.leave (hc : Consistent start h s (some i)) (hi : Turn s i (.leave s' reply))
    (he : e.reply = some reply) : Consistent start (h ++ [e]) s' none := by
  have hquiet := fun hreply => installs_of_same hbefore hafter (he ▸ hreply)
  cases hi with
  | refuseRotation => exact (hc.release rfl).quiet (hquiet rfl rfl)
  | accept => exact hc.accept (by rw [he]; rfl)
  | rollback r previous =>
    exact hc.rollback.quiet (installs_of_updates hbefore hafter (by rw [he]; rfl)
      (s.store.updates_restore r.id previous))
  | refuseCreation => exact (hc.release rfl).quiet (hquiet rfl rfl)
  | write c content =>
    exact ((hc.write rfl (hc.content content rfl)).release rfl).quiet
      (hquiet (accepted_saved c _) rfl)
  | failSave c => exact (hc.release rfl).quiet (hquiet (accepted_saved c _) rfl)
  | replace change =>
    have hmutated := hc.mutate change
    exact ((hmutated.write rfl hmutated.memory).release rfl).quiet
      (installs_of_updates hbefore hafter (by rw [he]; rfl) (s.store.updates_mutate change))
  | failReplace => exact (hc.release rfl).quiet (hquiet rfl rfl)

end

theorem Consistent.advance {start : Store ρ} {m : System ρ}
    (hc : Consistent start h m.shared m.inside) (a : Mutex.Act (Outside ρ) Persist) :
    Consistent start (h ++ [eventOf step m a]) (step m a).2.shared (step m a).2.inside := by
  have hstepped := Mutex.stepped approach critical m a
  have hbefore : (eventOf step m a).before.shared = m.shared := rfl
  have hreply : (eventOf step m a).reply = (Mutex.step approach critical m a).1 := rfl
  have hafter : (eventOf step m a).after.shared = (Mutex.step approach critical m a).2.shared := rfl
  show Consistent start (h ++ [eventOf step m a]) (Mutex.step approach critical m a).2.shared
    (Mutex.step approach critical m a).2.inside
  generalize (Mutex.step approach critical m a).1 = reply at hstepped hreply
  generalize (Mutex.step approach critical m a).2.inside = u' at hstepped ⊢
  generalize m.shared = s at hc hstepped hbefore
  generalize m.inside = u at hc hstepped
  cases hstepped with
  | idle => exact hc.quiet (installs_of_same hbefore hafter (by rw [hreply]; rfl) rfl)
  | outside _ t t' _ ht => exact hc.outside hbefore hafter ht (by rw [hreply]; rfl)
  | enter t i ht =>
    obtain ⟨htentative, hcontent⟩ := enters ht
    refine Consistent.quiet (hc.move (some i) htentative fun c hc' => ?_)
      (installs_of_same hbefore hafter (by rw [hreply]; rfl) rfl)
    rw [Option.bind_some, hcontent] at hc'
    cases hc'
  | inside o i i' _ hi =>
    exact hc.inside hbefore hafter (hi ▸ critical_turn o _ i) (by rw [hreply]; rfl)
  | leave o i _ r hi => exact hc.leave hbefore hafter (hi ▸ critical_turn o _ i) hreply

theorem consistent_opened (start : Store ρ) (onDisk : Bool) :
    Consistent start [] (opened start onDisk).shared (opened start onDisk).inside := by
  have hshown : Shows (current start []) start := by
    intro id f hf
    show (start.families.lookup id).map TokenFamily.refresh = some f.refresh
    rw [hf]
    rfl
  refine ⟨hshown, ?_, ?_, ?_⟩
  · intro c hcontent
    cases hcontent
  · intro r previous ht
    cases ht
  · intro c id f hfile hf
    have hfile : (if onDisk then some start else none) = some c := hfile
    split at hfile
    · cases hfile
      exact Or.inl (hshown id f hf)
    · cases hfile

theorem consistent_run (start : Store ρ) (onDisk : Bool)
    (acts : List (Mutex.Act (Outside ρ) Persist)) :
    Consistent start (run step (opened start onDisk) acts)
      (final step (opened start onDisk) acts).shared
      (final step (opened start onDisk) acts).inside :=
  run_history step (I := fun h m => Consistent start h m.shared m.inside)
    (fun _ _ a hc => hc.advance a) (consistent_opened start onDisk) acts

/-! ## Rotations that return -/

section

variable {s s' : Repository ρ} {u u' : Option (Inside ρ)}

theorem inside_of_accepted {reply : Option (Call ρ × QidResult Unit)}
    (h : Mutex.Stepped approach critical s u reply s' u') (hr : accepted reply = some r) :
    ∃ previous content, u = some (.writeRotation r previous content) := by
  cases h with
  | idle _ | outside _ t t' _ ht | enter t i ht | inside o i i' _ hi => cases hr
  | leave o i _ reply hi =>
    have hturn := critical_turn o s i
    rw [hi] at hturn
    cases hturn with
    | accept r' previous content =>
      cases hr
      exact ⟨previous, content, rfl⟩
    | write c content | failSave c content err =>
      rw [accepted_saved] at hr
      cases hr
    | _ => cases hr

theorem inside_of_returned (h : Mutex.Stepped approach critical s u (some reply) s' u') :
    u' = none := by
  cases h with
  | leave => rfl

theorem kept_of_failed
    (h : Mutex.Stepped approach critical s u (some (.rotate r, .error err)) s' u') :
    (s'.store.families.lookup r.id).isSome = (s.store.families.lookup r.id).isSome := by
  cases h with
  | leave o i _ reply hi =>
    have hturn := critical_turn o s i
    rw [hi] at hturn
    generalize hreply : (Call.rotate r, Except.error err) = reply at hturn
    cases hturn with
    | refuseRotation => rfl
    | rollback =>
      cases hreply
      rw [Store.restore]
      cases hf : s.store.families.lookup r.id with
      | none => rw [hf]
      | some =>
        show ((s.store.families.insert r.id _).lookup r.id).isSome = _
        rw [AList.lookup_insert]
        rfl
    | failSave => rfl
    | write => cases congrArg Prod.snd hreply
    | _ => cases hreply

end

/-! ## The guarantees of rotation -/

variable (events : List (Occurrence ρ))

/-- Two rotations of a family are accepted from one refresh hash only if that hash was
installed again between them. -/
def ConsumedOnce : Prop :=
  ∀ xs e₁ ys e₂ zs r₁ r₂, events = xs ++ e₁ :: (ys ++ e₂ :: zs) →
    accepted e₁.reply = some r₁ → accepted e₂.reply = some r₂ → r₁.id = r₂.id →
    r₁.expectedRefreshHash = r₂.expectedRefreshHash →
    ∃ e ∈ ys, ∃ deadline, installs r₁.id e = some ⟨r₁.expectedRefreshHash, deadline⟩

/-- The file holds only refresh tokens of accepted rotations, of creations and of the
store that was opened. -/
def FileInstalled (start : Store ρ) (events : List (Occurrence ρ)) (file : Option (Store ρ)) :
    Prop :=
  ∀ c id f, file = some c → c.families.lookup id = some f → Installed start events id f.refresh

/-- When a rotation has failed, the family is there if it was, with the refresh token
that its last accepted rotation, or its creation, installed. -/
def RolledBack (start : Store ρ) (events : List (Occurrence ρ)) : Prop :=
  ∀ xs e ys r err, events = xs ++ e :: ys → e.reply = some (.rotate r, .error err) →
    (e.after.shared.store.families.lookup r.id).isSome =
      (e.before.shared.store.families.lookup r.id).isSome ∧
    ∀ f, e.after.shared.store.families.lookup r.id = some f →
      current start (xs ++ [e]) r.id = some f.refresh

/-- No step makes a revoked family valid again. -/
def RevocationKept : Prop :=
  ∀ e ∈ events, ∀ id f f', e.before.shared.store.families.lookup id = some f →
    f.revoked = true → e.after.shared.store.families.lookup id = some f' → f'.revoked = true

section

variable (start : Store ρ) (onDisk : Bool) (acts : List (Mutex.Act (Outside ρ) Persist))
  {e : Occurrence ρ}

theorem split_run {start : Store ρ} {onDisk : Bool} {acts : List (Mutex.Act (Outside ρ) Persist)}
    {xs ys : List (Occurrence ρ)} (h : run step (opened start onDisk) acts = xs ++ e :: ys) :
    Consistent start xs e.before.shared e.before.inside ∧
      Consistent start (xs ++ [e]) e.after.shared e.after.inside ∧
      Mutex.Stepped approach critical e.before.shared e.before.inside e.reply e.after.shared
        e.after.inside := by
  obtain ⟨acts₁, a, acts₂, -, rfl, rfl, -⟩ := run_eq_append_cons step h
  have hc := consistent_run start onDisk acts₁
  exact ⟨hc, hc.advance a, Mutex.stepped approach critical _ a⟩

theorem accepted_from_current {xs ys : List (Occurrence ρ)}
    (h : run step (opened start onDisk) acts = xs ++ e :: ys) (hr : accepted e.reply = some r) :
    r.refreshHash ≠ r.expectedRefreshHash ∧
      ∃ previous, current start xs r.id = some previous ∧
        previous.hash = r.expectedRefreshHash := by
  obtain ⟨hc, -, hstepped⟩ := split_run h
  obtain ⟨previous, content, hinside⟩ := inside_of_accepted hstepped hr
  rw [hinside] at hc
  obtain ⟨hcurrent, hexpected, hnew⟩ := hc.tentative r previous rfl
  exact ⟨hnew, previous, hcurrent, hexpected⟩

theorem consumedOnce_run : ConsumedOnce (run step (opened start onDisk) acts) := by
  intro xs e₁ ys e₂ zs r₁ r₂ hsplit h₁ h₂ hid hhash
  obtain ⟨hnew, -⟩ := accepted_from_current start onDisk acts hsplit h₁
  have hsplit₂ : run step (opened start onDisk) acts = (xs ++ e₁ :: ys) ++ e₂ :: zs := by
    rw [hsplit, List.append_assoc, List.cons_append]
  obtain ⟨-, previous, hcurrent, hexpected⟩ := accepted_from_current start onDisk acts hsplit₂ h₂
  have hinstalls : installs r₁.id e₁ = some r₁.refresh := by
    rw [installs, h₁]
    exact if_pos rfl
  rw [← hid, current, latest_append_cons, hinstalls] at hcurrent
  rcases of_latest_eq_some (installs r₁.id) hcurrent with hsame | ⟨e, he, hx⟩
  · -- The first rotation installed another hash than the one both consumed.
    cases hsame
    exact absurd (hexpected.trans hhash.symm) hnew
  · refine ⟨e, he, previous.expiresAt, ?_⟩
    rw [hx, hhash, ← hexpected]

theorem rolledBack_run : RolledBack start (run step (opened start onDisk) acts) := by
  intro xs e ys r err hsplit hreply
  obtain ⟨-, hc, hstepped⟩ := split_run hsplit
  rw [hreply] at hstepped
  refine ⟨kept_of_failed hstepped, fun f hf => ?_⟩
  have hinside := inside_of_returned hstepped
  rw [hinside] at hc
  exact hc.memory r.id f hf

theorem revocationKept_run : RevocationKept (run step (opened start onDisk) acts) := by
  intro e he id f f' hf hrevoked hf'
  obtain ⟨xs, ys, hsplit⟩ := List.append_of_mem he
  obtain ⟨-, -, hstepped⟩ := split_run hsplit
  exact (stepped_rewrites hstepped).revoked hf hf' hrevoked

/-- In every interleaving of the calls, with every write failing or not: a refresh hash is consumed
once each time it is installed, the file never holds the refresh token of a failed rotation, a
failed rotation leaves the refresh token of the last accepted one, and revocation is final. -/
theorem rotation_atomic :
    ConsumedOnce (run step (opened start onDisk) acts) ∧
      FileInstalled start (run step (opened start onDisk) acts)
        (final step (opened start onDisk) acts).shared.file ∧
      RolledBack start (run step (opened start onDisk) acts) ∧
      RevocationKept (run step (opened start onDisk) acts) :=
  ⟨consumedOnce_run start onDisk acts, (consistent_run start onDisk acts).file,
    rolledBack_run start onDisk acts, revocationKept_run start onDisk acts⟩

end

def AtMostOnce : Prop :=
  ∀ id hash, (events.filter fun e => (accepted e.reply).any fun r =>
    r.id = id ∧ r.expectedRefreshHash = hash).length ≤ 1

/-- The file holds no refresh hash that a failed rotation of the family asked for. -/
def NoFailedHash (file : Option (Store ρ)) : Prop :=
  ∀ c f, file = some c → ∀ e ∈ events, ∀ r err, e.reply = some (.rotate r, .error err) →
    c.families.lookup r.id = some f → f.currentRefreshHash ≠ r.refreshHash

namespace Sample

def family : TokenFamily :=
  { id := "family"
    realmId := "realm"
    currentRefreshHash := "a"
    refreshExpiresAt := none
    revoked := false }

def rotation (expected new : String) : Rotation :=
  { id := "family"
    realmId := "realm"
    expectedRefreshHash := expected
    refreshHash := new
    refreshExpiresAt := 100 }

/-- With `n` steps inside the lock. -/
def alone (c : Call Unit) (n : Nat) : List (Mutex.Act (Outside Unit) Persist) :=
  [.start (.start c), .outside 0] ++ List.replicate n (.inside .done)

/-- From "a" to "b", back to "a" and on to "c", and the last rotation is then tried again. -/
def acts : List (Mutex.Act (Outside Unit) Persist) :=
  alone (.create family) 3 ++ alone (.rotate (rotation "a" "b")) 3 ++
    alone (.rotate (rotation "b" "a")) 3 ++ alone (.rotate (rotation "a" "c")) 3 ++
    alone (.rotate (rotation "a" "c")) 1

def start : Store Unit := { families := ∅, rest := () }

end Sample

open Sample

/-- A refresh hash that is installed again can be consumed again; and a failed rotation may ask for
the hash another one installed. -/
theorem refresh_hash_reused :
    ¬ AtMostOnce (run step (opened start true) acts) ∧
      ¬ NoFailedHash (run step (opened start true) acts)
        (final step (opened start true) acts).shared.file := by
  constructor
  · intro h
    exact absurd (h "family" "a") (by decide +kernel)
  · intro h
    obtain ⟨c, hfile, f, hf, hhash⟩ : ∃ c, (final step (opened start true)
        acts).shared.file = some c ∧ ∃ f, c.families.lookup "family" = some f ∧
          f.currentRefreshHash = "c" := ⟨_, rfl, _, rfl, rfl⟩
    exact h c f hfile _ (List.getLast_mem (by decide +kernel)) (rotation "a" "c") _ rfl hf hhash

end Qid.Token
