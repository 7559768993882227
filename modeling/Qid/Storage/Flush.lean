/-
The interval flush mode of the file repository.

A flush clears the mark, takes the save lock, copies the store and writes the copy; if the write
fails it marks the store again. `Owed` adds to the mark what the calls in progress still have to do,
and the invariant is that the file, or the copy about to replace it, holds the store unless a write
is owed.
-/
import Mathlib.Data.List.Induction
import Qid.Lib.Mutex
import Qid.Lib.Run
import Qid.Storage.Persist

namespace Qid.Storage
namespace Interval

open Lib

structure Repository (σ : Type) where
  store : σ
  file : Option σ
  dirty : Bool
  deriving DecidableEq

variable {σ : Type} (empty : σ)

/-- The store that opening the file gives: `Store::default()` if there is none. -/
def Repository.saved (r : Repository σ) : σ := r.file.getD empty

inductive Outside (σ : Type) where
  | mutate (change : σ → QidResult σ)
  | save
  | flush
  /-- The flag is cleared and `flush_store` asks for the save lock. -/
  | flushStore
  /-- The write of a flush failed and its lock is released. -/
  | restore (e : QidError)
  /-- A call such as `mutate_push_value`, with what it makes of the store. -/
  | writeThrough (change : σ → QidResult (Option σ))
  | returned (r : QidResult Unit)

inductive Inside (σ : Type) where
  | flushStoreLocked
  | writeStoreContentLocked (content : σ)
  | writeThrough (change : σ → QidResult (Option σ))

/-- With its result so far. -/
inductive Reply where
  | flush (r : QidResult Unit)
  | writeThrough (r : QidResult Unit)
  deriving DecidableEq

def approach (s : Repository σ) : Outside σ → Mutex.Approach (Repository σ) (Outside σ) (Inside σ)
  | .mutate change =>
    match change s.store with
    | .error e => .act s (.returned (.error e))
    | .ok store => .act { s with store := store } .save
  | .save => .act { s with dirty := true } (.returned (.ok ()))
  | .flush =>
    if s.dirty then .act { s with dirty := false } .flushStore
    else .act s (.returned (.ok ()))
  | .flushStore => .enter .flushStoreLocked
  | .restore e => .act { s with dirty := true } (.returned (.error e))
  | .writeThrough change => .enter (.writeThrough change)
  | .returned r => .act s (.returned r)

def critical (persist : Persist) (s : Repository σ) :
    Inside σ → Mutex.Section (Repository σ) (Inside σ) Reply
  | .flushStoreLocked => .act s (.writeStoreContentLocked s.store)
  | .writeStoreContentLocked content =>
    match persist.result with
    | .ok () => .leave { s with file := some content } (.flush (.ok ()))
    | .error e => .leave s (.flush (.error e))
  | .writeThrough change =>
    match change s.store with
    | .error e => .leave s (.writeThrough (.error e))
    | .ok none => .leave s (.writeThrough (.ok ()))
    | .ok (some store) =>
      match persist.result with
      | .ok () => .leave { s with store := store, file := some store } (.writeThrough (.ok ()))
      | .error e => .leave s (.writeThrough (.error e))

/-- What a call has still to do once it has given the save lock back. -/
def Reply.remaining : Reply → List (Outside σ)
  | .flush (.error e) => [.restore e]
  | .flush (.ok ()) | .writeThrough _ => []

abbrev System (σ : Type) : Type := Mutex (Repository σ) (Outside σ) (Inside σ)

abbrev Act (σ : Type) : Type := Mutex.Act (Outside σ) Persist

variable (m : System σ)

def step (a : Act σ) : Option Reply × System σ :=
  let next := Mutex.step approach critical m a
  (next.1, { next.2 with outside := next.2.outside ++ next.1.elim [] Reply.remaining })

/-- With the store it made of the content where records had to be moved to other keys; it is then
saved. -/
def opened (file rekeyed : Option σ) : System σ :=
  { shared := { store := rekeyed.getD (file.getD empty), file := file, dirty := rekeyed.isSome }
    inside := none
    outside := [] }

def Quiescent : Prop := m.inside = none ∧ ∀ t ∈ m.outside, ∃ r, t = .returned r

/-- The call marks the store, or writes it, before it returns. -/
def Outside.owes : Outside σ → Bool
  | .save | .flushStore | .restore _ => true
  | .mutate _ | .flush | .writeThrough _ | .returned _ => false

/-- A write of the store as it is now is still to come. -/
def Owed : Prop :=
  m.shared.dirty = true ∨ (∃ t ∈ m.outside, t.owes = true) ∨ m.inside = some .flushStoreLocked

/-- What the file holds once the write in progress, if there is one, is done. -/
def target : σ :=
  match m.inside with
  | some (.writeStoreContentLocked content) => content
  | _ => m.shared.saved empty

def Sound : Prop := target empty m = m.shared.store ∨ Owed m

variable {m : System σ}

theorem Owed.of_quiescent (hq : Quiescent m) (h : Owed m) : m.shared.dirty = true := by
  rcases h with hdirty | ⟨t, ht, howes⟩ | hin
  · exact hdirty
  · obtain ⟨r, rfl⟩ := hq.2 t ht
    cases howes
  · rw [hq.1] at hin
    cases hin

variable {t t' : Outside σ} {s : Repository σ}

/-- A step outside the lock changes nothing, or leaves a write owed. -/
theorem approach_act {s' : Repository σ} (h : approach s t = .act s' t') :
    s' = s ∧ t.owes = false ∨ s'.dirty = true ∨ t'.owes = true := by
  cases t with
  | mutate =>
    rw [approach] at h
    split at h
    · cases h
      exact Or.inl ⟨rfl, rfl⟩
    · cases h
      exact Or.inr (Or.inr rfl)
  | save =>
    cases h
    exact Or.inr (Or.inl rfl)
  | flush =>
    rw [approach] at h
    split at h
    · cases h
      exact Or.inr (Or.inr rfl)
    · cases h
      exact Or.inl ⟨rfl, rfl⟩
  | flushStore => cases h
  | restore =>
    cases h
    exact Or.inr (Or.inl rfl)
  | writeThrough => cases h
  | returned =>
    cases h
    exact Or.inl ⟨rfl, rfl⟩

theorem approach_enter {u : Inside σ} (h : approach s t = .enter u) :
    u = .flushStoreLocked ∨ t.owes = false ∧ ∃ change, u = .writeThrough change := by
  cases t with
  | mutate =>
    rw [approach] at h
    split at h <;> cases h
  | save => cases h
  | flush =>
    rw [approach] at h
    split at h <;> cases h
  | flushStore =>
    cases h
    exact Or.inl rfl
  | restore => cases h
  | writeThrough change =>
    cases h
    exact Or.inr ⟨rfl, change, rfl⟩
  | returned => cases h

inductive Turn (s : Repository σ) :
    Inside σ → Mutex.Section (Repository σ) (Inside σ) Reply → Prop
  | copy : Turn s .flushStoreLocked (.act s (.writeStoreContentLocked s.store))
  | write (content : σ) :
      Turn s (.writeStoreContentLocked content)
        (.leave { s with file := some content } (.flush (.ok ())))
  | fail (content : σ) (e : QidError) :
      Turn s (.writeStoreContentLocked content) (.leave s (.flush (.error e)))
  | keep (change : σ → QidResult (Option σ)) (r : QidResult Unit) :
      Turn s (.writeThrough change) (.leave s (.writeThrough r))
  | replace (change : σ → QidResult (Option σ)) (store : σ) :
      Turn s (.writeThrough change)
        (.leave { s with store := store, file := some store } (.writeThrough (.ok ())))

theorem critical_turn (persist : Persist) (s : Repository σ) (u : Inside σ) :
    Turn s u (critical persist s u) := by
  cases u with
  | flushStoreLocked => exact Turn.copy
  | writeStoreContentLocked content =>
    rw [critical]
    split
    · exact Turn.write content
    · exact Turn.fail content _
  | writeThrough change =>
    rw [critical]
    split
    · exact Turn.keep change _
    · exact Turn.keep change _
    · split
      · exact Turn.replace change _
      · exact Turn.keep change _

/-- What one step does, with the parts of the source it stands for. -/
inductive Stepped (m : System σ) : Option Reply → System σ → Prop
  | start (t : Outside σ) : Stepped m none { m with outside := m.outside ++ [t] }
  | idle : Stepped m none m
  | outside (xs ys : List (Outside σ)) (t t' : Outside σ) (s : Repository σ)
      (hat : m.outside = xs ++ t :: ys) (h : approach m.shared t = .act s t') :
      Stepped m none { m with shared := s, outside := xs ++ t' :: ys }
  | enter (xs ys : List (Outside σ)) (t : Outside σ) (u : Inside σ)
      (hat : m.outside = xs ++ t :: ys) (hfree : m.inside = none)
      (h : approach m.shared t = .enter u) :
      Stepped m none { m with inside := some u, outside := xs ++ ys }
  | inside (u u' : Inside σ) (s : Repository σ) (hin : m.inside = some u)
      (h : Turn m.shared u (.act s u')) :
      Stepped m none { m with shared := s, inside := some u' }
  | leave (u : Inside σ) (s : Repository σ) (r : Reply) (hin : m.inside = some u)
      (h : Turn m.shared u (.leave s r)) :
      Stepped m (some r) { shared := s, inside := none, outside := m.outside ++ r.remaining }

theorem stepped (m : System σ) (a : Act σ) : Stepped m (step m a).1 (step m a).2 := by
  have h := Mutex.moved approach critical m a
  rw [step]
  generalize (Mutex.step approach critical m a).1 = reply at h ⊢
  generalize (Mutex.step approach critical m a).2 = m' at h ⊢
  cases h with
  | start t =>
    simp only [Option.elim_none, List.append_nil]
    exact Stepped.start t
  | idle =>
    simp only [Option.elim_none, List.append_nil]
    exact Stepped.idle
  | outside xs ys t t' s hat h =>
    simp only [Option.elim_none, List.append_nil]
    exact Stepped.outside xs ys t t' s hat h
  | enter xs ys t u hat hfree h =>
    simp only [Option.elim_none, List.append_nil]
    exact Stepped.enter xs ys t u hat hfree h
  | inside o u u' s hin h =>
    simp only [Option.elim_none, List.append_nil]
    exact Stepped.inside u u' s hin (h ▸ critical_turn o m.shared u)
  | leave o u s r hin h => exact Stepped.leave u s r hin (h ▸ critical_turn o m.shared u)

theorem Owed.mono {m' : System σ} (h : Owed m)
    (hdirty : m.shared.dirty = true → m'.shared.dirty = true)
    (hout : ∀ t ∈ m.outside, t.owes = true → t ∈ m'.outside)
    (hin : m.inside = some .flushStoreLocked → m'.inside = some .flushStoreLocked) : Owed m' := by
  rcases h with h | ⟨t, ht, howes⟩ | h
  · exact Or.inl (hdirty h)
  · exact Or.inr (Or.inl ⟨t, hout t ht howes, howes⟩)
  · exact Or.inr (Or.inr (hin h))

/-- A call that owes nothing hides no call that does. -/
theorem mem_of_owes {xs ys : List (Outside σ)} (zs : List (Outside σ)) (ht : t.owes = false)
    (ht' : t' ∈ xs ++ t :: ys) (howes : t'.owes = true) : t' ∈ xs ++ (zs ++ ys) := by
  have hne : t' ≠ t := fun heq => by
    rw [heq, ht] at howes
    cases howes
  simp only [List.mem_append, List.mem_cons] at ht' ⊢
  tauto

theorem Sound.step {empty : σ} (h : Sound empty m) (a : Act σ) : Sound empty (step m a).2 := by
  have hstepped := stepped m a
  generalize (Interval.step m a).1 = reply at hstepped
  generalize (Interval.step m a).2 = m' at hstepped ⊢
  cases hstepped with
  | start =>
    exact h.imp_right fun howed => howed.mono id (fun t' ht' _ => List.mem_append_left _ ht') id
  | idle => exact h
  | outside xs ys t t' s hat hact =>
    rcases approach_act hact with ⟨rfl, howes⟩ | hdirty | howes
    · exact h.imp_right fun howed =>
        howed.mono id (fun t'' ht'' => mem_of_owes [t'] howes (hat ▸ ht'')) id
    · exact Or.inr (Or.inl hdirty)
    · exact Or.inr (Or.inr (Or.inl ⟨t', List.mem_append_cons_self, howes⟩))
  | enter xs ys t u hat hfree henter =>
    rcases approach_enter henter with rfl | ⟨howes, change, rfl⟩
    · exact Or.inr (Or.inr (Or.inr rfl))
    · rw [Sound, target, hfree] at h
      refine h.imp_right fun howed => ?_
      refine howed.mono id (fun t' ht' => mem_of_owes [] howes (hat ▸ ht')) fun hin => ?_
      rw [hfree] at hin
      cases hin
  | inside u u' s hin hturn =>
    cases hturn with
    | copy => exact Or.inl rfl
  | leave u s r hin hturn =>
    have hkept : Owed m → u ≠ .flushStoreLocked → s.dirty = m.shared.dirty →
        Owed ⟨s, none, m.outside ++ r.remaining⟩ := by
      intro howed hu hdirty
      refine howed.mono hdirty.trans (fun t ht _ => List.mem_append_left _ ht)
        fun hcopy => absurd (Option.some.inj (hin.symm.trans hcopy)) hu
    rw [Sound, target, hin] at h
    cases hturn with
    | write => exact h.imp_right fun howed => hkept howed nofun rfl
    | fail content e =>
      -- the flag is not set yet, but the flush has still to set it
      exact Or.inr (Or.inr (Or.inl ⟨.restore e, List.mem_append_cons_self, rfl⟩))
    | keep => exact h.imp_right fun howed => hkept howed nofun rfl
    | replace => exact Or.inl rfl

/-- The copy a flush holds was the store at some time since no call was in progress. -/
theorem content_reached (hq : Quiescent m) (ks : List (Act σ)) {content : σ}
    (h : (final step m ks).inside = some (.writeStoreContentLocked content)) :
    ∃ ls, ls <+: ks ∧ content = (final step m ls).shared.store := by
  induction ks using List.reverseRecOn generalizing content with
  | nil =>
    rw [final_nil, hq.1] at h
    cases h
  | append_singleton ks a ih =>
    have hstepped := stepped (final step m ks) a
    rw [final_append, final_cons] at h
    generalize (step (final step m ks) a).1 = reply at hstepped
    generalize (step (final step m ks) a).2 = m' at hstepped h
    have hlater : (final step m ks).inside = some (.writeStoreContentLocked content) →
        ∃ ls, ls <+: ks ++ [a] ∧ content = (final step m ls).shared.store := by
      intro hin
      obtain ⟨ls, hls, hcontent⟩ := ih hin
      exact ⟨ls, hls.trans (List.prefix_append ks [a]), hcontent⟩
    cases hstepped with
    | start t | idle | outside xs ys t t' s hat hact => exact hlater h
    | enter xs ys t u hat hfree henter =>
      cases h
      rcases approach_enter henter with hu | ⟨-, change, hu⟩ <;> cases hu
    | inside u u' s hin hturn =>
      cases hturn with
      | copy =>
        cases h
        exact ⟨ks, List.prefix_append ks [a], rfl⟩
    | leave => cases h

/-- From a state with `n` calls outside the lock. -/
def flushAlone (n : Nat) : List (Act σ) :=
  [.start .flush, .outside n, .outside n, .inside .done, .inside .done]

theorem final_flushAlone (hfree : m.inside = none) (hdirty : m.shared.dirty = true) :
    final step m (flushAlone m.outside.length) =
      { m with
        shared := { store := m.shared.store, file := some m.shared.store, dirty := false } } := by
  obtain ⟨⟨store, file, dirty⟩, inside, outside⟩ := m
  cases hfree
  cases hdirty
  simp [flushAlone, step, Mutex.step, approach, critical, Persist.result, Reply.remaining,
    List.eraseIdx_append_of_length_le]

/-- With no call in progress, a store that is not marked is the one on disk; one that is not on disk
is marked, and is then written by a flush on its own. Among other calls, what a flush writes is
never older than the state the run continues from. -/
theorem flush_loses_no_update (empty : σ) (file rekeyed : Option σ) (ks : List (Act σ))
    (m : System σ) (hm : m = final step (opened empty file rekeyed) ks) (hq : Quiescent m) :
    (m.shared.dirty = false → m.shared.saved empty = m.shared.store) ∧
    (m.shared.saved empty ≠ m.shared.store → m.shared.dirty = true) ∧
    (m.shared.dirty = true →
      (final step m (flushAlone m.outside.length)).shared =
        { store := m.shared.store, file := some m.shared.store, dirty := false }) ∧
    (∀ later a, (step (final step m later) a).1 = some (.flush (.ok ())) →
      ∃ ls, ls <+: later ∧
        (step (final step m later) a).2.shared.file = some (final step m ls).shared.store) := by
  have hsound : Sound empty m := by
    rw [hm]
    refine final_invariant step (fun _ a h => h.step a) ?_ ks
    cases rekeyed with
    | none => exact Or.inl rfl
    | some => exact Or.inr (Or.inl rfl)
  rw [Sound, target, hq.1] at hsound
  refine ⟨fun hclean => ?_, fun hne => ?_, fun hdirty => ?_, fun later a hflush => ?_⟩
  · rcases hsound with heq | howed
    · exact heq
    · rw [howed.of_quiescent hq] at hclean
      cases hclean
  · rcases hsound with heq | howed
    · exact absurd heq hne
    · exact howed.of_quiescent hq
  · rw [final_flushAlone hq.1 hdirty]
  · have hstepped := stepped (final step m later) a
    rw [hflush] at hstepped
    generalize (step (final step m later) a).2 = m' at hstepped ⊢
    cases hstepped with
    | leave u s r hin hturn =>
      cases hturn with
      | write =>
        obtain ⟨ls, hls, hcontent⟩ := content_reached hq later hin
        exact ⟨ls, hls, congrArg some hcontent⟩

/-- A flush starts before the store is marked and finds nothing to write. -/
def sampleRun : List (Act Nat) :=
  [.start (.mutate fun n => .ok (n + 1)), .outside 0, .start .flush, .outside 1, .outside 0]

theorem flush_loses_no_update_sample :
    (final step (opened 0 none none) sampleRun).shared =
      { store := 1, file := none, dirty := true } ∧
    (final step (opened 0 none none) (sampleRun ++ flushAlone 2)).shared =
      { store := 1, file := some 1, dirty := false } := by
  have hstate : final step (opened 0 none none) sampleRun =
      { shared := { store := 1, file := none, dirty := true }
        inside := none
        outside := [.returned (.ok ()), .returned (.ok ())] } := rfl
  have hq : Quiescent (final step (opened 0 none none) sampleRun) := by
    rw [hstate]
    exact ⟨rfl, by simp⟩
  refine ⟨by rw [hstate], ?_⟩
  exact (flush_loses_no_update 0 none none sampleRun _ rfl hq).2.2.1 (by rw [hstate])

end Interval
end Qid.Storage
