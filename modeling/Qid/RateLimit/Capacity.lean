/-
Refusals at capacity.

The limiter prunes only once `next_expiry` has come, so a new key is refused in vain if that is
later than the end of a tracked window. A commit makes it so when it shortens a window that runs.
-/
import Qid.RateLimit.Bound

namespace Qid.RateLimit.RateLimiter

open Lib
open Dpop (saturatingAdd)

structure Admission where
  now : Instant
  user : Option String
  userLimit : AxisLimit
  tenant : Option String
  tenantLimit : AxisLimit

def Admission.axes (a : Admission) : List Axis :=
  userTenantAxes a.user a.userLimit a.tenant a.tenantLimit

def answer (limiter : RateLimiter) (s : RateLimitState) (a : Admission) : Bool × RateLimitState :=
  limiter.checkUserTenant s a.now a.user a.userLimit a.tenant a.tenantLimit

/-- `next_expiry` is not later than the end of any tracked window. -/
def Timely (s : RateLimitState) : Prop :=
  ∀ key entry, s.entries.lookup key = some entry → s.nextExpiry ≤ entry.expiry

/-- A window that runs is not made shorter. -/
def keepsWindow (entries : Entries) (now : Instant) (axis : Axis) : Bool :=
  (entries.lookup axis.1).all fun entry =>
    saturatingAdd entry.windowStart axis.2.windowSeconds ≤ now.val ||
      entry.windowSeconds ≤ axis.2.windowSeconds

def keepsWindows (s : RateLimitState) (a : Admission) : Bool :=
  a.axes.all (keepsWindow s.entries a.now)

/-- Every axis has room, and yet the call is refused. -/
def RefusedAtCapacity (e : Event RateLimitState Admission Bool) (plan : Plan) : Prop :=
  planAxes e.before.entries e.call.now e.call.axes = some plan ∧ e.reply = false

variable {limiter : RateLimiter} {s : RateLimitState} {now : Instant} {key : RateLimitKey}
  {limit : AxisLimit} {plan : Plan}

theorem timely_pruneExpired : Timely (s.pruneExpired now) := by
  intro key entry hentry
  simp only [RateLimitState.pruneExpired] at hentry ⊢
  generalize KeyMap.filter _ s.entries = entries at hentry ⊢
  have hmem : entry.expiry ∈ entries.values.map WindowEntry.expiry :=
    List.mem_map_of_mem (List.mem_map_of_mem (AList.mem_lookup_iff.mp hentry))
  cases hmin : (entries.values.map WindowEntry.expiry).min? with
  | none => simp [List.min?_eq_none_iff.mp hmin] at hmem
  | some least => exact (List.min?_eq_some_iff.mp hmin).2 _ hmem

theorem Timely.commit (h : Timely s) (hkeeps : keepsWindow s.entries now (key, limit) = true)
    (count : Nat) : Timely (commit s key now limit count) := by
  intro key' entry hentry
  by_cases hkey : key' = key
  · subst hkey
    simp only [RateLimiter.commit, AList.lookup_insert, Option.some.injEq] at hentry ⊢
    subst hentry
    cases hfound : s.entries.lookup key' with
    | none =>
      simp only [WindowEntry.expiry, Option.getD_none, ite_self]
      exact Nat.min_le_right _ _
    | some old =>
      have hold := h key' old hfound
      simp only [keepsWindow, hfound, Option.all_some, Bool.or_eq_true, decide_eq_true_eq] at hkeeps
      simp only [WindowEntry.expiry, saturatingAdd, Option.getD_some] at hold hkeeps ⊢
      by_cases hended : min (old.windowStart + limit.windowSeconds) Dpop.u64Max ≤ now.val
      · simp only [hended, if_true]; omega
      · simp only [hended, if_false]; omega
  · rw [lookup_commit_of_ne hkey] at hentry
    exact Nat.le_trans (Nat.min_le_left _ _) (h key' entry hentry)

theorem Timely.commitPlan (h : Timely s) (hkeys : (plan.map Prod.fst).Nodup)
    (hkeeps : ∀ p ∈ plan, keepsWindow s.entries now (p.1, p.2.1) = true) :
    Timely (commitPlan now plan s) := by
  induction plan generalizing s with
  | nil => exact h
  | cons p plan ih =>
    rw [List.map_cons, List.nodup_cons] at hkeys
    refine ih (h.commit (hkeeps p List.mem_cons_self) p.2.2) hkeys.2 fun q hq => ?_
    have hne : q.1 ≠ p.1 := fun heq => hkeys.1 (heq ▸ List.mem_map_of_mem hq)
    rw [keepsWindow, lookup_commit_of_ne hne]
    exact hkeeps q (List.mem_cons_of_mem p hq)

theorem keepsWindow_reserved {s' : RateLimitState} (h : s' = s ∨ s' = s.pruneExpired now)
    {axis : Axis} (hkeeps : keepsWindow s.entries now axis = true) :
    keepsWindow s'.entries now axis = true := by
  rcases h with rfl | rfl
  · exact hkeeps
  · rw [keepsWindow] at hkeeps ⊢
    rw [RateLimitState.lookup_pruneExpired]
    cases hfound : s.entries.lookup axis.1 with
    | none => rfl
    | some entry =>
      rw [hfound] at hkeeps
      rw [Option.filter_some]
      split
      · exact hkeeps
      · rfl

theorem axes_of_planAxes {entries : Entries} {axes : List Axis}
    (h : planAxes entries now axes = some plan) : plan.map (fun p => (p.1, p.2.1)) = axes := by
  induction axes generalizing plan with
  | nil => cases h; rfl
  | cons axis axes ih =>
    rw [planAxes] at h
    split at h
    · cases h
    · obtain ⟨rest, hrest, rfl⟩ := Option.map_eq_some_iff.mp h
      rw [List.map_cons, ih hrest]

theorem Admission.axes_nodup (a : Admission) : (a.axes.map Prod.fst).Nodup := by
  rw [axes, userTenantAxes]
  cases a.user <;> cases a.tenant <;> simp

theorem Timely.answer (h : Timely s) (a : Admission) (hkeeps : keepsWindows s a = true) :
    Timely (limiter.answer s a).2 := by
  rw [RateLimiter.answer, checkUserTenant]
  split
  · exact h
  · rename_i plan hplan
    have hcases := (limiter.reservePlan_cases s plan a.now).1
    have haxes := axes_of_planAxes hplan
    have hreserved : Timely (limiter.reservePlan s plan a.now).2 := by
      rcases hcases with hsame | hsame <;> rw [hsame]
      · exact h
      · exact timely_pruneExpired
    split
    · rename_i heq
      rwa [heq] at hreserved
    · rename_i heq
      rw [heq] at hcases hreserved
      refine hreserved.commitPlan ?_ fun p hp => keepsWindow_reserved hcases ?_
      · have hnodup := a.axes_nodup
        rwa [Admission.axes, ← haxes, List.map_map] at hnodup
      · refine List.all_eq_true.mp hkeeps _ ?_
        rw [Admission.axes, ← haxes]
        exact List.mem_map_of_mem hp

theorem Timely.refused {a : Admission} (h : Timely s)
    (hplan : planAxes s.entries a.now a.axes = some plan)
    (hreply : (limiter.answer s a).1 = false) :
    limiter.maxEntries <
      (s.pruneExpired a.now).entries.size + needed (s.pruneExpired a.now) plan := by
  have hrefused : (limiter.reservePlan s plan a.now).1 = false := by
    rw [RateLimiter.answer, checkUserTenant, ← Admission.axes, hplan] at hreply
    dsimp only at hreply
    split at hreply
    · rename_i heq
      rw [heq]
    · cases hreply
  simp only [reservePlan, decide_eq_false_iff_not, Nat.not_le] at hrefused
  by_cases hnow : s.nextExpiry ≤ a.now.val
  · by_cases hfull : limiter.maxEntries < s.entries.size + needed s plan
    · rwa [if_pos ⟨hfull, hnow⟩] at hrefused
    · rw [if_neg fun h => hfull h.1] at hrefused
      exact absurd hrefused hfull
  · rw [if_neg fun h => hnow h.2] at hrefused
    -- while no window has ended, pruning leaves the map as it is
    have hsame : (s.pruneExpired a.now).entries = s.entries := by
      refine AList.ext (List.filter_eq_self.mpr fun e he => decide_eq_true ?_)
      have hle := h e.1 e.2 (AList.mem_lookup_iff.mpr he)
      omega
    rwa [needed, hsame]

/-- In every run in which no call shortens a window that runs, `next_expiry` is timely, and a call
is refused at capacity only if its keys would not fit into the pruned map either. -/
theorem capacity_refusals_needed (limiter : RateLimiter) (calls : List Admission)
    (hkeeps : ∀ e ∈ run limiter.answer {} calls, keepsWindows e.before e.call = true) :
    ∀ e ∈ run limiter.answer {} calls, Timely e.before ∧ Timely e.after ∧
      ∀ plan, RefusedAtCapacity e plan → limiter.maxEntries <
        (e.before.pruneExpired e.call.now).entries.size +
          needed (e.before.pruneExpired e.call.now) plan := by
  intro e he
  have hrun := (run_invariant limiter.answer (I := Timely) (fun s a h hG => h.answer a hG)
    (fun key entry h => by cases h) hkeeps).1 e he
  obtain ⟨before, a, -, rfl⟩ := of_mem_run limiter.answer he
  exact ⟨hrun.1, hrun.2, fun plan hplan => hrun.1.refused hplan.1 hplan.2⟩

def sampleAdmission (now : Instant) (user : String) (window : Nat) : Admission :=
  ⟨now, some user, ⟨5, window⟩, none, ⟨5, window⟩⟩

theorem capacity_refusals_needed_sample :
    keepsWindows {} (sampleAdmission 0 "a" 10) = true ∧
      ∀ e ∈ run ({ maxEntries := 1 } : RateLimiter).answer {}
          [sampleAdmission 0 "a" 10, sampleAdmission 5 "b" 10, sampleAdmission 10 "b" 10],
        Timely e.before ∧ Timely e.after ∧ ∀ plan, RefusedAtCapacity e plan →
          1 < (e.before.pruneExpired e.call.now).entries.size +
            needed (e.before.pruneExpired e.call.now) plan :=
  ⟨by decide, capacity_refusals_needed { maxEntries := 1 } _ (by decide +kernel)⟩

/-- The second call leaves a window that ends at 10 and the bound 15, so the new key is refused at
12. -/
theorem shortened_window_refuses :
    ((run ({ maxEntries := 1 } : RateLimiter).answer {}
        [sampleAdmission 0 "a" 100, sampleAdmission 5 "a" 10, sampleAdmission 12 "b" 10]).map
      fun e => (e.reply, e.after.nextExpiry,
        (planAxes e.before.entries e.call.now e.call.axes).map fun plan =>
          (e.before.pruneExpired e.call.now).entries.size +
            needed (e.before.pruneExpired e.call.now) plan)) =
      [(true, 100, some 1), (true, 15, some 1), (false, 15, some 1)] := by
  decide +kernel

end Qid.RateLimit.RateLimiter
