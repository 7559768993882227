/-
The bound of the rate limiter.

`Effect` says what a call that counts requests does to the map: it prunes what has ended and counts
keys that have room. For one key, the steps are the advances of a fixed window.
-/
import Mathlib.Data.List.ReduceOption
import Qid.Lib.FixedWindow
import Qid.RateLimit.Limiter

namespace Qid.RateLimit

open Lib Lib.FixedWindow
open Dpop (saturatingAdd u64Max)

/-- A clock that is read stays below the point where sums saturate. -/
theorem lt_saturatingAdd (now : Instant) (a b : Nat) :
    now.val < saturatingAdd a b ↔ now.val < a + b := by
  rw [saturatingAdd, u64Max]
  omega

theorem saturatingAdd_le (now : Instant) (a b : Nat) :
    saturatingAdd a b ≤ now.val ↔ a + b ≤ now.val := by
  rw [← Nat.not_lt, lt_saturatingAdd, Nat.not_lt]

def Windowed (window : RateLimitKey → Nat) (entries : Entries) : Prop :=
  ∀ key entry, entries.lookup key = some entry → entry.windowSeconds = window key

variable {limit : AxisLimit} {count : Nat}

section

variable {entries : Entries} {key : RateLimitKey} {entry : WindowEntry} {now : Instant}
  {window : Nat}

def running (entries : Entries) (key : RateLimitKey) (now : Instant) (window : Nat) :
    Option WindowEntry :=
  (entries.lookup key).filter fun entry => now.val < entry.windowStart + window

theorem running_eq_some : running entries key now window = some entry ↔
    entries.lookup key = some entry ∧ now.val < entry.windowStart + window := by
  rw [running, Option.filter_eq_some_iff, decide_eq_true_eq]

theorem windowCount_eq (entries : Entries) (key : RateLimitKey) (now : Instant) (window : Nat) :
    windowCount entries key now window = (running entries key now window).elim 0 (·.count) := by
  rw [windowCount, running]
  cases entries.lookup key with
  | none => rfl
  | some entry => by_cases hlive : now.val < entry.windowStart + window <;>
      simp [Option.filter_some, lt_saturatingAdd, hlive]

theorem ended_of_running (h : running entries key now window = none)
    (hfound : entries.lookup key = some entry) : entry.windowStart + window ≤ now.val := by
  by_contra hlive
  cases h.symm.trans (running_eq_some.mpr ⟨hfound, Nat.not_le.mp hlive⟩)

/-- An axis that admits a request has room, and says what the count will be. -/
theorem of_axisState (h : axisState entries key now limit = .admitted count) :
    windowCount entries key now limit.windowSeconds < limit.max.val ∧
      count = windowCount entries key now limit.windowSeconds + 1 := by
  rw [axisState] at h
  split at h
  · cases h
  · cases h
    refine ⟨by omega, ?_⟩
    rw [u32Max]
    omega

end

variable {window : RateLimitKey → Nat}

namespace RateLimitState

variable (s : RateLimitState) (now : Instant) (key : RateLimitKey)

theorem lookup_pruneExpired :
    (s.pruneExpired now).entries.lookup key =
      (s.entries.lookup key).filter fun entry => now.val < entry.expiry :=
  KeyMap.lookup_filter _ s.entries key

theorem lookup_pruneExpired_eq (h : Windowed window s.entries) :
    (s.pruneExpired now).entries.lookup key = running s.entries key now (window key) := by
  rw [lookup_pruneExpired, running]
  cases hfound : s.entries.lookup key with
  | none => rfl
  | some entry =>
    rw [Option.filter_some, Option.filter_some, WindowEntry.expiry, h key entry hfound,
      decide_eq_decide.mpr (lt_saturatingAdd now _ _)]

theorem running_pruneExpired (h : Windowed window s.entries) :
    running (s.pruneExpired now).entries key now (window key) =
      running s.entries key now (window key) := by
  refine Option.ext fun entry => ?_
  rw [running_eq_some, lookup_pruneExpired_eq s now key h, running_eq_some]
  exact and_iff_left_of_imp And.right

end RateLimitState

namespace RateLimiter

variable {user tenant : Option String} {userLimit tenantLimit : AxisLimit}

section

variable {s : RateLimitState} {key : RateLimitKey} {now : Instant}

theorem lookup_commit_of_ne {key' : RateLimitKey} (h : key' ≠ key) :
    (commit s key now limit count).entries.lookup key' = s.entries.lookup key' :=
  AList.lookup_insert_ne h

/-- The entry that is written goes on with a window that runs, or begins one. -/
theorem lookup_commit_self : (commit s key now limit count).entries.lookup key =
    some ⟨count, (running s.entries key now limit.windowSeconds).elim now.val (·.windowStart),
      limit.windowSeconds⟩ := by
  rw [commit, running]
  cases s.entries.lookup key with
  | none => simp
  | some entry =>
    by_cases hlive : now.val < entry.windowStart + limit.windowSeconds
    · simp [Option.filter_some, saturatingAdd_le, hlive, Nat.not_le.mpr hlive]
    · simp [Option.filter_some, saturatingAdd_le, hlive, Nat.not_lt.mp hlive]

end

section

variable (limiter : RateLimiter) (limits : RateLimitKey → AxisLimit) (now : Instant)

def windows (limits : RateLimitKey → AxisLimit) (key : RateLimitKey) : Nat :=
  (limits key).windowSeconds

/-- What a call does to the map, with the keys it counts. -/
inductive Effect (s : RateLimitState) : List RateLimitKey → RateLimitState → Prop
  | none : Effect s [] s
  | prune {keys s'} (h : Effect s keys s') : Effect s keys (s'.pruneExpired now)
  | commit {keys s'} (key : RateLimitKey) (h : Effect s keys s') (hnew : key ∉ keys)
      (hroom : windowCount s'.entries key now (windows limits key) < (limits key).max.val)
      (hfits : key ∈ s'.entries ∨ s'.entries.size < limiter.maxEntries) :
      Effect s (keys ++ [key])
        (commit s' key now (limits key) (windowCount s'.entries key now (windows limits key) + 1))

variable {limiter limits now} {s s' : RateLimitState} {keys : List RateLimitKey}
  {key : RateLimitKey}

def counterOf (s : RateLimitState) (key : RateLimitKey) : Option Counter :=
  (s.entries.lookup key).map fun entry => ⟨entry.windowStart, entry.count⟩

theorem counterOf_congr (h : s'.entries.lookup key = s.entries.lookup key) :
    counterOf s' key = counterOf s key := by
  rw [counterOf, counterOf, h]

section

variable (h : Effect limiter limits now s keys s') (hs : Windowed (windows limits) s.entries)
include h

theorem Effect.size (hs : s.entries.size ≤ limiter.maxEntries) :
    s'.entries.size ≤ limiter.maxEntries := by
  induction h with
  | none => exact hs
  | @prune _ s' _ ih => exact Nat.le_trans (List.length_filter_le _ _) ih
  | @commit _ s' key _ _ _ hfits ih =>
    rcases hfits with hmem | hlt
    · exact Nat.le_trans (Nat.le_of_eq (KeyMap.size_insert_of_mem hmem _)) ih
    · exact Nat.le_trans (KeyMap.size_insert_le s'.entries key _) hlt

include hs

theorem Effect.windowed : Windowed (windows limits) s'.entries := by
  induction h with
  | none => exact hs
  | prune _ ih =>
    intro key entry hfound
    rw [RateLimitState.lookup_pruneExpired, Option.filter_eq_some_iff] at hfound
    exact ih key entry hfound.1
  | commit key _ _ _ _ ih =>
    intro key' entry hfound
    rw [RateLimiter.commit, KeyMap.lookup_insert_eq] at hfound
    split at hfound
    · rename_i heq
      cases hfound
      rw [heq]
      rfl
    · exact ih key' entry hfound

section

variable (hwindow : ∀ key, 0 < windows limits key)
include hwindow

/-- What runs for a key after a call is what ran before it, with one more if the call counts the
key. -/
theorem Effect.running (key : RateLimitKey) :
    running s'.entries key now (windows limits key) = if key ∈ keys then
        some ⟨windowCount s.entries key now (windows limits key) + 1,
          (running s.entries key now (windows limits key)).elim now.val (·.windowStart),
          windows limits key⟩
      else running s.entries key now (windows limits key) := by
  induction h with
  | none => rfl
  | @prune _ s' h ih => rw [s'.running_pruneExpired now key (h.windowed hs), ih]
  | @commit keys s' key' h hnew _ _ ih =>
    by_cases heq : key = key'
    · subst heq
      rw [if_neg hnew] at ih
      rw [if_pos (by simp), windowCount_eq s.entries, ← ih, ← windowCount_eq]
      refine running_eq_some.mpr ⟨lookup_commit_self, ?_⟩
      cases hrun : RateLimit.running s'.entries key now (windows limits key) with
      | none => exact Nat.lt_add_of_pos_right (hwindow key)
      | some entry => exact (running_eq_some.mp hrun).2
    · rw [RateLimit.running, lookup_commit_of_ne heq, ← RateLimit.running, ih]
      simp only [List.mem_append, List.mem_singleton, heq, or_false]

theorem Effect.windowCount (key : RateLimitKey) :
    windowCount s'.entries key now (windows limits key) =
      windowCount s.entries key now (windows limits key) + if key ∈ keys then 1 else 0 := by
  rw [windowCount_eq s'.entries, h.running hs hwindow key]
  split
  · rfl
  · rw [Nat.add_zero, windowCount_eq]

/-- A counter whose window runs stays, and only grows by what the call counts under its
key. -/
theorem Effect.live {entry : WindowEntry} (hfound : s.entries.lookup key = some entry)
    (hlive : now.val < entry.windowStart + windows limits key) :
    s'.entries.lookup key =
      some { entry with count := entry.count + if key ∈ keys then 1 else 0 } := by
  have hrun := h.running hs hwindow key
  rw [windowCount_eq, running_eq_some.mpr ⟨hfound, hlive⟩] at hrun
  refine (running_eq_some.mp (hrun.trans ?_)).1
  split
  · rw [← hs key entry hfound]
    rfl
  · rfl

end

theorem steps_of_effect (key : RateLimitKey) {α : Type} {time : α → Nat} {a : α}
    (ha : time a = now.val) (p : List α) :
    Steps (Advance (limits key).max.val (windows limits key) time) now.val
      ⟨counterOf s key, p⟩ ⟨counterOf s' key, p ++ if key ∈ keys then [a] else []⟩ := by
  induction h with
  | none => rw [if_neg List.not_mem_nil, List.append_nil]
  | @prune keys s' h ih =>
    refine ih.trans ?_
    rw [counterOf, counterOf, s'.lookup_pruneExpired_eq now key (h.windowed hs)]
    cases hrun : RateLimit.running s'.entries key now (windows limits key) with
    | some entry => rw [(running_eq_some.mp hrun).1]
    | none =>
      cases hfound : s'.entries.lookup key with
      | none => exact .refl
      | some entry => exact .single (.drop _ _ (ended_of_running hrun hfound))
  | @commit keys s' key' h hnew hroom _ ih =>
    by_cases heq : key = key'
    · subst heq
      rw [if_neg hnew, List.append_nil] at ih
      rw [if_pos (by simp)]
      refine ih.tail ?_
      rw [windowCount_eq] at hroom ⊢
      rw [counterOf, counterOf, lookup_commit_self]
      show Advance _ _ _ _ _ ⟨some ⟨(RateLimit.running s'.entries key now
        (windows limits key)).elim now.val (·.windowStart), _⟩, _⟩
      cases hrun : RateLimit.running s'.entries key now (windows limits key) with
      | some entry =>
        obtain ⟨hfound, hlive⟩ := running_eq_some.mp hrun
        rw [hrun] at hroom
        rw [hfound]
        exact .count _ _ a ha hlive hroom
      | none =>
        rw [hrun] at hroom
        refine .restart _ _ a ha (fun c hc => ?_) hroom
        obtain ⟨entry, hfound, rfl⟩ := Option.map_eq_some_iff.mp hc
        exact ended_of_running hrun hfound
    · rw [counterOf_congr (lookup_commit_of_ne heq)]
      simp only [List.mem_append, List.mem_singleton, heq, or_false]
      exact ih

end

variable {p : RateLimitKey × AxisLimit × Nat} {plan : Plan}

/-- Making room leaves the map or prunes it, and when it succeeds the key fits. -/
theorem reserveKey_cases (s : RateLimitState) (key : RateLimitKey) (now : Instant) :
    ((limiter.reserveKey s key now).2 = s ∨
        (limiter.reserveKey s key now).2 = s.pruneExpired now) ∧
      ((limiter.reserveKey s key now).1 = true →
        key ∈ (limiter.reserveKey s key now).2.entries ∨
          (limiter.reserveKey s key now).2.entries.size < limiter.maxEntries) := by
  rw [reserveKey]
  by_cases hfits : key ∈ s.entries ∨ s.entries.size < limiter.maxEntries
  · rw [if_pos hfits]
    exact ⟨Or.inl rfl, fun _ => hfits⟩
  · rw [if_neg hfits]
    refine ⟨?_, of_decide_eq_true⟩
    by_cases hexpiry : s.nextExpiry ≤ now.val
    · exact Or.inr (if_pos hexpiry)
    · exact Or.inl (if_neg hexpiry)

theorem reservePlan_cases (s : RateLimitState) (plan : Plan) (now : Instant) :
    ((limiter.reservePlan s plan now).2 = s ∨
        (limiter.reservePlan s plan now).2 = s.pruneExpired now) ∧
      ((limiter.reservePlan s plan now).1 = true →
        (limiter.reservePlan s plan now).2.entries.size +
          needed (limiter.reservePlan s plan now).2 plan ≤ limiter.maxEntries) := by
  refine ⟨?_, of_decide_eq_true⟩
  by_cases hprune : limiter.maxEntries < s.entries.size + needed s plan ∧ s.nextExpiry ≤ now.val
  · exact Or.inr (if_pos hprune)
  · exact Or.inl (if_neg hprune)

variable {s₀ : RateLimitState} {axes : List Axis} {entries : Entries}

/-- Up to the first that refuses. -/
def countedAxes (limiter : RateLimiter) (now : Instant) :
    List Axis → RateLimitState → List RateLimitKey
  | [], _ => []
  | (key, limit) :: axes, s =>
    if (limiter.checkKey s key now limit).1 then
      key :: countedAxes limiter now axes (limiter.checkKey s key now limit).2
    else []

section

variable (h : Effect limiter limits now s₀ keys s) (hs : Windowed (windows limits) s₀.entries)
include h hs

/-- After room was made, the map counts what it did before. -/
theorem Effect.reserved (hcases : s' = s ∨ s' = s.pruneExpired now) :
    Effect limiter limits now s₀ keys s' ∧
      ∀ key, RateLimit.windowCount s'.entries key now (windows limits key) =
        RateLimit.windowCount s.entries key now (windows limits key) := by
  rcases hcases with rfl | rfl
  · exact ⟨h, fun _ => rfl⟩
  · refine ⟨h.prune, fun key => ?_⟩
    rw [windowCount_eq, s.running_pruneExpired now key (h.windowed hs), ← windowCount_eq]

theorem Effect.checkKey (hnew : key ∉ keys) :
    Effect limiter limits now s₀
      (keys ++ if (limiter.checkKey s key now (limits key)).1 then [key] else [])
      (limiter.checkKey s key now (limits key)).2 := by
  rw [RateLimiter.checkKey]
  cases haxis : axisState s.entries key now (limits key) with
  | denied => simpa using h
  | admitted =>
    obtain ⟨hroom, rfl⟩ := of_axisState haxis
    obtain ⟨hcases, hfits⟩ := limiter.reserveKey_cases s key now
    obtain ⟨hreserved, hsame⟩ := h.reserved hs hcases
    cases hreserve : limiter.reserveKey s key now with
    | mk reply s' =>
      rw [hreserve] at hfits hreserved hsame
      cases reply with
      | false => simpa using hreserved
      | true =>
        have hcount := hsame key
        show Effect limiter limits now s₀ (keys ++ [key])
          (RateLimiter.commit s' key now (limits key)
            (RateLimit.windowCount s.entries key now (windows limits key) + 1))
        rw [← hcount]
        refine .commit key hreserved hnew ?_ (hfits rfl)
        rw [hcount]
        exact hroom

theorem Effect.checkAxes (hlimits : ∀ a ∈ axes, a.2 = limits a.1)
    (hnodup : (keys ++ axes.map Prod.fst).Nodup) :
    Effect limiter limits now s₀ (keys ++ limiter.countedAxes now axes s)
      (limiter.checkAxes now axes s).2 := by
  induction axes generalizing s keys with
  | nil => simpa [RateLimiter.checkAxes, countedAxes] using h
  | cons axis axes ih =>
    obtain ⟨key, limit⟩ := axis
    have hlimit : limit = limits key := hlimits _ List.mem_cons_self
    rw [List.nodup_append] at hnodup
    have hnew : key ∉ keys := fun hmem => hnodup.2.2 key hmem key List.mem_cons_self rfl
    have hkey := h.checkKey hs hnew
    rw [checkAxes, countedAxes, hlimit]
    generalize limiter.checkKey s key now (limits key) = checked at hkey ⊢
    obtain ⟨reply, t⟩ := checked
    cases reply with
    | false => exact hkey
    | true =>
      rw [if_pos rfl] at hkey
      have hrest := ih hkey (fun a ha => hlimits a (List.mem_cons_of_mem _ ha)) (by
        rw [List.append_assoc, List.nodup_append]
        exact hnodup)
      rw [List.append_assoc] at hrest
      exact hrest

end

/-- It has room in the map, and the plan has its count. -/
structure Planned (limits : RateLimitKey → AxisLimit) (now : Instant) (entries : Entries)
    (p : RateLimitKey × AxisLimit × Nat) : Prop where
  limit : p.2.1 = limits p.1
  room : RateLimit.windowCount entries p.1 now (windows limits p.1) < (limits p.1).max.val
  count : p.2.2 = RateLimit.windowCount entries p.1 now (windows limits p.1) + 1

/-- A plan holds for every map that counts the same. -/
theorem Planned.congr {entries' : Entries} (h : Planned limits now entries p)
    (hsame : RateLimit.windowCount entries' p.1 now (windows limits p.1) =
      RateLimit.windowCount entries p.1 now (windows limits p.1)) : Planned limits now entries' p :=
  ⟨h.limit, hsame ▸ h.room, hsame ▸ h.count⟩

theorem of_planAxes (h : planAxes entries now axes = some plan)
    (hlimits : ∀ a ∈ axes, a.2 = limits a.1) :
    plan.map Prod.fst = axes.map Prod.fst ∧ ∀ p ∈ plan, Planned limits now entries p := by
  induction axes generalizing plan with
  | nil =>
    cases h
    exact ⟨rfl, fun p hp => nomatch hp⟩
  | cons axis axes ih =>
    obtain ⟨key, limit⟩ := axis
    have hlimit : limit = limits key := hlimits _ List.mem_cons_self
    rw [planAxes] at h
    cases haxis : axisState entries key now limit with
    | denied =>
      rw [haxis] at h
      cases h
    | admitted =>
      rw [haxis] at h
      obtain ⟨rest, hrest, rfl⟩ := Option.map_eq_some_iff.mp h
      obtain ⟨hkeys, hplan⟩ := ih hrest fun a ha => hlimits a (List.mem_cons_of_mem _ ha)
      rw [hlimit] at haxis
      obtain ⟨hroom, hcount⟩ := of_axisState haxis
      exact ⟨by rw [List.map_cons, List.map_cons, hkeys],
        List.forall_mem_cons.mpr ⟨⟨hlimit, hroom, hcount⟩, hplan⟩⟩

/-- Counting a key takes the room that the plan reserved for it. -/
theorem needed_commit (hnew : p.1 ∉ plan.map Prod.fst) :
    (RateLimiter.commit s p.1 now limit count).entries.size +
        needed (RateLimiter.commit s p.1 now limit count) plan ≤
      s.entries.size + needed s (p :: plan) := by
  have hrest : needed (RateLimiter.commit s p.1 now limit count) plan = needed s plan := by
    refine List.countP_congr fun q hq => ?_
    have hne : q.1 ≠ p.1 := fun heq => hnew (heq ▸ List.mem_map_of_mem hq)
    rw [RateLimiter.commit]
    simp only [AList.mem_insert, hne, false_or]
  rw [hrest, needed, needed, List.countP_cons]
  by_cases hmem : p.1 ∈ s.entries
  · have hsize : (RateLimiter.commit s p.1 now limit count).entries.size = s.entries.size :=
      KeyMap.size_insert_of_mem hmem _
    omega
  · have hsize : (RateLimiter.commit s p.1 now limit count).entries.size ≤ s.entries.size + 1 :=
      KeyMap.size_insert_le s.entries p.1 _
    rw [if_pos (decide_eq_true hmem)]
    omega

theorem Effect.commitPlan (h : Effect limiter limits now s₀ keys s)
    (hplan : ∀ p ∈ plan, Planned limits now s.entries p)
    (hfits : s.entries.size + needed s plan ≤ limiter.maxEntries)
    (hnodup : (keys ++ plan.map Prod.fst).Nodup) :
    Effect limiter limits now s₀ (keys ++ plan.map Prod.fst) (commitPlan now plan s) := by
  induction plan generalizing s keys with
  | nil => simpa [RateLimiter.commitPlan] using h
  | cons p plan ih =>
    have hp := hplan p List.mem_cons_self
    have hother := (List.nodup_cons.mp (List.nodup_middle.mp hnodup)).1
    rw [List.mem_append, not_or] at hother
    obtain ⟨hnew, hfresh⟩ := hother
    rw [List.map_cons, ← List.singleton_append, ← List.append_assoc] at hnodup ⊢
    have hroom : p.1 ∈ s.entries ∨ s.entries.size < limiter.maxEntries := by
      by_cases hmem : p.1 ∈ s.entries
      · exact Or.inl hmem
      · rw [needed, List.countP_cons, if_pos (decide_eq_true hmem)] at hfits
        exact Or.inr (by omega)
    have hnext := h.commit p.1 hnew hp.room hroom
    show Effect limiter limits now s₀ _
      (RateLimiter.commitPlan now plan (RateLimiter.commit s p.1 now p.2.1 p.2.2))
    rw [hp.limit, hp.count]
    refine ih hnext (fun q hq => ?_) (Nat.le_trans (needed_commit hfresh) hfits) hnodup
    have hne : q.1 ≠ p.1 := fun heq => hfresh (heq ▸ List.mem_map_of_mem hq)
    refine (hplan q (List.mem_cons_of_mem p hq)).congr ?_
    rw [RateLimit.windowCount, lookup_commit_of_ne hne]
    rfl

theorem effect_checkUserTenant (hs : Windowed (windows limits) s.entries)
    (hlimits : ∀ a ∈ userTenantAxes user userLimit tenant tenantLimit, a.2 = limits a.1)
    (hnodup : ((userTenantAxes user userLimit tenant tenantLimit).map Prod.fst).Nodup) :
    Effect limiter limits now s
      (if (limiter.checkUserTenant s now user userLimit tenant tenantLimit).1 then
        (userTenantAxes user userLimit tenant tenantLimit).map Prod.fst else [])
      (limiter.checkUserTenant s now user userLimit tenant tenantLimit).2 := by
  cases hplan : planAxes s.entries now (userTenantAxes user userLimit tenant tenantLimit) with
  | none =>
    rw [checkUserTenant, hplan]
    exact .none
  | some plan =>
    obtain ⟨hkeys, hplanned⟩ := of_planAxes hplan hlimits
    obtain ⟨hcases, hfits⟩ := limiter.reservePlan_cases s plan now
    have hnone : Effect limiter limits now s [] s := .none
    obtain ⟨hreserved, hsame⟩ := hnone.reserved hs hcases
    rw [← hkeys] at hnodup
    simp only [checkUserTenant, hplan, ← hkeys]
    generalize limiter.reservePlan s plan now = reserved at hreserved hfits hsame ⊢
    obtain ⟨reply, t⟩ := reserved
    cases reply with
    | false => exact hreserved
    | true =>
      exact hreserved.commitPlan (fun p hp => (hplanned p hp).congr (hsame p.1)) (hfits rfl) hnodup

end

theorem nodup_checkAxes (q : CheckArgs) (config : RateLimitConfig) :
    ((q.axes config).map Prod.fst).Nodup := by
  obtain ⟨user, ip, device, asn, tenant⟩ := q
  cases user <;> cases ip <;> cases device <;> cases asn <;> cases tenant <;>
    simp [CheckArgs.axes]

theorem nodup_userTenantAxes (user : Option String) (userLimit : AxisLimit)
    (tenant : Option String) (tenantLimit : AxisLimit) :
    ((userTenantAxes user userLimit tenant tenantLimit).map Prod.fst).Nodup := by
  cases user <;> cases tenant <;> simp [userTenantAxes]

variable (limiter : RateLimiter) (limits : RateLimitKey → AxisLimit) {c : Call}

def axesOf : Op → List Axis
  | .check q => q.axes limiter.config
  | .checkUserTenant user userLimit tenant tenantLimit =>
    userTenantAxes user userLimit tenant tenantLimit
  | _ => []

def counted (s : RateLimitState) (c : Call) : List RateLimitKey :=
  match c.op with
  | .check q => limiter.countedAxes c.now (q.axes limiter.config) s
  | .checkUserTenant user userLimit tenant tenantLimit =>
    if (limiter.checkUserTenant s c.now user userLimit tenant tenantLimit).1 then
      (userTenantAxes user userLimit tenant tenantLimit).map Prod.fst
    else []
  | _ => []

def Counting (c : Call) : Prop :=
  (∃ q, c.op = .check q) ∨ (∃ u ul t tl, c.op = .checkUserTenant u ul t tl) ∨ c.op = .prune

/-- The call applies to every key the limit of the key. -/
def Respects (c : Call) : Prop := ∀ a ∈ limiter.axesOf c.op, a.2 = limits a.1

variable {limiter limits} {s : RateLimitState}

theorem effect_step (hs : Windowed (windows limits) s.entries) (hcounting : Counting c)
    (hlimits : limiter.Respects limits c) :
    Effect limiter limits c.now s (limiter.counted s c) (limiter.step s c).2 := by
  obtain ⟨now, op⟩ := c
  rcases hcounting with ⟨q, rfl⟩ | ⟨user, userLimit, tenant, tenantLimit, rfl⟩ | rfl
  · exact Effect.checkAxes .none hs hlimits (nodup_checkAxes q limiter.config)
  · exact effect_checkUserTenant hs hlimits (nodup_userTenantAxes user userLimit tenant tenantLimit)
  · exact .prune .none

abbrev LimiterEvent : Type := Event RateLimitState Call Bool

/-- The seconds at which a key was counted. -/
def admissions (limiter : RateLimiter) (key : RateLimitKey) (events : List LimiterEvent) :
    List Nat :=
  (events.filter fun e => key ∈ limiter.counted e.before e.call).map fun e => e.call.now.val

structure CountingRun (limiter : RateLimiter) (limits : RateLimitKey → AxisLimit)
    (calls : List Call) : Prop where
  counting : ∀ c ∈ calls, Counting c
  respects : ∀ c ∈ calls, limiter.Respects limits c
  positive : ∀ key, 0 < windows limits key
  clock : (calls.map fun c => c.now.val).Pairwise (· ≤ ·)

variable {calls : List Call}

theorem CountingRun.of_prefix (h : CountingRun limiter limits calls) {cs : List Call}
    (hcs : cs <+: calls) : CountingRun limiter limits cs where
  counting c hc := h.counting c (hcs.subset hc)
  respects c hc := h.respects c (hcs.subset hc)
  positive := h.positive
  clock := h.clock.sublist (hcs.sublist.map _)

structure Sound (limiter : RateLimiter) (limits : RateLimitKey → AxisLimit)
    (s : RateLimitState) : Prop where
  windowed : Windowed (windows limits) s.entries
  bounded : s.entries.size ≤ limiter.maxEntries

theorem windowed_empty (window : RateLimitKey → Nat) :
    Windowed window ({} : RateLimitState).entries := by
  intro key entry h
  cases h

theorem Sound.step (hs : Sound limiter limits s) (hc : Counting c ∧ limiter.Respects limits c) :
    Sound limiter limits (limiter.step s c).2 :=
  have heffect := effect_step hs.windowed hc.1 hc.2
  ⟨heffect.windowed hs.windowed, heffect.size hs.bounded⟩

section

variable (h : CountingRun limiter limits calls)
include h

theorem CountingRun.sound :
    (∀ e ∈ run limiter.step {} calls,
      Sound limiter limits e.before ∧ Sound limiter limits e.after) ∧
      Sound limiter limits (final limiter.step {} calls) := by
  refine run_invariant limiter.step (fun s c hs hc => hs.step hc)
    ⟨windowed_empty _, Nat.zero_le _⟩ fun e he => ?_
  have hmem := call_mem_of_mem_run limiter.step he
  exact ⟨h.counting e.call hmem, h.respects e.call hmem⟩

theorem CountingRun.effect {e : LimiterEvent} (he : e ∈ run limiter.step {} calls) :
    Windowed (windows limits) e.before.entries ∧
      Effect limiter limits e.call.now e.before (limiter.counted e.before e.call) e.after := by
  have hmem := call_mem_of_mem_run limiter.step he
  have hs := (h.sound.1 e he).1.windowed
  obtain ⟨cs, c, -, rfl⟩ := of_mem_run limiter.step he
  exact ⟨hs, effect_step hs (h.counting c hmem) (h.respects c hmem)⟩

def keyLedger (limiter : RateLimiter) (key : RateLimitKey) (calls : List Call) : Ledger Nat :=
  ⟨counterOf (final limiter.step {} calls) key, limiter.admissions key (run limiter.step {} calls)⟩

theorem CountingRun.follows (key : RateLimitKey) :
    Follows (Advance (limits key).max.val (windows limits key) id) (fun c => c.now.val)
      (limiter.keyLedger key) calls where
  opened := rfl
  ordered := h.clock
  steps cs c hcs := by
    have hc : c ∈ calls := hcs.subset (List.mem_append_right cs List.mem_cons_self)
    have hs := (h.of_prefix ((List.prefix_append cs [c]).trans hcs)).sound.2.windowed
    have heffect := effect_step hs (h.counting c hc) (h.respects c hc)
    have htime : id c.now.val = c.now.val := rfl
    have hsteps := steps_of_effect heffect hs key htime (limiter.keyLedger key cs).pending
    rw [keyLedger, keyLedger, final_append, run_append]
    by_cases hkey : key ∈ limiter.counted (final limiter.step {} cs) c <;>
      simpa [keyLedger, admissions, run, eventOf, hkey] using hsteps

theorem CountingRun.separate (key : RateLimitKey) :
    ∃ ws, (Kept (limits key).max.val (windows limits key) id ws (2 ^ 63)
          (limiter.keyLedger key calls) ∧
        Separate (windows limits key) ws (2 ^ 63) (limiter.keyLedger key calls)) ∧
      ∀ cs, cs <+: calls → ∀ c ∈ (limiter.keyLedger key cs).counter, c.start ∈ ws :=
  separate_of_advances (h.positive key) (h.follows key) (2 ^ 63) fun c _ => Nat.le_of_lt c.now.isLt

end

structure AdmissionBound (limiter : RateLimiter) (limits : RateLimitKey → AxisLimit)
    (events : List LimiterEvent) : Prop where
  /-- A window of a key holds at most the limit. -/
  inWindow : ∀ key, ∀ e ∈ events, ∀ entry, e.after.entries.lookup key = some entry →
    (limiter.admissions key events).countP (fun t =>
      entry.windowStart ≤ t && t < entry.windowStart + (limits key).windowSeconds) ≤
        (limits key).max.val
  /-- The length of a window holds at most twice the limit, wherever it begins. -/
  inSeconds : ∀ key, WindowBound (2 * (limits key).max.val) (limits key).windowSeconds
    (limiter.admissions key events)
  tracked : ∀ e ∈ events, e.after.entries.size ≤ limiter.maxEntries
  /-- A counter whose window has not ended stays, and changes only by its own key. -/
  live : ∀ e ∈ events, ∀ key entry, e.before.entries.lookup key = some entry →
    e.call.now.val < entry.windowStart + (limits key).windowSeconds →
    e.after.entries.lookup key = some { entry with
      count := entry.count + if key ∈ limiter.counted e.before e.call then 1 else 0 }
  /-- Both axes are counted, or none. -/
  together : ∀ e ∈ events, ∀ user userLimit tenant tenantLimit,
    e.call.op = .checkUserTenant user userLimit tenant tenantLimit →
    ∀ a ∈ userTenantAxes user userLimit tenant tenantLimit,
      windowCount e.after.entries a.1 e.call.now a.2.windowSeconds =
        windowCount e.before.entries a.1 e.call.now a.2.windowSeconds + if e.reply then 1 else 0

/-- In every run of checks and prunes with fixed limits and a clock that does not go back, a window
of a key holds at most its limit of admissions and as many seconds as a window at most twice as
many, the number of keys stays within the bound, no running counter is removed or reset, and
`check_user_tenant` counts both of its axes or none. -/
theorem admission_bound (h : CountingRun limiter limits calls) :
    AdmissionBound limiter limits (run limiter.step {} calls) where
  inWindow key e he entry hfound := by
    obtain ⟨ws, hkept, hstarts⟩ := h.separate key
    obtain ⟨cs, c, hcs, rfl⟩ := of_mem_run limiter.step he
    refine hkept.1.bounded entry.windowStart (hstarts _ hcs ⟨entry.windowStart, entry.count⟩ ?_)
    rw [keyLedger, final_append]
    exact Option.map_eq_some_iff.mpr ⟨entry, hfound, rfl⟩
  inSeconds key := by
    obtain ⟨ws, hkept, -⟩ := h.separate key
    have hbound := hkept.2.windowBound hkept.1
    rw [List.map_id] at hbound
    exact hbound
  tracked e he := (h.sound.1 e he).2.bounded
  live e he key entry hfound hlive := (h.effect he).2.live (h.effect he).1 h.positive hfound hlive
  together e he user userLimit tenant tenantLimit hop a ha := by
    obtain ⟨hs, heffect⟩ := h.effect he
    have hcount := heffect.windowCount hs h.positive a.1
    have hlimit := h.respects e.call (call_mem_of_mem_run limiter.step he) a (by
      rw [hop]
      exact ha)
    obtain ⟨cs, c, -, rfl⟩ := of_mem_run limiter.step he
    rw [hlimit]
    refine hcount.trans (congrArg _ (if_congr ?_ rfl rfl))
    show a.1 ∈ limiter.counted _ c ↔ (limiter.step _ c).1 = true
    rw [counted, step, show c.op = _ from hop]
    exact List.mem_ite_nil_right.trans (and_iff_left (List.mem_map_of_mem ha))

def defaultLimits : RateLimitKey → AxisLimit
  | .user _ => ⟨5, 300⟩
  | .ip _ => ⟨20, 300⟩
  | .device _ => ⟨10, 300⟩
  | .asn _ => ⟨50, 300⟩
  | .tenant _ => ⟨100, 300⟩

def sampleCalls : List Call :=
  [ ⟨0, .check { userId := some "u", ip := some "10.0.0.1" }⟩,
    ⟨10, .checkUserTenant (some "u") ⟨5, 300⟩ (some "t") ⟨100, 300⟩⟩,
    ⟨400, .prune⟩,
    ⟨400, .checkUserTenant (some "u") ⟨5, 300⟩ none ⟨100, 300⟩⟩ ]

theorem admission_bound_sample :
    RateLimiter.admissions { maxEntries := 3 } (.user "u")
        (run (RateLimiter.step { maxEntries := 3 }) {} sampleCalls) = [0, 10, 400] ∧
      AdmissionBound { maxEntries := 3 } defaultLimits
        (run (RateLimiter.step { maxEntries := 3 }) {} sampleCalls) := by
  refine ⟨by decide +kernel, admission_bound ⟨fun c hc => ?_, ?_, fun key => ?_, by decide⟩⟩
  · simp only [sampleCalls, List.mem_cons, List.not_mem_nil, or_false] at hc
    rcases hc with rfl | rfl | rfl | rfl <;> simp [Counting]
  · unfold Respects
    decide +kernel
  · cases key <;> exact Nat.succ_pos 299

end RateLimiter
end Qid.RateLimit
