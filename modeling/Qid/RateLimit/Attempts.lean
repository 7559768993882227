/-
The admission limiters of password logins and of one-time passwords.

An attempt is counted against its account, a password also against its realm, and one that succeeds
is released again. `succeeded` takes the lock once for each key, so the release of one key is a step
of its own. A release does not say which window its attempt was counted in.
-/
import Qid.Lib.Text
import Qid.RateLimit.Bound

namespace Qid.RateLimit

open Lib Lib.FixedWindow RateLimiter

variable {α : Type} {realm realm' name name' : String}

/-- The length keeps a colon in the realm from making two keys equal. -/
def accountKey (realm name : String) : String :=
  toString realm.utf8ByteSize ++ ":" ++ realm ++ ":" ++ name

theorem accountKey_inj (h : accountKey realm name = accountKey realm' name') :
    realm = realm' ∧ name = name' := by
  have hprefixed : prefixed realm ++ (":" ++ name) = prefixed realm' ++ (":" ++ name') := by
    rw [← String.append_assoc, ← String.append_assoc]
    exact h
  obtain ⟨hrealm, hname⟩ := prefixed_append_inj hprefixed
  exact ⟨hrealm, (String.append_right_inj ":").mp hname⟩

/-! ## The two limiters -/

/-- The part of the realm's TOTP policy that the limiter reads. -/
structure TotpConfig where
  maxFailedAttempts : U32
  failedAttemptWindowSeconds : Nat

/-- The part of the realm's password policy that the limiter reads. -/
structure PasswordPolicy where
  maxFailedAttempts : U32
  maxFailedAttemptsPerRealm : U32
  lockoutDurationSeconds : Nat

namespace TotpAttemptLimiter

def limiter : RateLimiter := {}

/-- The tenant axis is absent, and its limit is unused. -/
def admitAttempt (s : RateLimitState) (now : Instant) (realm userId : String)
    (policy : TotpConfig) :
    Bool × RateLimitState :=
  let window := policy.failedAttemptWindowSeconds
  limiter.checkUserTenant s now (some (accountKey realm userId))
    ⟨policy.maxFailedAttempts, window⟩ none ⟨Fin.last _, window⟩

def succeeded (s : RateLimitState) (now : Instant) (realm userId : String) : RateLimitState :=
  releaseUser s now (accountKey realm userId)

end TotpAttemptLimiter

namespace PasswordAttemptLimiter

def limiter : RateLimiter := {}

def admitAttempt (s : RateLimitState) (now : Instant) (realm email : String)
    (policy : PasswordPolicy) :
    Bool × RateLimitState :=
  limiter.checkUserTenant s now (some (accountKey realm email))
    ⟨policy.maxFailedAttempts, policy.lockoutDurationSeconds⟩ (some realm)
    ⟨policy.maxFailedAttemptsPerRealm, policy.lockoutDurationSeconds⟩

def succeeded (s : RateLimitState) (now now' : Instant) (realm email : String) : RateLimitState :=
  releaseTenant (releaseUser s now (accountKey realm email)) now' realm

end PasswordAttemptLimiter

inductive AttemptLimiter where
  | password (policy : String → PasswordPolicy)
  | totp (policy : String → TotpConfig)

/-- The number tells attempts apart. -/
structure Attempt where
  id : Nat
  realm : String
  name : String
  admittedAt : Instant
  deriving DecidableEq

def Attempt.second (a : Attempt) : Nat := a.admittedAt.val

namespace AttemptLimiter

variable (L : AttemptLimiter) {key' : RateLimitKey}

def axes (realm name : String) : List Axis :=
  match L with
  | .password policy =>
    [ (.user (accountKey realm name),
        ⟨(policy realm).maxFailedAttempts, (policy realm).lockoutDurationSeconds⟩),
      (.tenant realm,
        ⟨(policy realm).maxFailedAttemptsPerRealm, (policy realm).lockoutDurationSeconds⟩) ]
  | .totp policy =>
    [ (.user (accountKey realm name),
        ⟨(policy realm).maxFailedAttempts, (policy realm).failedAttemptWindowSeconds⟩) ]

variable (s : RateLimitState) (a : Attempt)

def admitAttempt : Bool × RateLimitState :=
  match L with
  | .password policy =>
    PasswordAttemptLimiter.admitAttempt s a.admittedAt a.realm a.name (policy a.realm)
  | .totp policy => TotpAttemptLimiter.admitAttempt s a.admittedAt a.realm a.name (policy a.realm)

def keys : List RateLimitKey := (L.axes a.realm a.name).map Prod.fst

/-- A call: an admission, or the release of one key of an attempt. -/
inductive AttemptCall where
  | admitAttempt (a : Attempt)
  | release (a : Attempt) (key : RateLimitKey) (now : Instant)
  deriving DecidableEq

def AttemptCall.clock : AttemptCall → Nat
  | .admitAttempt a => a.second
  | .release _ _ now => now.val

def step : AttemptCall → Bool × RateLimitState
  | .admitAttempt a => L.admitAttempt s a
  | .release _ key now => (true, releaseAxis s now key)

def successCalls (now now' : Instant) : List AttemptCall :=
  match L with
  | .password _ =>
    [.release a (.user (accountKey a.realm a.name)) now, .release a (.tenant a.realm) now']
  | .totp _ => [.release a (.user (accountKey a.realm a.name)) now]

theorem final_successCalls (now now' : Instant) :
    final L.step s (L.successCalls a now now') =
      match L with
      | .password _ => PasswordAttemptLimiter.succeeded s now now' a.realm a.name
      | .totp _ => TotpAttemptLimiter.succeeded s now a.realm a.name := by
  cases L <;> rfl

abbrev AttemptEvent : Type := Event RateLimitState AttemptCall Bool

variable (key : RateLimitKey)

def admittedBy (e : AttemptEvent) : Option Attempt :=
  match e.call with
  | .admitAttempt a => if e.reply ∧ key ∈ L.keys a then some a else none
  | .release _ _ _ => none

def Releases (a : Attempt) (e : AttemptEvent) : Bool :=
  match e.call with
  | .admitAttempt _ => false
  | .release b k _ => b = a ∧ k = key

/-- Those that have failed or are in flight. -/
def openAttempts (events : List AttemptEvent) : List Attempt :=
  (events.filterMap (L.admittedBy key)).filter fun a => !events.any (Releases key a)

/-- An attempt is admitted once, and each of its keys is released at most once and only if
the attempt was admitted. -/
def Proper (events : List AttemptEvent) (c : AttemptCall) : Prop :=
  match c with
  | .admitAttempt a => ∀ e ∈ events, e.call ≠ .admitAttempt a
  | .release a key _ => a ∈ L.openAttempts key events

/-- A release that takes from a running window takes from one that began when the attempt was
admitted, or before. -/
def Timely (c : AttemptCall) : Prop :=
  match c with
  | .admitAttempt _ => True
  | .release a key now => ∀ entry ∈ s.entries.lookup key, now.val < entry.expiry →
      entry.windowStart ≤ a.second

instance (events : List AttemptEvent) (c : AttemptCall) : Decidable (L.Proper events c) :=
  match c with
  | .admitAttempt a => inferInstanceAs (Decidable (∀ e ∈ events, e.call ≠ .admitAttempt a))
  | .release a key _ => inferInstanceAs (Decidable (a ∈ L.openAttempts key events))

instance (s : RateLimitState) (c : AttemptCall) : Decidable (Timely s c) :=
  match c with
  | .admitAttempt _ => isTrue trivial
  | .release a key now => inferInstanceAs (Decidable (∀ entry ∈ s.entries.lookup key,
      now.val < entry.expiry → entry.windowStart ≤ a.second))

structure AttemptRun (calls : List AttemptCall) : Prop where
  proper : ∀ cs c, cs ++ [c] <+: calls → L.Proper (run L.step {} cs) c
  clock : (calls.map AttemptCall.clock).Pairwise (· ≤ ·)

variable {L}

theorem axes_limit_unique {a b : Axis} (ha : a ∈ L.axes realm name) (hb : b ∈ L.axes realm' name')
    (h : a.1 = b.1) : a.2 = b.2 := by
  cases L with
  | password =>
    simp only [axes, List.mem_cons, List.not_mem_nil, or_false] at ha hb
    rcases ha with rfl | rfl <;> rcases hb with rfl | rfl
    · rw [(accountKey_inj (RateLimitKey.user.inj h)).1]
    · cases h
    · cases h
    · rw [RateLimitKey.tenant.inj h]
  | totp =>
    simp only [axes, List.mem_cons, List.not_mem_nil, or_false] at ha hb
    subst ha hb
    rw [(accountKey_inj (RateLimitKey.user.inj h)).1]

theorem exists_limits (L : AttemptLimiter) :
    ∃ limits : RateLimitKey → AxisLimit, ∀ realm name, ∀ a ∈ L.axes realm name,
      a.2 = limits a.1 := by
  have hkey : ∀ key, ∃ limit, ∀ realm name, ∀ a ∈ L.axes realm name, a.1 = key → a.2 = limit := by
    intro key
    by_cases hex : ∃ realm name, ∃ b ∈ L.axes realm name, b.1 = key
    · obtain ⟨realm, name, b, hb, hkey⟩ := hex
      exact ⟨b.2, fun realm' name' a ha h => axes_limit_unique ha hb (h.trans hkey.symm)⟩
    · exact ⟨⟨0, 0⟩, fun realm name a ha h => absurd ⟨realm, name, a, ha, h⟩ hex⟩
  choose limits hlimits using hkey
  exact ⟨limits, fun realm name a ha => hlimits a.1 realm name a ha rfl⟩

variable {limits : RateLimitKey → AxisLimit} {key : RateLimitKey} {a : Attempt}

section

variable {s : RateLimitState} {now : Instant}

theorem lookup_releaseAxis_of_ne (h : key' ≠ key) :
    (releaseAxis s now key).entries.lookup key' = s.entries.lookup key' := by
  rw [releaseAxis]
  cases s.entries.lookup key with
  | none => rfl
  | some =>
    dsimp only
    split
    · rfl
    · split
      · exact AList.lookup_erase_ne h
      · exact AList.lookup_insert_ne h

theorem lookup_releaseAxis_self (s : RateLimitState) (now : Instant) (key : RateLimitKey) :
    (releaseAxis s now key).entries.lookup key = s.entries.lookup key ∧
        (∀ entry, s.entries.lookup key = some entry → entry.expiry ≤ now.val) ∨
      ∃ entry, s.entries.lookup key = some entry ∧ now.val < entry.expiry ∧
        (releaseAxis s now key).entries.lookup key =
          if entry.count ≤ 1 then none else some { entry with count := entry.count - 1 } := by
  rw [releaseAxis]
  cases hfound : s.entries.lookup key with
  | none => exact Or.inl ⟨hfound, fun entry h => nomatch h⟩
  | some entry =>
    dsimp only
    by_cases hended : entry.expiry ≤ now.val
    · rw [if_pos hended]
      refine Or.inl ⟨hfound, fun entry' h => ?_⟩
      cases h
      exact hended
    · rw [if_neg hended]
      refine Or.inr ⟨entry, rfl, by omega, ?_⟩
      by_cases hcount : entry.count ≤ 1
      · rw [if_pos hcount, if_pos hcount]
        exact AList.lookup_erase key _
      · rw [if_neg hcount, if_neg hcount]
        exact AList.lookup_insert _

theorem windowed_releaseAxis {window : RateLimitKey → Nat} (hs : Windowed window s.entries) :
    Windowed window (releaseAxis s now key).entries := by
  intro key' entry hfound
  by_cases heq : key' = key
  · subst heq
    rcases lookup_releaseAxis_self s now key' with ⟨hsame, -⟩ | ⟨entry', hfound', -, hnext⟩
    · exact hs key' entry (hsame ▸ hfound)
    · rw [hnext] at hfound
      split at hfound
      · cases hfound
      · cases hfound
        exact hs key' entry' hfound'
  · rw [lookup_releaseAxis_of_ne heq] at hfound
    exact hs key' entry hfound

section

variable (hlimits : ∀ realm name, ∀ a ∈ L.axes realm name, a.2 = limits a.1)
  (hs : Windowed (windows limits) s.entries)
include hlimits hs

theorem effect_admitAttempt (a : Attempt) :
    Effect {} limits a.admittedAt s (if (L.admitAttempt s a).1 then L.keys a else [])
      (L.admitAttempt s a).2 := by
  have haxes := hlimits a.realm a.name
  cases L with
  | password => exact effect_checkUserTenant hs haxes (nodup_userTenantAxes _ _ _ _)
  | totp policy =>
    have hnodup := nodup_userTenantAxes (some (accountKey a.realm a.name))
      ⟨(policy a.realm).maxFailedAttempts, (policy a.realm).failedAttemptWindowSeconds⟩ none
      ⟨Fin.last _, (policy a.realm).failedAttemptWindowSeconds⟩
    exact effect_checkUserTenant hs haxes hnodup

theorem steps_admitAttempt (a : Attempt) (key : RateLimitKey) (p : List Attempt) :
    Steps (Advance (limits key).max.val (windows limits key) Attempt.second) a.second
      ⟨counterOf s key, p⟩
      ⟨counterOf (L.admitAttempt s a).2 key,
        p ++ if (L.admitAttempt s a).1 ∧ key ∈ L.keys a then [a] else []⟩ := by
  have hsecond : a.second = a.admittedAt.val := rfl
  have hsteps := steps_of_effect (effect_admitAttempt hlimits hs a) hs key hsecond p
  by_cases hreply : (L.admitAttempt s a).1 = true
  · simp only [hreply, true_and] at hsteps ⊢
    exact hsteps
  · simp only [hreply, Bool.false_eq_true, if_false] at hsteps ⊢
    exact hsteps

theorem windowed_step (c : AttemptCall) : Windowed (windows limits) (L.step s c).2.entries := by
  cases c with
  | admitAttempt a => exact (effect_admitAttempt hlimits hs a).windowed hs
  | release => exact windowed_releaseAxis hs

end

/-- A timely release gives back to the window the attempt was counted in, or settles an attempt
whose window has ended. -/
theorem move_release {M W : Nat} {p : List Attempt} (ha : a ∈ p)
    (htimely : ∀ entry, s.entries.lookup key = some entry → now.val < entry.expiry →
      entry.windowStart ≤ a.second) :
    Move M W Attempt.second now.val ⟨counterOf s key, p⟩
      ⟨counterOf (releaseAxis s now key) key, p.filter fun b => b ≠ a⟩ := by
  rcases lookup_releaseAxis_self s now key with ⟨hsame, -⟩ | ⟨entry, hfound, hlive, hnext⟩
  · rw [counterOf_congr hsame]
    exact .settle _ p a
  · have hmove : Move M W Attempt.second now.val ⟨some ⟨entry.windowStart, entry.count⟩, p⟩ _ :=
      .giveBack _ p a ha (htimely entry hfound hlive)
    rw [counterOf, counterOf, hfound, hnext]
    by_cases hcount : entry.count ≤ 1
    · rw [if_pos hcount] at hmove ⊢
      exact hmove
    · rw [if_neg hcount] at hmove ⊢
      exact hmove

end

/-! ## Open attempts along a run -/

section

variable {events : List AttemptEvent} {e : AttemptEvent}

theorem admit_of_mem_openAttempts (h : a ∈ L.openAttempts key events) :
    ∃ e ∈ events, e.call = .admitAttempt a := by
  rw [openAttempts, List.mem_filter, List.mem_filterMap] at h
  obtain ⟨⟨e, he, hadmitted⟩, -⟩ := h
  refine ⟨e, he, ?_⟩
  rw [admittedBy] at hadmitted
  split at hadmitted
  · rename_i b hcall
    split at hadmitted
    · cases hadmitted
      exact hcall
    · cases hadmitted
  · cases hadmitted

theorem openAttempts_admitAttempt (hcall : e.call = .admitAttempt a)
    (hnew : ∀ e' ∈ events, Releases key a e' = false) :
    L.openAttempts key (events ++ [e]) =
      L.openAttempts key events ++ if e.reply ∧ key ∈ L.keys a then [a] else [] := by
  have hreleases : ∀ b, Releases key b e = false := by
    intro b
    rw [Releases, hcall]
  have hany : ∀ b, (events ++ [e]).any (Releases key b) = events.any (Releases key b) := by
    intro b
    rw [List.any_append, List.any_cons, List.any_nil, hreleases b, Bool.or_false, Bool.or_false]
  have hnone : events.any (Releases key a) = false := by
    rw [List.any_eq_false]
    intro e' he'
    rw [hnew e' he']
    exact Bool.false_ne_true
  have hadmitted : L.admittedBy key e = if e.reply ∧ key ∈ L.keys a then some a else none := by
    rw [admittedBy, hcall]
  simp only [openAttempts, hany, List.filterMap_append, List.filter_append]
  by_cases hreply : e.reply ∧ key ∈ L.keys a
  · rw [if_pos hreply] at hadmitted ⊢
    rw [List.filterMap_cons_some hadmitted, List.filter_cons_of_pos]
    · rfl
    · rw [hnone]
      rfl
  · rw [if_neg hreply] at hadmitted ⊢
    rw [List.filterMap_cons_none hadmitted]
    rfl

theorem openAttempts_release {now : Instant} (hcall : e.call = .release a key' now) :
    L.openAttempts key (events ++ [e]) =
      if key' = key then (L.openAttempts key events).filter fun b => b ≠ a
      else L.openAttempts key events := by
  have hadmitted : L.admittedBy key e = none := by rw [admittedBy, hcall]
  have hreleases : ∀ b, Releases key b e = decide (a = b ∧ key' = key) := by
    intro b
    rw [Releases, hcall]
  simp only [openAttempts, List.filterMap_append, List.filterMap_cons_none hadmitted,
    List.filterMap_nil, List.append_nil, List.filter_filter, List.any_append, List.any_cons,
    List.any_nil, hreleases]
  split
  · refine List.filter_congr fun b _ => ?_
    by_cases hab : a = b
    · simp [*]
    · simp [hab, Ne.symm hab]
  · simp [*]

end

section

variable {calls cs : List AttemptCall}

def attemptLedger (L : AttemptLimiter) (key : RateLimitKey) (calls : List AttemptCall) :
    Ledger Attempt :=
  ⟨counterOf (final L.step {} calls) key, L.openAttempts key (run L.step {} calls)⟩

theorem AttemptRun.not_released (h : L.AttemptRun calls)
    (hcs : cs ++ [.admitAttempt a] <+: calls) (key : RateLimitKey) :
    ∀ e ∈ run L.step {} cs, Releases key a e = false := by
  intro e he
  have hnew := h.proper cs (.admitAttempt a) hcs
  obtain ⟨cs₁, c, hcs₁, rfl⟩ := of_mem_run L.step he
  have hproper := h.proper cs₁ c (hcs₁.trans ((List.prefix_append cs [_]).trans hcs))
  cases c with
  | admitAttempt => rfl
  | release b k =>
    have hopen : b ∈ L.openAttempts k (run L.step {} cs₁) := hproper
    obtain ⟨e', he', hcall⟩ := admit_of_mem_openAttempts hopen
    have hmem : e' ∈ run L.step {} cs := by
      obtain ⟨rest, rfl⟩ := hcs₁
      rw [run_append, run_append]
      exact List.mem_append_left _ (List.mem_append_left _ he')
    have hba : b ≠ a := by
      rintro rfl
      exact hnew e' hmem hcall
    exact decide_eq_false fun h => hba h.1

/-- With timely releases, the ledger of a key moves as a fixed window does. -/
theorem AttemptRun.follows (h : L.AttemptRun calls)
    (hlimits : ∀ realm name, ∀ a ∈ L.axes realm name, a.2 = limits a.1)
    (htimely : ∀ e ∈ run L.step {} calls, Timely e.before e.call) (key : RateLimitKey) :
    Follows (Move (limits key).max.val (windows limits key) Attempt.second) AttemptCall.clock
      (L.attemptLedger key) calls where
  opened := rfl
  ordered := h.clock
  steps cs c hcs := by
    have hs := final_invariant L.step (I := fun s => Windowed (windows limits) s.entries)
      (fun s c hs => windowed_step hlimits hs c) (windowed_empty _) cs
    have hevent : eventOf L.step (final L.step {} cs) c ∈ run L.step {} calls := by
      obtain ⟨rest, rfl⟩ := hcs
      rw [run_append, run_append]
      exact List.mem_append_left _ List.mem_append_cons_self
    have htime := htimely _ hevent
    rw [attemptLedger, attemptLedger, final_append, run_append]
    show Steps _ _ _ ⟨counterOf (L.step _ c).2 key, L.openAttempts key (_ ++ [eventOf L.step _ c])⟩
    cases c with
    | admitAttempt a =>
      rw [openAttempts_admitAttempt rfl (h.not_released hcs key)]
      exact Relation.ReflTransGen.mono (fun _ _ hadvance => .advance hadvance) _ _
        (steps_admitAttempt hlimits hs a key _)
    | release a k =>
      have hopen : a ∈ L.openAttempts k (run L.step {} cs) := h.proper cs _ hcs
      by_cases hk : k = key
      · subst hk
        rw [openAttempts_release rfl, if_pos rfl]
        exact .single (move_release hopen fun entry hfound hlive => htime entry hfound hlive)
      · rw [openAttempts_release rfl, if_neg hk]
        exact counterOf_congr (lookup_releaseAxis_of_ne (Ne.symm hk)) ▸ .refl

theorem AttemptRun.of_prefix (h : L.AttemptRun calls) (hcs : cs <+: calls) : L.AttemptRun cs where
  proper cs' c hcs' := h.proper cs' c (hcs'.trans hcs)
  clock := h.clock.sublist (hcs.sublist.map _)

structure NothingHidden (L : AttemptLimiter) (axis : Axis) (calls : List AttemptCall) : Prop where
  counted : ∀ entry, (final L.step {} calls).entries.lookup axis.1 = some entry →
    inWindow axis.2.windowSeconds Attempt.second entry.windowStart
      (L.openAttempts axis.1 (run L.step {} calls)) ≤ entry.count
  /-- No window that the key has had holds more open attempts than the limit. -/
  bounded : ∀ cs, cs <+: calls → ∀ entry,
    (final L.step {} cs).entries.lookup axis.1 = some entry →
    inWindow axis.2.windowSeconds Attempt.second entry.windowStart
      (L.openAttempts axis.1 (run L.step {} calls)) ≤ axis.2.max.val

theorem inWindow_zero (time : α → Nat) (w : Nat) (p : List α) : inWindow 0 time w p = 0 := by
  rw [inWindow, List.countP_eq_zero]
  simp only [Bool.and_eq_true, decide_eq_true_eq]
  omega

theorem clock_lt (c : AttemptCall) : c.clock < 2 ^ 63 := by
  cases c with
  | admitAttempt a => exact a.admittedAt.isLt
  | release a key now => exact now.isLt

/-- While releases are timely, at every moment of a run the count of a key is at least the number of
its attempts in the window that failed or are in flight, and no window holds more of them than the
limit. -/
theorem attempts_are_counted (h : L.AttemptRun calls)
    (htimely : ∀ e ∈ run L.step {} calls, Timely e.before e.call) {cs : List AttemptCall}
    (hcs : cs <+: calls) {realm name : String} {axis : Axis} (haxis : axis ∈ L.axes realm name) :
    L.NothingHidden axis cs := by
  obtain ⟨limits, hlimits⟩ := exists_limits L
  have hlimit := hlimits realm name axis haxis
  by_cases hW : 0 < axis.2.windowSeconds
  · have htimely' : ∀ e ∈ run L.step {} cs, Timely e.before e.call := by
      obtain ⟨rest, rfl⟩ := hcs
      rw [run_append] at htimely
      exact fun e he => htimely e (List.mem_append_left _ he)
    have hfollows := (h.of_prefix hcs).follows hlimits htimely' axis.1
    rw [hlimit] at hW
    obtain ⟨ws, hkept, hstarts⟩ := kept_of_moves hW hfollows (2 ^ 63)
      fun c _ => Nat.le_of_lt (clock_lt c)
    refine ⟨fun entry hfound => ?_, fun cs' hcs' entry hfound => ?_⟩
    · obtain ⟨-, -, -, hcounted⟩ := hkept.current ⟨entry.windowStart, entry.count⟩
        (Option.map_eq_some_iff.mpr ⟨entry, hfound, rfl⟩)
      refine Nat.le_trans (List.countP_mono_left fun _ _ h => ?_) hcounted
      exact (Bool.and_eq_true _ _ ▸ h).1
    · have hstart := hstarts cs' hcs' ⟨entry.windowStart, entry.count⟩
        (Option.map_eq_some_iff.mpr ⟨entry, hfound, rfl⟩)
      have hbounded := hkept.bounded entry.windowStart hstart
      exact hlimit ▸ hbounded
  · -- A window without a second holds no attempt.
    have hzero : axis.2.windowSeconds = 0 := by omega
    refine ⟨fun entry _ => ?_, fun cs' _ entry _ => ?_⟩
    all_goals
      rw [hzero, inWindow_zero]
      exact Nat.zero_le _

end

def strictTotp : AttemptLimiter := .totp fun _ => ⟨1, 60⟩

def attempt (id : Nat) (second : Instant) : Attempt := ⟨id, "corp", "alice", second⟩

def accountAxis : Axis := (.user (accountKey "corp" "alice"), ⟨1, 60⟩)

def timelyCalls : List AttemptCall :=
  [.admitAttempt (attempt 1 0), .release (attempt 1 0) accountAxis.1 5,
    .admitAttempt (attempt 2 10)]

theorem attempts_are_counted_sample :
    strictTotp.openAttempts accountAxis.1 (run strictTotp.step {} timelyCalls) = [attempt 2 10] ∧
      strictTotp.NothingHidden accountAxis timelyCalls := by
  refine ⟨by decide +kernel, ?_⟩
  have hrun : strictTotp.AttemptRun timelyCalls :=
    ⟨forall_prefix_iff.mpr (by decide +kernel), by decide⟩
  have haxis : accountAxis ∈ strictTotp.axes "corp" "alice" := List.mem_cons_self
  exact attempts_are_counted hrun (by decide +kernel) List.prefix_rfl haxis

/-- The first attempt succeeds after the second was admitted in a window of its own. -/
def lateCalls : List AttemptCall :=
  [.admitAttempt (attempt 1 0), .admitAttempt (attempt 2 60),
    .release (attempt 1 0) accountAxis.1 60, .admitAttempt (attempt 3 60)]

/-- A release that takes from a later window removes the counter of an attempt that is open
there, and one more is admitted than the limit says. -/
theorem late_release_hides_a_failure :
    strictTotp.AttemptRun lateCalls ∧
      (final strictTotp.step {} lateCalls).entries.lookup accountAxis.1 = some ⟨1, 60, 60⟩ ∧
      strictTotp.openAttempts accountAxis.1 (run strictTotp.step {} lateCalls) =
        [attempt 2 60, attempt 3 60] ∧
      ¬ strictTotp.NothingHidden accountAxis lateCalls := by
  have hfound : (final strictTotp.step {} lateCalls).entries.lookup accountAxis.1 =
      some ⟨1, 60, 60⟩ := by decide +kernel
  have hopen : strictTotp.openAttempts accountAxis.1 (run strictTotp.step {} lateCalls) =
      [attempt 2 60, attempt 3 60] := by decide +kernel
  refine ⟨⟨forall_prefix_iff.mpr (by decide +kernel), by decide⟩, hfound, hopen, fun h => ?_⟩
  have hcounted := h.counted _ hfound
  exact absurd hcounted (by decide)

end AttemptLimiter
end Qid.RateLimit
