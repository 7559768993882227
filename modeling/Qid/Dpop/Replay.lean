/-
Replays of DPoP proofs.

A proof is admitted from 60 seconds before its `iat` to 120 seconds after it. The id of an accepted
proof is kept for a time that does not follow from this window: `DpopState` keeps it long enough
from 61 seconds after `iat` on, and the shared cache from one second after it on.
-/
import Qid.Dpop.Validate

namespace Qid.Dpop

open Lib

variable {t : Time} {proof htm htu jti : String} {T iat : Nat} {nonce : Option String}
  {σ κ ρ : Type} {claims : DpopProofClaims} {calls : List (Time × κ)} {s : σ}

def InOrder {κ : Type} (calls : List (Time × κ)) : Prop := calls.Pairwise fun a b => a.1 ≤ b.1

instance {κ : Type} (calls : List (Time × κ)) : Decidable (InOrder calls) :=
  inferInstanceAs (Decidable (calls.Pairwise fun a b => a.1 ≤ b.1))

/-- If what is accepted at some times is not accepted again, a run that accepts at such times only
has at most one acceptance. -/
theorem pairwise_of_not_again {step : σ → Time × κ → ρ × σ} {Accepts : Event σ (Time × κ) ρ → Prop}
    {I : σ → Prop} {P : Time → Prop} (hI : ∀ s c, I s → I (step s c).2)
    (h : ∀ s c, I s → Accepts (eventOf step s c) → P c.1 → ∀ calls, InOrder calls →
      ∀ e ∈ run step (step s c).2 calls, ¬ Accepts e) (hs : I s) (horder : InOrder calls)
    (hP : ∀ e ∈ run step s calls, Accepts e → P e.call.1) :
    (run step s calls).Pairwise fun a b => ¬ (Accepts a ∧ Accepts b) := by
  induction calls generalizing s with
  | nil => exact List.Pairwise.nil
  | cons c calls ih =>
    have htail : InOrder calls := (List.pairwise_cons.mp horder).2
    refine List.pairwise_cons.mpr ⟨fun e he hboth => ?_, ?_⟩
    · exact h s c hs hboth.1 (hP _ List.mem_cons_self hboth.1) calls htail e he hboth.2
    · exact ih (hI s c hs) htail fun e he => hP e (List.mem_cons_of_mem _ he)

/-- What is refused while a property holds is refused in a run, if every call keeps the property up
to a time after which nothing is accepted. -/
theorem refused_in_run {step : σ → Time × κ → ρ × σ} {Accepts : Event σ (Time × κ) ρ → Prop}
    {J : σ → Prop} {T : Time} (hkeep : ∀ s c, c.1 < T → J s → J (step s c).2)
    (hrefuse : ∀ s c, Accepts (eventOf step s c) → c.1 < T ∧ ¬ J s) (hs : J s)
    (horder : InOrder calls) : ∀ e ∈ run step s calls, ¬ Accepts e := by
  intro e he haccepts
  obtain ⟨xs, ys, hsplit⟩ := List.append_of_mem he
  obtain ⟨ks₁, k, ks₂, -, -, rfl, -⟩ := run_eq_append_cons step hsplit
  obtain ⟨hbefore, hnot⟩ := hrefuse _ _ haccepts
  exact hnot (holds_of_mem_run Prod.fst hkeep hs horder _ he hbefore)

theorem seconds_add (t : Time) (n : Nat) : seconds (t + n * nanosPerSecond) = seconds t + n :=
  Nat.add_mul_div_right t n (by decide)

theorem lt_of_seconds_lt {u : Time} (h : seconds t < seconds u) : t < u := by
  rcases Nat.lt_or_ge t u with hlt | hge
  · exact hlt
  · have hle : seconds u ≤ seconds t := Nat.div_le_div_right hge
    omega

/-! ## `DpopState` -/

variable {lib : JwtLibrary}

section

variable {cache : MemoryCache}

inductive Call where
  | validate (proof expectedHtm expectedHtu : String) (requiredNonce : Option String)
  | recordJti (jti : String) (iat now : Nat)
  | issueNonce (ulid : String) (now : Nat)
  | consumeNonce (nonce : String) (now : Nat)

def step (lib : JwtLibrary) (cache : MemoryCache) :
    Time × Call → QidResult (Option String) × MemoryCache
  | (t, .validate proof htm htu requiredNonce) =>
    let r := validateDpopProof lib cache t proof htm htu requiredNonce
    (r.1.map some, r.2)
  | (t, .recordJti jti iat now) =>
    let r := recordJti cache t jti iat now
    (r.1.map fun _ => none, r.2)
  | (t, .issueNonce ulid now) =>
    let r := issueNonce cache t ulid now
    (r.1.map some, r.2)
  | (t, .consumeNonce nonce now) =>
    let r := consumeNonce cache t nonce now
    (r.1.map fun _ => none, r.2)

def Call.Presents (proof : String) (c : Call) : Prop :=
  ∃ htm htu requiredNonce, c = .validate proof htm htu requiredNonce

def Accepts (proof : String)
    (e : Event MemoryCache (Time × Call) (QidResult (Option String))) : Prop :=
  e.call.2.Presents proof ∧ ∃ jti, e.reply = .ok jti

theorem validateDpopProof_ok {requiredNonce : Option String}
    (h : (validateDpopProof lib cache t proof htm htu requiredNonce).1 = .ok jti) :
    ∃ iat nonce, Verified lib proof htm htu jti iat nonce ∧ Admits iat (seconds t) ∧
      cache.live t (replayKey jti) = false ∧
      ∃ cache' : MemoryCache, (validateDpopProof lib cache t proof htm htu requiredNonce).2 =
        cache'.set t (replayKey jti) "1" (jtiTtl iat (seconds t) * nanosPerSecond) := by
  rw [validateDpopProof] at h ⊢
  cases hclaims : validateDpopProofClaims lib t proof htm htu with
  | error =>
    rw [hclaims] at h
    cases h
  | ok claims =>
    obtain ⟨hverified, hadmits, hnow⟩ := claims_ok_iff.mp hclaims
    have hrecord : ∀ cache' : MemoryCache,
        (withJti claims.jti (recordJti cache' t claims.jti claims.iat claims.now)).1 = .ok jti →
        claims.jti = jti ∧ cache'.live t (replayKey jti) = false ∧
        (withJti claims.jti (recordJti cache' t claims.jti claims.iat claims.now)).2 =
          cache'.set t (replayKey jti) "1" (jtiTtl claims.iat (seconds t) * nanosPerSecond) := by
      intro cache' hok
      rw [recordJti] at hok ⊢
      split at hok
      · rename_i hset
        cases hok
        rw [if_pos hset, ← hnow]
        exact ⟨rfl, ExpiringMap.setIfAbsent_eq_true hset⟩
      · cases hok
    simp only [hclaims] at h ⊢
    cases requiredNonce with
    | none =>
      obtain ⟨rfl, hlive, hset⟩ := hrecord cache h
      exact ⟨claims.iat, claims.nonce, hverified, hadmits, hlive, cache, hset⟩
    | some required =>
      simp only at h ⊢
      split at h
      · cases h
      · rename_i hnonce
        rw [if_neg hnonce]
        cases hconsume : (consumeNonce cache t required claims.now).1 with
        | error =>
          simp only [hconsume] at h
          cases h
        | ok =>
          simp only [hconsume] at h ⊢
          obtain ⟨rfl, hlive, hset⟩ := hrecord _ h
          refine ⟨claims.iat, claims.nonce, hverified, hadmits, ?_, _, hset⟩
          rw [ExpiringMap.live] at hlive ⊢
          rwa [consumeNonce_cache, ExpiringMap.take,
            AList.lookup_erase_ne (replayKey_ne_nonceKey _ _)] at hlive

theorem held_step (h : cache.Held (replayKey jti) T) (c : Time × Call) (hc : c.1 < T) :
    (step lib cache c).2.Held (replayKey jti) T := by
  obtain ⟨t, c⟩ := c
  cases c with
  | validate proof htm htu requiredNonce =>
    show (validateDpopProof lib cache t proof htm htu requiredNonce).2.Held _ _
    rw [validateDpopProof]
    split
    · exact h
    · rename_i claims _
      cases requiredNonce with
      | none => exact held_recordJti h hc claims.jti claims.iat claims.now
      | some required =>
        have hconsumed := held_consumeNonce h t required claims.now
        dsimp only
        split
        · exact h
        · split
          · exact hconsumed
          · exact held_recordJti hconsumed hc claims.jti claims.iat claims.now
  | recordJti jti' iat now => exact held_recordJti h hc jti' iat now
  | issueNonce ulid now => exact h.set (replayKey_ne_nonceKey jti _) t _ _
  | consumeNonce nonce now => exact held_consumeNonce h t nonce now

variable {c : Time × Call} (hproof : Verified lib proof htm htu jti iat nonce)
include hproof

/-- An acceptance, with what it needs and what it stores. -/
theorem accepts_eventOf (h : Accepts proof (eventOf (step lib) cache c)) :
    Admits iat (seconds c.1) ∧ cache.live c.1 (replayKey jti) = false ∧
      ∃ cache' : MemoryCache, (step lib cache c).2 =
        cache'.set c.1 (replayKey jti) "1" (jtiTtl iat (seconds c.1) * nanosPerSecond) := by
  obtain ⟨⟨htm', htu', requiredNonce, hc⟩, reply, hreply⟩ := h
  obtain ⟨t, c⟩ := c
  cases hc
  cases hr : (validateDpopProof lib cache t proof htm' htu' requiredNonce).1 with
  | error =>
    simp only [eventOf, step, hr] at hreply
    cases hreply
  | ok =>
    obtain ⟨iat', nonce', hverified, hadmits, hlive, hset⟩ := validateDpopProof_ok hr
    obtain ⟨-, -, rfl, rfl⟩ := hproof.unique hverified
    exact ⟨hadmits, hlive, hset⟩

theorem not_accepted_again (haccepts : Accepts proof (eventOf (step lib) cache c))
    (hlate : iat + 60 < seconds c.1) {calls : List (Time × Call)} (horder : InOrder calls) :
    ∀ e ∈ run (step lib) (step lib cache c).2 calls, ¬ Accepts proof e := by
  obtain ⟨-, -, cache', hset⟩ := accepts_eventOf hproof haccepts
  have hheld : (step lib cache c).2.Held (replayKey jti)
      (c.1 + jtiTtl iat (seconds c.1) * nanosPerSecond) := by
    rw [hset]
    exact ExpiringMap.held_set_self _ _ _ _ _
  refine refused_in_run (J := fun s : MemoryCache => s.Held (replayKey jti) _)
    (fun s k hk h => held_step h k hk) (fun s k hagain => ?_) hheld horder
  obtain ⟨hadmits, hlive, -⟩ := accepts_eventOf hproof hagain
  -- the window closes before the entry expires
  have hbefore : k.1 < c.1 + jtiTtl iat (seconds c.1) * nanosPerSecond := by
    refine lt_of_seconds_lt ?_
    have hage := hadmits.le
    have httl : 60 ≤ jtiTtl iat (seconds c.1) := by
      rw [jtiTtl, jtiCacheTtlSecs]
      omega
    rw [maxProofAgeSecs] at hage
    rw [seconds_add]
    omega
  refine ⟨hbefore, fun h => ?_⟩
  rw [h.live hbefore] at hlive
  cases hlive

/-- Up to 60 seconds after `iat`, an accepted proof is accepted again once its entry has
expired. -/
theorem accepted_again (haccepts : Accepts proof (eventOf (step lib) cache c))
    (hearly : seconds c.1 ≤ iat + 60) :
    ∃ t, c.1 ≤ t ∧ Accepts proof
      (eventOf (step lib) (step lib cache c).2 (t, .validate proof htm htu none)) := by
  obtain ⟨hadmits, -, cache', hset⟩ := accepts_eventOf hproof haccepts
  have hagain : Admits iat (seconds (c.1 + jtiTtl iat (seconds c.1) * nanosPerSecond)) := by
    rw [seconds_add]
    refine hadmits.later ?_
    rw [jtiTtl, jtiCacheTtlSecs, saturatingAdd, maxProofAgeSecs]
    omega
  have hclaims := (claims_ok_iff (c := ⟨jti, iat, _, nonce⟩)).mpr ⟨hproof, hagain, rfl⟩
  refine ⟨_, Nat.le_add_right c.1 (jtiTtl iat (seconds c.1) * nanosPerSecond),
    ⟨htm, htu, none, rfl⟩, some jti, ?_⟩
  rw [hset]
  show (validateDpopProof lib _ _ proof htm htu none).1.map some = _
  rw [validateDpopProof, hclaims]
  simp only [recordJti]
  rw [if_pos (ExpiringMap.setIfAbsent_set_self _ _ _ _ (Nat.le_refl _) _)]
  rfl

end

/-! ## `RedisLikeCache` -/

section

variable {cache : RedisLikeCache}

inductive CacheCall where
  | validate (proof expectedHtm expectedHtu : String) (requiredNonce : Option String)
  | putIfAbsent (put : CachePut)

def cacheStep (lib : JwtLibrary) (cache : RedisLikeCache) :
    Time × CacheCall → QidResult (Option String) × RedisLikeCache
  | (t, .validate proof htm htu requiredNonce) =>
    let r := validateDpopProofWithCache lib cache t proof htm htu requiredNonce
    (r.1.map some, r.2)
  | (t, .putIfAbsent put) =>
    let r := cache.putIfAbsent t put
    (r.1.map fun _ => none, r.2)

def CacheCall.Presents (proof : String) (c : CacheCall) : Prop :=
  ∃ htm htu requiredNonce, c = .validate proof htm htu requiredNonce

def CacheAccepts (proof : String)
    (e : Event RedisLikeCache (Time × CacheCall) (QidResult (Option String))) : Prop :=
  e.call.2.Presents proof ∧ ∃ jti, e.reply = .ok jti

def proofKey (lib : JwtLibrary) (htm htu jti : String) : CacheKey :=
  { ns := "dpop_jti", digest := lib.sha256Hex (htm ++ ":" ++ htu ++ ":" ++ jti) }

theorem cacheKey_new (lib : JwtLibrary) (htm htu jti : String) :
    CacheKey.new lib.sha256Hex "dpop_jti" (htm ++ ":" ++ htu ++ ":" ++ jti) =
      .ok (proofKey lib htm htu jti) := rfl

def proofTtl (config : CacheBackendConfig) : Nat := min maxProofAgeSecs config.ttlSeconds

theorem putIfAbsent_jtiPut (cache : RedisLikeCache) (t : Time) (key : CacheKey) (iat : Nat) :
    cache.putIfAbsent t (jtiPut key iat) =
      (.ok (cache.entries.setIfAbsent t (cache.storeKey key) (toString iat)
          (proofTtl cache.config * nanosPerSecond)).1,
        { cache with
          entries := (cache.entries.setIfAbsent t (cache.storeKey key) (toString iat)
            (proofTtl cache.config * nanosPerSecond)).2 }) := by
  have httl : (jtiPut key iat).ttlSeconds ≠ 0 := (by decide : maxProofAgeSecs ≠ 0)
  have hvalue : (jtiPut key iat).value.isEmpty = false := by simp [jtiPut]
  rw [RedisLikeCache.putIfAbsent, hvalue, CacheKey.render, cache.valid]
  rfl

theorem cacheStep_config (cache : RedisLikeCache) (c : Time × CacheCall) :
    (cacheStep lib cache c).2.config = cache.config := by
  obtain ⟨t, c⟩ := c
  cases c with
  | putIfAbsent put => exact cache.putIfAbsent_config t put
  | validate =>
    simp only [cacheStep, validateDpopProofWithCache]
    split
    · rfl
    · split
      · rfl
      · rw [cacheKey_new]
        dsimp only
        split <;> exact cache.putIfAbsent_config t _

theorem held_cacheStep {k : String} (h : cache.entries.Held k T) (c : Time × CacheCall)
    (hc : c.1 < T) : (cacheStep lib cache c).2.entries.Held k T := by
  obtain ⟨t, c⟩ := c
  cases c with
  | putIfAbsent put => exact RedisLikeCache.held_putIfAbsent h hc put
  | validate =>
    simp only [cacheStep, validateDpopProofWithCache]
    split
    · exact h
    · split
      · exact h
      · rw [cacheKey_new]
        dsimp only
        split <;> exact RedisLikeCache.held_putIfAbsent h hc _

variable {c : Time × CacheCall} (hproof : Verified lib proof htm htu jti iat nonce)
include hproof

theorem cacheAccepts_eventOf (h : CacheAccepts proof (eventOf (cacheStep lib) cache c)) :
    Admits iat (seconds c.1) ∧
      cache.entries.live c.1 (cache.storeKey (proofKey lib htm htu jti)) = false ∧
      (cacheStep lib cache c).2 =
        { cache with
          entries := cache.entries.set c.1 (cache.storeKey (proofKey lib htm htu jti))
            (toString iat) (proofTtl cache.config * nanosPerSecond) } := by
  obtain ⟨⟨htm', htu', requiredNonce, hc⟩, reply, hreply⟩ := h
  obtain ⟨t, c⟩ := c
  cases hc
  simp only [eventOf, cacheStep, validateDpopProofWithCache] at hreply ⊢
  cases hclaims : validateDpopProofClaims lib t proof htm' htu' with
  | error =>
    rw [hclaims] at hreply
    cases hreply
  | ok claims =>
    obtain ⟨hverified, hadmits, -⟩ := claims_ok_iff.mp hclaims
    obtain ⟨rfl, rfl, rfl, rfl⟩ := hproof.unique hverified
    simp only [hclaims, cacheKey_new, putIfAbsent_jtiPut] at hreply ⊢
    split at hreply
    · cases hreply
    · rename_i hnonce
      rw [if_neg hnonce]
      cases hset : (cache.entries.setIfAbsent t
          (cache.storeKey (proofKey lib htm htu claims.jti)) (toString claims.iat)
          (proofTtl cache.config * nanosPerSecond)).1 with
      | false =>
        simp only [hset] at hreply
        cases hreply
      | true =>
        obtain ⟨hlive, hentries⟩ := ExpiringMap.setIfAbsent_eq_true hset
        rw [hentries]
        exact ⟨hadmits, hlive, rfl⟩

theorem not_accepted_again_with_cache
    (haccepts : CacheAccepts proof (eventOf (cacheStep lib) cache c))
    (hlate : iat + 120 < seconds c.1 + proofTtl cache.config) {calls : List (Time × CacheCall)}
    (horder : InOrder calls) :
    ∀ e ∈ run (cacheStep lib) (cacheStep lib cache c).2 calls, ¬ CacheAccepts proof e := by
  obtain ⟨-, -, hset⟩ := cacheAccepts_eventOf hproof haccepts
  let key := cache.storeKey (proofKey lib htm htu jti)
  let T := c.1 + proofTtl cache.config * nanosPerSecond
  have hafter : (cacheStep lib cache c).2.config = cache.config ∧
      (cacheStep lib cache c).2.entries.Held key T := by
    rw [hset]
    exact ⟨rfl, ExpiringMap.held_set_self _ _ _ _ _⟩
  refine refused_in_run
    (J := fun s : RedisLikeCache => s.config = cache.config ∧ s.entries.Held key T) (T := T)
    (fun s k hk h => ?_) (fun s k hagain => ?_) hafter horder
  · exact ⟨(cacheStep_config s k).trans h.1, held_cacheStep h.2 k hk⟩
  · obtain ⟨hadmits, hlive, -⟩ := cacheAccepts_eventOf hproof hagain
    have hbefore : k.1 < T := by
      refine lt_of_seconds_lt ?_
      have hage := hadmits.le
      rw [maxProofAgeSecs] at hage
      rw [seconds_add]
      omega
    refine ⟨hbefore, fun h => ?_⟩
    have hkey : s.storeKey (proofKey lib htm htu jti) = key := by
      rw [RedisLikeCache.storeKey, h.1]
      rfl
    rw [hkey, h.2.live hbefore] at hlive
    cases hlive

/-- Otherwise it is accepted again once its entry has expired. -/
theorem accepted_again_with_cache (haccepts : CacheAccepts proof (eventOf (cacheStep lib) cache c))
    (hearly : seconds c.1 + proofTtl cache.config ≤ iat + 120) :
    ∃ t, c.1 ≤ t ∧ CacheAccepts proof
      (eventOf (cacheStep lib) (cacheStep lib cache c).2 (t, .validate proof htm htu none)) := by
  obtain ⟨hadmits, -, hset⟩ := cacheAccepts_eventOf hproof haccepts
  have hagain : Admits iat (seconds (c.1 + proofTtl cache.config * nanosPerSecond)) := by
    rw [seconds_add]
    exact hadmits.later hearly
  have hclaims := (claims_ok_iff (c := ⟨jti, iat, _, nonce⟩)).mpr ⟨hproof, hagain, rfl⟩
  refine ⟨_, Nat.le_add_right c.1 (proofTtl cache.config * nanosPerSecond),
    ⟨htm, htu, none, rfl⟩, some jti, ?_⟩
  rw [hset]
  show (validateDpopProofWithCache lib _ _ proof htm htu none).1.map some = _
  rw [validateDpopProofWithCache, hclaims]
  simp only [cacheKey_new, putIfAbsent_jtiPut, RedisLikeCache.storeKey,
    ExpiringMap.setIfAbsent_set_self _ _ _ _ (Nat.le_refl _)]
  rfl

end

/-- A proof is accepted at most once in every run that presents it only when its recorded id
outlives the window; accepted at any other time, it is accepted again by some later call. -/
theorem accepted_at_most_once {lib : JwtLibrary} {proof htm htu jti : String} {iat : Nat}
    {nonce : Option String} (hproof : Verified lib proof htm htu jti iat nonce) :
    (∀ (cache : MemoryCache) (calls : List (Time × Call)), InOrder calls →
      (∀ c ∈ calls, c.2.Presents proof → iat + 60 < seconds c.1) →
      (run (step lib) cache calls).Pairwise fun a b => ¬ (Accepts proof a ∧ Accepts proof b)) ∧
    (∀ (cache : MemoryCache) (c : Time × Call), Accepts proof (eventOf (step lib) cache c) →
      ((∀ calls, InOrder (c :: calls) →
        ∀ e ∈ run (step lib) (step lib cache c).2 calls, ¬ Accepts proof e) ↔
      iat + 60 < seconds c.1)) ∧
    (∀ (cache : RedisLikeCache) (calls : List (Time × CacheCall)), InOrder calls →
      (∀ c ∈ calls, c.2.Presents proof → iat + 120 < seconds c.1 + proofTtl cache.config) →
      (run (cacheStep lib) cache calls).Pairwise
        fun a b => ¬ (CacheAccepts proof a ∧ CacheAccepts proof b)) ∧
    ∀ (cache : RedisLikeCache) (c : Time × CacheCall),
      CacheAccepts proof (eventOf (cacheStep lib) cache c) →
      ((∀ calls, InOrder (c :: calls) →
        ∀ e ∈ run (cacheStep lib) (cacheStep lib cache c).2 calls, ¬ CacheAccepts proof e) ↔
      iat + 120 < seconds c.1 + proofTtl cache.config) := by
  refine ⟨fun cache calls horder hlate => ?_, fun cache c haccepts => ⟨fun h => ?_, ?_⟩,
    fun cache calls horder hlate => ?_, fun cache c haccepts => ⟨fun h => ?_, ?_⟩⟩
  · refine pairwise_of_not_again (I := fun _ => True) (P := fun t => iat + 60 < seconds t)
      (fun _ _ h => h) (fun s c _ haccepts hP calls h => ?_) trivial horder fun e he haccepts => ?_
    · exact not_accepted_again hproof haccepts hP h
    · exact hlate e.call (call_mem_of_mem_run _ he) haccepts.1
  · by_contra hearly
    obtain ⟨t, ht, hagain⟩ := accepted_again hproof haccepts (Nat.not_lt.mp hearly)
    have horder : InOrder [c, (t, .validate proof htm htu none)] := by simp [InOrder, ht]
    exact h _ horder _ List.mem_cons_self hagain
  · exact fun hlate calls horder =>
      not_accepted_again hproof haccepts hlate (List.pairwise_cons.mp horder).2
  · refine pairwise_of_not_again
      (P := fun t => iat + 120 < seconds t + proofTtl cache.config)
      (fun s c h => (cacheStep_config s c).trans h) (fun s c hs haccepts hP calls h => ?_) rfl
      horder fun e he haccepts => ?_
    · rw [← hs] at hP
      exact not_accepted_again_with_cache hproof haccepts hP h
    · exact hlate e.call (call_mem_of_mem_run _ he) haccepts.1
  · by_contra hearly
    obtain ⟨t, ht, hagain⟩ := accepted_again_with_cache hproof haccepts (Nat.not_lt.mp hearly)
    have horder : InOrder [c, (t, .validate proof htm htu none)] := by simp [InOrder, ht]
    exact h _ horder _ List.mem_cons_self hagain
  · exact fun hlate calls horder =>
      not_accepted_again_with_cache hproof haccepts hlate (List.pairwise_cons.mp horder).2

/-- The token `h.p.s`, for a proof issued at 1000 seconds. -/
def sampleLibrary : JwtLibrary where
  decodeBase64Url s := some (s.toList.map fun c => UInt8.ofNat c.toNat)
  fromSlice bytes :=
    if bytes = [104] then
      .ok (.object [("alg", .string "ES256"), ("jwk", .object []), ("typ", .string "dpop+jwt")])
    else
      .ok (.object [("htm", .string "POST"), ("htu", .string "https://id.example/token"),
        ("iat", .number (.posInt 1000)), ("jti", .string "j1")])
  jwkAlg _ := .ok none
  verifyJwtSignatureWithJwk _ _ _ := .ok ()
  sha256Hex material := material

def samplePresents (s : Nat) : Time × Call :=
  (s * nanosPerSecond, .validate "h.p.s" "POST" "https://id.example/token" none)

def samplePresentsCache (s : Nat) : Time × CacheCall :=
  (s * nanosPerSecond, .validate "h.p.s" "POST" "https://id.example/token" none)

def sampleCache : RedisLikeCache where
  config := { kind := .redis, endpoints := ["redis://127.0.0.1:6379"], keyPrefix := "qid",
              ttlSeconds := 300 }
  entries := ∅
  valid := rfl
  enabled := by decide

theorem verified_sample : Verified sampleLibrary "h.p.s" "POST" "https://id.example/token" "j1"
    1000 none :=
  ⟨_, _, rfl, rfl, rfl, rfl, rfl⟩

/-- Presented in the second of its `iat`, a proof is accepted again after 60 seconds, and
over a shared cache after 120. -/
theorem proof_accepted_twice :
    InOrder [samplePresents 1000, samplePresents 1060] ∧
    ((run (step sampleLibrary) ∅ [samplePresents 1000, samplePresents 1060]).map Event.reply) =
      [.ok (some "j1"), .ok (some "j1")] ∧
    InOrder [samplePresentsCache 1000, samplePresentsCache 1120] ∧
    ((run (cacheStep sampleLibrary) sampleCache
        [samplePresentsCache 1000, samplePresentsCache 1120]).map Event.reply) =
      [.ok (some "j1"), .ok (some "j1")] := by
  refine ⟨by decide, by decide +kernel, by decide, by decide +kernel⟩

/-- Presented first after 61 seconds, it is not. -/
theorem accepted_at_most_once_sample :
    (∀ e ∈ run (step sampleLibrary) (step sampleLibrary ∅ (samplePresents 1061)).2
        [samplePresents 1100, samplePresents 1120], ¬ Accepts "h.p.s" e) ∧
    ∀ e ∈ run (cacheStep sampleLibrary)
        (cacheStep sampleLibrary sampleCache (samplePresentsCache 1001)).2
        [samplePresentsCache 1100, samplePresentsCache 1120], ¬ CacheAccepts "h.p.s" e := by
  obtain ⟨-, hstate, -, hcache⟩ := accepted_at_most_once verified_sample
  refine ⟨(hstate ∅ (samplePresents 1061) ⟨⟨_, _, _, rfl⟩, some "j1", ?_⟩).mpr ?_ _ ?_,
    (hcache sampleCache (samplePresentsCache 1001) ⟨⟨_, _, _, rfl⟩, some "j1", ?_⟩).mpr ?_ _ ?_⟩
  all_goals decide +kernel

section

variable {lib : JwtLibrary} {cache : MemoryCache} {t : Time} {nonce : String} {c : Call}

def Missing (nonce : String) (cache : MemoryCache) : Prop := cache.lookup (nonceKey nonce) = none

def Issues (nonce : String) (c : Time × Call) : Prop :=
  ∃ ulid now, c.2 = .issueNonce ulid now ∧ "dpop_nonce_" ++ ulid = nonce

def Spends (nonce : String) (e : Event MemoryCache (Time × Call) (QidResult (Option String))) :
    Prop :=
  (∃ proof htm htu, e.call.2 = .validate proof htm htu (some nonce)) ∧ ∃ jti, e.reply = .ok jti

theorem Missing.recordJti (h : Missing nonce cache) (jti : String) (iat now : Nat) :
    Missing nonce (recordJti cache t jti iat now).2 := by
  rw [Dpop.recordJti, ExpiringMap.setIfAbsent]
  split
  · exact h
  · exact (AList.lookup_insert_ne (replayKey_ne_nonceKey jti nonce).symm).trans h

theorem Missing.consumeNonce (h : Missing nonce cache) (used : String) (now : Nat) :
    Missing nonce (consumeNonce cache t used now).2 := by
  rw [Missing, consumeNonce_cache, ExpiringMap.take, KeyMap.lookup_erase_eq, h, ite_self]

theorem Missing.step (h : Missing nonce cache) (hc : ¬ Issues nonce (t, c)) :
    Missing nonce (step lib cache (t, c)).2 := by
  cases c with
  | validate proof htm htu requiredNonce =>
    show Missing nonce (validateDpopProof lib cache t proof htm htu requiredNonce).2
    rw [validateDpopProof]
    split
    · exact h
    · cases requiredNonce with
      | none => exact h.recordJti _ _ _
      | some required =>
        dsimp only
        split
        · exact h
        · split
          · exact h.consumeNonce _ _
          · exact (h.consumeNonce _ _).recordJti _ _ _
  | recordJti jti iat now => exact h.recordJti jti iat now
  | issueNonce ulid now =>
    refine (AList.lookup_insert_ne fun heq => hc ⟨ulid, now, rfl, ?_⟩).trans h
    simpa [nonceKey] using heq.symm
  | consumeNonce used now => exact h.consumeNonce used now

/-- A nonce that is spent was in the cache, and is taken from it. -/
theorem of_spends (h : Spends nonce (eventOf (step lib) cache (t, c))) :
    ¬ Missing nonce cache ∧ Missing nonce (step lib cache (t, c)).2 := by
  obtain ⟨⟨proof, htm, htu, rfl⟩, jti, hreply⟩ := h
  simp only [eventOf, step, validateDpopProof] at hreply ⊢
  split at hreply
  · cases hreply
  · rename_i claims _
    split at hreply
    · cases hreply
    · rename_i hnonce
      cases hconsume : (consumeNonce cache t nonce claims.now).1 with
      | error =>
        rw [hconsume] at hreply
        cases hreply
      | ok =>
        rw [if_neg hnonce]
        refine ⟨fun hmissing => ?_, Missing.recordJti ?_ _ _ _⟩
        · rw [Missing] at hmissing
          simp [consumeNonce, ExpiringMap.take, hmissing] at hconsume
        · rw [Missing, consumeNonce_cache, ExpiringMap.take, AList.lookup_erase]

end

/-- A nonce is spent once for each time it is issued: not before it is issued, and not again
until it is issued again. -/
theorem nonce_spent_once (lib : JwtLibrary) (nonce : String) :
    let Refused cache calls := (∀ c ∈ calls, ¬ Issues nonce c) →
      ∀ e ∈ run (step lib) cache calls, ¬ Spends nonce e
    (∀ calls, Refused ∅ calls) ∧
    ∀ cache c, Spends nonce (eventOf (step lib) cache c) →
      ∀ calls, Refused (step lib cache c).2 calls := by
  intro Refused
  have hrefused : ∀ cache, Missing nonce cache → ∀ calls, Refused cache calls := by
    intro cache hmissing calls hcalls e he hspends
    have hbefore := (run_invariant (step lib) (fun _ _ h hc => Missing.step h hc) hmissing
      fun e he => hcalls _ (call_mem_of_mem_run _ he)).1 e he
    obtain ⟨_, _, -, rfl⟩ := of_mem_run _ he
    exact (of_spends hspends).1 hbefore.1
  exact ⟨hrefused ∅ rfl, fun cache c hc => hrefused _ (of_spends hc).2⟩

def nonceLibrary : JwtLibrary :=
  { sampleLibrary with
    fromSlice := fun bytes => (sampleLibrary.fromSlice bytes).map
      (Json.Value.entryOrInsert "nonce" (.string "dpop_nonce_n")) }

theorem nonce_spent_once_sample :
    let present : Time × Call := (1010 * nanosPerSecond,
      .validate "h.p.s" "POST" "https://id.example/token" (some "dpop_nonce_n"))
    ∀ e ∈ run (step nonceLibrary) (final (step nonceLibrary) ∅
        [(1000 * nanosPerSecond, .issueNonce "n" 1000), present]) [present],
      ¬ Spends "dpop_nonce_n" e :=
  (nonce_spent_once nonceLibrary "dpop_nonce_n").2 _ _
    ⟨⟨_, _, _, rfl⟩, some "j1", by decide +kernel⟩ _ (by simp [Issues])

end Qid.Dpop
