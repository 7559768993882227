/-
The replay caches of DPoP proofs.

A time is counted in nanoseconds since the epoch, so that the cache, which reads a monotonic clock,
and the checks, which read whole seconds, share it. A clock stays far below `2 ^ 64` seconds, and
sums with it are exact.
-/
import Qid.Core.Basic
import Qid.Lib.Expiry

namespace Qid.Dpop

open Lib

/-- Nanoseconds since the epoch. -/
abbrev Time : Type := Nat

def nanosPerSecond : Nat := 1000000000

def seconds (t : Time) : Nat := t / nanosPerSecond

def u64Max : Nat := 2 ^ 64 - 1

def saturatingAdd (a b : Nat) : Nat := min (a + b) u64Max

/-- It wraps around in a release build and panics in a debug build. -/
def wrappingSub (a b : Nat) : Nat := if b ≤ a then a - b else 2 ^ 64 + a - b

def parseU64 (s : String) : Option Nat :=
  let digits := if s.toList.head? = some '+' then s.toList.tail else s.toList
  if digits.isEmpty || !digits.all Char.isDigit then none
  else
    let n := digits.foldl (fun n c => 10 * n + (c.toNat - '0'.toNat)) 0
    if n ≤ u64Max then some n else none

/-- The bytes of its values are text. -/
abbrev MemoryCache : Type := ExpiringMap String

def jtiCacheTtlSecs : Nat := 60
def nonceCacheTtlSecs : Nat := 300

def replayKey (jti : String) : String := "dpop:jti" ++ ":" ++ jti

def nonceKey (nonce : String) : String := "dpop:nonce" ++ ":" ++ nonce

theorem replayKey_ne_nonceKey (jti nonce : String) : replayKey jti ≠ nonceKey nonce := by
  intro h
  have hlist := congrArg String.toList h
  simp [replayKey, nonceKey] at hlist

def jtiTtl (iat now : Nat) : Nat :=
  max (max (saturatingAdd iat jtiCacheTtlSecs) (now + jtiCacheTtlSecs) - now) 1

variable (cache : MemoryCache)

def recordJti (t : Time) (jti : String) (iat now : Nat) : QidResult Unit × MemoryCache :=
  let r := cache.setIfAbsent t (replayKey jti) "1" (jtiTtl iat now * nanosPerSecond)
  if r.1 then (.ok (), r.2)
  else (.error (.badRequest "DPoP proof jti already used (replay detected)"), r.2)

def issueNonce (t : Time) (ulid : String) (now : Nat) : QidResult String × MemoryCache :=
  let nonce := "dpop_nonce_" ++ ulid
  (.ok nonce, cache.set t (nonceKey nonce) (toString now) (nonceCacheTtlSecs * nanosPerSecond))

def consumeNonce (t : Time) (nonce : String) (now : Nat) : QidResult Unit × MemoryCache :=
  let r := cache.take t (nonceKey nonce)
  match r.1 with
  | none => (.error (.dpopNonce "DPoP proof nonce is missing, expired, or already used"), r.2)
  | some issuedAt =>
    match parseU64 issuedAt with
    | none => (.error (.internal "DPoP nonce cache entry is invalid"), r.2)
    | some issuedAt =>
      if now - issuedAt ≥ nonceCacheTtlSecs then
        (.error (.dpopNonce "DPoP proof nonce is expired"), r.2)
      else (.ok (), r.2)

variable {t : Time}

theorem consumeNonce_cache (cache : MemoryCache) (t : Time) (nonce : String) (now : Nat) :
    (consumeNonce cache t nonce now).2 = (cache.take t (nonceKey nonce)).2 := by
  rw [consumeNonce]
  split
  · rfl
  · split
    · rfl
    · split <;> rfl

section

variable {cache : MemoryCache} {jti : String} {T : Nat} (h : cache.Held (replayKey jti) T)
include h

theorem held_recordJti (ht : t < T) (jti' : String) (iat now : Nat) :
    (recordJti cache t jti' iat now).2.Held (replayKey jti) T := by
  have hset := h.setIfAbsent ht (replayKey jti') "1" (jtiTtl iat now * nanosPerSecond)
  rw [recordJti]
  split <;> exact hset

theorem held_consumeNonce (t : Time) (nonce : String) (now : Nat) :
    (consumeNonce cache t nonce now).2.Held (replayKey jti) T := by
  rw [consumeNonce_cache]
  exact h.take (replayKey_ne_nonceKey jti nonce) t

end

inductive CacheBackendKind where
  | disabled
  | redis
  | valkey
  deriving DecidableEq

structure CacheBackendConfig where
  kind : CacheBackendKind
  endpoints : List String
  keyPrefix : String
  ttlSeconds : Nat
  deriving DecidableEq

def CacheBackendConfig.validate (config : CacheBackendConfig) : QidResult Unit :=
  if config.kind = .disabled then .ok ()
  else if config.endpoints.isEmpty then
    .error (.badRequest "Cache backend requires at least one endpoint")
  else if (trim config.keyPrefix).isEmpty then
    .error (.badRequest "Cache key prefix must not be empty")
  else if config.ttlSeconds = 0 then
    .error (.badRequest "Cache TTL must be greater than zero")
  else .ok ()

/-- A cache that `new` has accepted, with the keys of the store behind it. -/
structure RedisLikeCache where
  config : CacheBackendConfig
  entries : ExpiringMap String
  valid : config.validate = .ok ()
  enabled : config.kind ≠ .disabled

/-- A namespace, and the SHA-256 digest of what the key stands for. -/
structure CacheKey where
  ns : String
  digest : String
  deriving DecidableEq

def CacheKey.new (sha256Hex : String → String) (ns material : String) : QidResult CacheKey :=
  if (trim ns).isEmpty then .error (.badRequest "Cache namespace must not be empty")
  else .ok { ns := ns, digest := sha256Hex material }

def trimColons (s : String) : String :=
  String.ofList (((s.toList.dropWhile (· == ':')).reverse.dropWhile (· == ':')).reverse)

def CacheKey.render (key : CacheKey) (config : CacheBackendConfig) : QidResult String := do
  config.validate
  return trimColons config.keyPrefix ++ ":" ++ key.ns ++ ":" ++ key.digest

structure CachePut where
  key : CacheKey
  value : String
  ttlSeconds : Nat
  deriving DecidableEq

variable (cache : RedisLikeCache)

def RedisLikeCache.ttl (put : CachePut) : Nat := min put.ttlSeconds cache.config.ttlSeconds

/-- Over a store that refuses exactly the live keys. -/
def RedisLikeCache.putIfAbsent (t : Time) (put : CachePut) : QidResult Bool × RedisLikeCache :=
  if put.ttlSeconds = 0 then
    (.error (.badRequest "Cache put TTL must be greater than zero"), cache)
  else if put.value.isEmpty then
    (.error (.badRequest "Cache value must not be empty"), cache)
  else
    match put.key.render cache.config with
    | .error e => (.error e, cache)
    | .ok key =>
      let r := cache.entries.setIfAbsent t key put.value (cache.ttl put * nanosPerSecond)
      (.ok r.1, { cache with entries := r.2 })

namespace RedisLikeCache

def storeKey (key : CacheKey) : String :=
  trimColons cache.config.keyPrefix ++ ":" ++ key.ns ++ ":" ++ key.digest

theorem putIfAbsent_config (t : Time) (put : CachePut) :
    (cache.putIfAbsent t put).2.config = cache.config := by
  rw [putIfAbsent]
  split
  · rfl
  · split
    · rfl
    · split <;> rfl

theorem held_putIfAbsent {cache : RedisLikeCache} {k : String} {T : Nat}
    (h : cache.entries.Held k T) (ht : t < T) (put : CachePut) :
    (cache.putIfAbsent t put).2.entries.Held k T := by
  rw [putIfAbsent]
  split
  · exact h
  · split
    · exact h
    · split
      · exact h
      · exact h.setIfAbsent ht _ _ _

end RedisLikeCache

end Qid.Dpop
