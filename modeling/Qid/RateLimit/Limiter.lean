/-
The rate limiter of the authentication endpoints.

A `RateLimiter` counts requests in fixed windows, under one key for each axis of a request. At the
bound of the map, counters whose window has ended are pruned, and a key that still does not fit is
refused. A poisoned lock is left out.
-/
import Qid.Dpop.State

namespace Qid.RateLimit

open Lib
open Dpop (saturatingAdd u64Max)

abbrev U32 : Type := Fin (2 ^ 32)

def u32Max : Nat := 2 ^ 32 - 1

/-- `SystemTime` counts seconds in an `i64`. -/
abbrev Instant : Type := Fin (2 ^ 63)

-- the instances that numerals of the two types go through
instance neZeroU32 : NeZero (2 ^ 32 : Nat) := ⟨by decide⟩

instance neZeroInstant : NeZero (2 ^ 63 : Nat) := ⟨by decide⟩

inductive RateLimitKey where
  | user (value : String)
  | ip (value : String)
  | device (value : String)
  | asn (value : String)
  | tenant (value : String)
  deriving DecidableEq

structure RateLimitConfig where
  maxPerUser : U32 := 5
  maxPerIp : U32 := 20
  maxPerAsn : U32 := 50
  maxPerDevice : U32 := 10
  maxPerTenant : U32 := 100
  windowSeconds : Nat := 300

structure AxisLimit where
  max : U32
  windowSeconds : Nat
  deriving DecidableEq

structure WindowEntry where
  count : Nat
  windowStart : Nat
  /-- The window the count was counted in. -/
  windowSeconds : Nat
  deriving DecidableEq

abbrev Entries : Type := KeyMap RateLimitKey WindowEntry

structure RateLimitState where
  entries : Entries := ∅
  /-- A lower bound on the next expiry. -/
  nextExpiry : Nat := u64Max

def WindowEntry.expiry (entry : WindowEntry) : Nat :=
  saturatingAdd entry.windowStart entry.windowSeconds

def RateLimitState.pruneExpired (s : RateLimitState) (now : Instant) : RateLimitState :=
  let entries := s.entries.filter fun _ entry => now.val < entry.expiry
  { entries := entries
    nextExpiry := (entries.values.map WindowEntry.expiry).min?.getD u64Max }

inductive AxisState where
  | admitted (count : Nat)
  | denied
  deriving DecidableEq

/-- The count of a key in a window that runs now, of the given length. -/
def windowCount (entries : Entries) (key : RateLimitKey) (now : Instant) (window : Nat) : Nat :=
  match entries.lookup key with
  | some entry => if now.val < saturatingAdd entry.windowStart window then entry.count else 0
  | none => 0

def axisState (entries : Entries) (key : RateLimitKey) (now : Instant) (limit : AxisLimit) :
    AxisState :=
  let count := windowCount entries key now limit.windowSeconds
  if limit.max.val ≤ count then .denied else .admitted (min (count + 1) u32Max)

structure RateLimiter where
  config : RateLimitConfig := {}
  maxEntries : Nat := 100000

namespace RateLimiter

variable (limiter : RateLimiter) (s : RateLimitState) (key : RateLimitKey)

def reserveKey (now : Instant) : Bool × RateLimitState :=
  if key ∈ s.entries ∨ s.entries.size < limiter.maxEntries then (true, s)
  else
    let s := if s.nextExpiry ≤ now.val then s.pruneExpired now else s
    (decide (key ∈ s.entries ∨ s.entries.size < limiter.maxEntries), s)

/-- The key, its limit, and the count once the request counts. -/
abbrev Plan : Type := List (RateLimitKey × AxisLimit × Nat)

def needed (plan : Plan) : Nat := plan.countP fun p => p.1 ∉ s.entries

/-- Reserve all keys of an admission before counting any of them. -/
def reservePlan (plan : Plan) (now : Instant) : Bool × RateLimitState :=
  let s := if limiter.maxEntries < s.entries.size + needed s plan ∧ s.nextExpiry ≤ now.val then
    s.pruneExpired now else s
  (decide (s.entries.size + needed s plan ≤ limiter.maxEntries), s)

def commit (now : Instant) (limit : AxisLimit) (count : Nat) : RateLimitState :=
  let entry := (s.entries.lookup key).getD
    { count := 0, windowStart := now.val, windowSeconds := limit.windowSeconds }
  let start :=
    if saturatingAdd entry.windowStart limit.windowSeconds ≤ now.val then now.val
    else entry.windowStart
  { entries := s.entries.insert key
      { count := count, windowStart := start, windowSeconds := limit.windowSeconds }
    nextExpiry := min s.nextExpiry (saturatingAdd now.val limit.windowSeconds) }

def checkKey (now : Instant) (limit : AxisLimit) : Bool × RateLimitState :=
  match axisState s.entries key now limit with
  | .denied => (false, s)
  | .admitted count =>
    match limiter.reserveKey s key now with
    | (false, s) => (false, s)
    | (true, s) => (true, commit s key now limit count)

abbrev Axis : Type := RateLimitKey × AxisLimit

/-- Up to the first that refuses. -/
def checkAxes (now : Instant) : List Axis → RateLimitState → Bool × RateLimitState
  | [], s => (true, s)
  | (key, limit) :: axes, s =>
    match limiter.checkKey s key now limit with
    | (false, s) => (false, s)
    | (true, s) => checkAxes now axes s

structure CheckArgs where
  userId : Option String := none
  ip : Option String := none
  deviceId : Option String := none
  asn : Option String := none
  tenant : Option String := none

/-- In the order in which it decides them. -/
def CheckArgs.axes (q : CheckArgs) (config : RateLimitConfig) : List Axis :=
  [ q.userId.map fun v => (.user v, ⟨config.maxPerUser, config.windowSeconds⟩),
    q.ip.map fun v => (.ip v, ⟨config.maxPerIp, config.windowSeconds⟩),
    q.deviceId.map fun v => (.device v, ⟨config.maxPerDevice, config.windowSeconds⟩),
    q.asn.map fun v => (.asn v, ⟨config.maxPerAsn, config.windowSeconds⟩),
    q.tenant.map fun v => (.tenant v, ⟨config.maxPerTenant, config.windowSeconds⟩) ].reduceOption

variable (now : Instant)

def check (q : CheckArgs) : Bool × RateLimitState := limiter.checkAxes now (q.axes limiter.config) s

def userTenantAxes (user : Option String) (userLimit : AxisLimit) (tenant : Option String)
    (tenantLimit : AxisLimit) : List Axis :=
  [ user.map fun v => (.user v, userLimit),
    tenant.map fun v => (.tenant v, tenantLimit) ].reduceOption

def planAxes (entries : Entries) (now : Instant) : List Axis → Option Plan
  | [] => some []
  | (key, limit) :: axes =>
    match axisState entries key now limit with
    | .denied => none
    | .admitted count => (planAxes entries now axes).map fun plan => (key, limit, count) :: plan

def commitPlan (plan : Plan) (s : RateLimitState) : RateLimitState :=
  plan.foldl (fun s p => commit s p.1 now p.2.1 p.2.2) s

/-- Each axis has its own limit and its own window. -/
def checkUserTenant (user : Option String) (userLimit : AxisLimit) (tenant : Option String)
    (tenantLimit : AxisLimit) : Bool × RateLimitState :=
  match planAxes s.entries now (userTenantAxes user userLimit tenant tenantLimit) with
  | none => (false, s)
  | some plan =>
    match limiter.reservePlan s plan now with
    | (false, s) => (false, s)
    | (true, s) => (true, commitPlan now plan s)

def releaseAxis (key : RateLimitKey) : RateLimitState :=
  match s.entries.lookup key with
  | none => s
  | some entry =>
    if entry.expiry ≤ now.val then s
    else if entry.count ≤ 1 then { s with entries := s.entries.erase key }
    else { s with entries := s.entries.insert key { entry with count := entry.count - 1 } }

def releaseUser (userId : String) : RateLimitState := releaseAxis s now (.user userId)

def releaseTenant (tenant : String) : RateLimitState := releaseAxis s now (.tenant tenant)

def resetUser (userId : String) : RateLimitState :=
  { s with entries := s.entries.erase (.user userId) }

def clearMatching (pred : RateLimitKey → Bool) : RateLimitState :=
  { s with entries := s.entries.filter fun key _ => !pred key }

inductive Op where
  | check (q : CheckArgs)
  | checkUserTenant (user : Option String) (userLimit : AxisLimit) (tenant : Option String)
      (tenantLimit : AxisLimit)
  | prune
  | release (key : RateLimitKey)
  | resetUser (userId : String)
  | clearMatching (pred : RateLimitKey → Bool)

structure Call where
  now : Instant
  op : Op

/-- A call without an answer answers `true`. -/
def step (c : Call) : Bool × RateLimitState :=
  match c.op with
  | .check q => limiter.check s c.now q
  | .checkUserTenant user userLimit tenant tenantLimit =>
    limiter.checkUserTenant s c.now user userLimit tenant tenantLimit
  | .prune => (true, s.pruneExpired c.now)
  | .release key => (true, releaseAxis s c.now key)
  | .resetUser userId => (true, RateLimiter.resetUser s userId)
  | .clearMatching pred => (true, RateLimiter.clearMatching s pred)

end RateLimiter
end Qid.RateLimit
