/-
Replays of client assertions and of bearer assertions.

A translation of `extract_private_key_jwt_at` (`qid-oauth/src/dpop/private_key_jwt.rs`), of
`validate_jwt_bearer_assertion` (`qid-oauth/src/endpoints/token.rs`) and of the calls of `DpopState`
that they make. The deadline of an entry is an `Instant`, an `i64` of seconds from an origin of its
own: a later one panics while the cache is locked, and the poisoned lock refuses every later
assertion.
-/
import Qid.Dpop.Replay
import Qid.Lib.Text

namespace Qid.Dpop.Assertion

open Lib Json

variable {key : String}

structure ReplayCache where
  entries : MemoryCache := ∅
  poisoned : Bool := false

def assertionReplayKey (protocol clientId jti : String) : String :=
  "assertion:" ++ prefixed protocol ++ ":" ++ prefixed clientId ++ ":" ++ prefixed jti

def entryKey (key : String) : String := "assertion:jti" ++ ":" ++ key

def replayTtl (expiresAt now : Nat) : Nat := max (expiresAt - now) 1

/-- Missing where the call panics. The clock of the cache is zero at `origin`. -/
def recordReplayKey (origin : Time) (s : ReplayCache) (t : Time) (key : String)
    (expiresAt now : Nat)
    (replayMessage : String) : Option (QidResult Unit) × ReplayCache :=
  if s.poisoned then
    (some (.error (.internal
      "memory cache lock poisoned: poisoned lock: another task failed inside")), s)
  else
    let ttl := replayTtl expiresAt now
    if s.entries.live t (entryKey key) then (some (.error (.badRequest replayMessage)), s)
    else if 2 ^ 63 ≤ seconds (t - origin) + ttl then (none, { s with poisoned := true })
    else
      (some (.ok ()),
        { s with entries := s.entries.set t (entryKey key) "1" (ttl * nanosPerSecond) })

def recordAssertionJti (origin : Time) (s : ReplayCache) (t : Time) (protocol clientId jti : String)
    (expiresAt now : Nat) (replayMessage : String) : Option (QidResult Unit) × ReplayCache :=
  recordReplayKey origin s t (assertionReplayKey protocol clientId jti) expiresAt now replayMessage

theorem assertionReplayKey_inj {p p' c c' j j' : String}
    (h : assertionReplayKey p c j = assertionReplayKey p' c' j') : p = p' ∧ c = c' ∧ j = j' := by
  simp only [assertionReplayKey, String.append_assoc, String.append_right_inj] at h
  obtain ⟨rfl, hrest⟩ := prefixed_append_inj h
  obtain ⟨rfl, hlast⟩ := prefixed_append_inj ((String.append_right_inj ":").mp hrest)
  have hjti : prefixed j ++ "" = prefixed j' ++ "" := by rw [(String.append_right_inj ":").mp hlast]
  exact ⟨rfl, rfl, (prefixed_append_inj hjti).1⟩

inductive Scope where
  | privateKeyJwt
  | jwtBearer
  deriving DecidableEq

/-- The reading of a text as header and payload, and the check of its signature. -/
structure Verifier where
  parseJwtUnverified : Scope → String → QidResult (Value × Value)
  verifySignature : Scope → String → Value → Value → QidResult Unit

def u64Field (v : Value) (key : String) : Option Nat :=
  ((v.get key).bind Value.asU64).map UInt64.toNat

def audienceMatches (issuer : String) : Option Value → Bool
  | some (.string value) => value == issuer
  | some (.array [value]) => value.asStr == some issuer
  | _ => false

def jsonAudienceMatches (expected : String) : Option Value → Bool
  | some (.string value) => value == expected
  | some (.array values) => values.any fun value => value.asStr == some expected
  | _ => false

variable (V : Verifier)

def checkPrivateKeyJwt (clientAssertion clientId issuer : String) (clientJwks : Value) (now : Nat) :
    QidResult (String × Nat) := do
  let parsed ← V.parseJwtUnverified .privateKeyJwt clientAssertion
  V.verifySignature .privateKeyJwt clientAssertion parsed.1 clientJwks
  let iss ← okOr (strField parsed.2 "iss") (.badRequest "client_assertion missing iss claim")
  ensure (iss = clientId) (.badRequest
    ("client_assertion iss mismatch: expected '" ++ clientId ++ "', got '" ++ iss ++ "'"))
  let sub ← okOr (strField parsed.2 "sub") (.badRequest "client_assertion missing sub claim")
  ensure (sub = clientId) (.badRequest
    ("client_assertion sub mismatch: expected '" ++ clientId ++ "', got '" ++ sub ++ "'"))
  ensure (audienceMatches issuer (parsed.2.get "aud"))
    (.badRequest ("client_assertion aud mismatch: expected '" ++ issuer ++ "'"))
  let exp ← okOr (u64Field parsed.2 "exp")
    (.badRequest "client_assertion missing or invalid exp claim")
  ensure (now < exp) (.badRequest "client_assertion has expired")
  let jti ← okOr (strField parsed.2 "jti") (.badRequest "client_assertion missing jti claim")
  return (jti, exp)

structure ValidatedJwtBearerAssertion where
  subject : String
  issuer : String
  cnf : Option Value

def trimEndSlashes (s : String) : String :=
  String.ofList (s.toList.reverse.dropWhile (· == '/')).reverse

def checkJwtBearer (clientId : String) (jwks : Value) (issuer tokenPath assertion : String)
    (now : Nat) : QidResult ((String × Nat) × ValidatedJwtBearerAssertion) := do
  let parsed ← V.parseJwtUnverified .jwtBearer assertion
  V.verifySignature .jwtBearer assertion parsed.1 jwks
  let iss ← okOr (strField parsed.2 "iss") (.unauthorized "jwt bearer assertion missing iss claim")
  ensure (iss = clientId) (.unauthorized "jwt bearer assertion issuer is not a registered client")
  let subject ← okOr ((strField parsed.2 "sub").filter fun sub => !(trim sub).isEmpty)
    (.unauthorized "jwt bearer assertion missing sub claim")
  ensure (jsonAudienceMatches (trimEndSlashes issuer ++ tokenPath) (parsed.2.get "aud"))
    (.unauthorized "jwt bearer assertion audience mismatch")
  let exp ← okOr (u64Field parsed.2 "exp") (.unauthorized "jwt bearer assertion missing exp claim")
  ensure (now < exp) (.unauthorized "jwt bearer assertion has expired")
  ensure ((u64Field parsed.2 "nbf").all (· ≤ now + 60))
    (.unauthorized "jwt bearer assertion is not yet valid")
  ensure ((u64Field parsed.2 "iat").all (· ≤ now + 60))
    (.unauthorized "jwt bearer assertion iat is in the future")
  let jti ← okOr (strField parsed.2 "jti") (.unauthorized "jwt bearer assertion missing jti claim")
  return ((jti, exp), ⟨subject, iss, parsed.2.get "cnf"⟩)

def Scope.protocol : Scope → String
  | .privateKeyJwt => "oauth-private-key-jwt"
  | .jwtBearer => "oauth-jwt-bearer"

def Scope.replayMessage : Scope → String
  | .privateKeyJwt => "client_assertion jti already used (replay detected)"
  | .jwtBearer => "jwt bearer assertion jti already used (replay detected)"

variable (origin : Time) (s : ReplayCache)

def extractPrivateKeyJwtAt (t : Time) (clientAssertion clientId issuer : String)
    (clientJwks : Value) (now : Nat) : Option (QidResult Unit) × ReplayCache :=
  match checkPrivateKeyJwt V clientAssertion clientId issuer clientJwks now with
  | .error e => (some (.error e), s)
  | .ok (jti, exp) =>
    recordAssertionJti origin s t Scope.privateKeyJwt.protocol clientId jti exp now
      Scope.privateKeyJwt.replayMessage

def validateJwtBearerAssertion (t : Time) (clientId : String) (jwks : Value)
    (issuer tokenPath assertion : String) (now : Nat) :
    Option (QidResult ValidatedJwtBearerAssertion) × ReplayCache :=
  match checkJwtBearer V clientId jwks issuer tokenPath assertion now with
  | .error e => (some (.error e), s)
  | .ok ((jti, exp), value) =>
    let r := recordAssertionJti origin s t Scope.jwtBearer.protocol clientId jti exp now
      Scope.jwtBearer.replayMessage
    (r.1.map (·.map fun _ => value), r.2)

structure Call where
  scope : Scope
  assertion : String
  clientId : String
  jwks : Value
  issuer : String
  tokenPath : String

def step (c : Time × Call) : Option (QidResult Unit) × ReplayCache :=
  match c.2.scope with
  | .privateKeyJwt =>
    extractPrivateKeyJwtAt V origin s c.1 c.2.assertion c.2.clientId c.2.issuer c.2.jwks
      (seconds c.1)
  | .jwtBearer =>
    let r := validateJwtBearerAssertion V origin s c.1 c.2.clientId c.2.jwks c.2.issuer
      c.2.tokenPath c.2.assertion (seconds c.1)
    (r.1.map (·.map fun _ => ()), r.2)

/-- The checks of a call, but that for a replay. -/
def Call.check (c : Call) (now : Nat) : QidResult (String × Nat) :=
  match c.scope with
  | .privateKeyJwt => checkPrivateKeyJwt V c.assertion c.clientId c.issuer c.jwks now
  | .jwtBearer => do
    let k ← checkJwtBearer V c.clientId c.jwks c.issuer c.tokenPath c.assertion now
    return k.1

/-- The call passes them, with this id and deadline. -/
def Passes (c : Time × Call) (jti : String) (exp : Nat) : Prop :=
  c.2.check V (seconds c.1) = .ok (jti, exp)

/-- A deadline fits in the clock of the cache. -/
def Fits (t : Time) (exp : Nat) : Prop := seconds (t - origin) + (exp - seconds t) < 2 ^ 63

def callKey (c : Call) (jti : String) : String :=
  entryKey (assertionReplayKey c.scope.protocol c.clientId jti)

variable {V : Verifier} {origin : Time} {s : ReplayCache} {c d : Time × Call}
  {jti jti' : String} {exp exp' : Nat}

/-- What a call that passes the checks has read from the text alone. -/
theorem Passes.read (h : Passes V c jti exp) :
    seconds c.1 < exp ∧ ∃ header payload,
      V.parseJwtUnverified c.2.scope c.2.assertion = .ok (header, payload) ∧
      strField payload "iss" = some c.2.clientId ∧ u64Field payload "exp" = some exp ∧
      strField payload "jti" = some jti := by
  unfold Passes Call.check at h
  split at h <;> rename_i hscope
  · simp only [checkPrivateKeyJwt, bind_eq_ok, okOr_eq_ok, ensure_eq_ok] at h
    obtain ⟨p, hp, -, -, iss, hiss, -, rfl, -, -, -, -, -, -, exp', hexp, -, hlt, jti', hjti,
      heq⟩ := h
    cases heq
    exact ⟨hlt, p.1, p.2, hscope ▸ hp, hiss, hexp, hjti⟩
  · simp only [checkJwtBearer, bind_eq_ok, okOr_eq_ok, ensure_eq_ok, pure_eq_ok] at h
    obtain ⟨k, ⟨p, hp, -, -, iss, hiss, -, rfl, subject, -, -, -, exp', hexp, -, hlt, -, -, -, -,
      jti', hjti, rfl⟩, heq⟩ := h
    cases heq
    exact ⟨hlt, p.1, p.2, hscope ▸ hp, hiss, hexp, hjti⟩

theorem step_eq (V : Verifier) (origin : Time) (s : ReplayCache) (c : Time × Call) :
    step V origin s c = match c.2.check V (seconds c.1) with
      | .error e => (some (.error e), s)
      | .ok k =>
        recordAssertionJti origin s c.1 c.2.scope.protocol c.2.clientId k.1 k.2 (seconds c.1)
          c.2.scope.replayMessage := by
  unfold step Call.check
  split <;> rename_i hscope
  · simp only [extractPrivateKeyJwtAt, hscope]
    split <;> rename_i heq <;> rw [heq]
  · simp only [validateJwtBearerAssertion, hscope]
    cases checkJwtBearer V c.2.clientId c.2.jwks c.2.issuer c.2.tokenPath c.2.assertion
      (seconds c.1) with
    | error => rfl
    | ok k =>
      dsimp only [bind, Except.bind, pure, Except.pure]
      generalize recordAssertionJti _ _ _ _ _ _ _ _ _ = r
      obtain ⟨_ | _ | _, _⟩ := r <;> rfl

inductive Moved (V : Verifier) (origin : Time) (s : ReplayCache) (c : Time × Call) :
    Option (QidResult Unit) × ReplayCache → Prop
  | refused (e : QidError) (h : ∀ jti exp, Passes V c jti exp → s.poisoned = true ∨
      s.entries.live c.1 (callKey c.2 jti) = true) : Moved V origin s c (some (.error e), s)
  | panicked (jti : String) (exp : Nat) (h : Passes V c jti exp) (hbig : ¬Fits origin c.1 exp) :
      Moved V origin s c (none, { s with poisoned := true })
  | accepted (jti : String) (exp : Nat) (h : Passes V c jti exp)
      (hlive : s.entries.live c.1 (callKey c.2 jti) = false) :
      Moved V origin s c (some (.ok ()), { s with
        entries := s.entries.set c.1 (callKey c.2 jti) "1" ((exp - seconds c.1) * nanosPerSecond) })

theorem moved (V : Verifier) (origin : Time) (s : ReplayCache) (c : Time × Call) :
    Moved V origin s c (step V origin s c) := by
  rw [step_eq]
  cases hk : c.2.check V (seconds c.1) with
  | error e => exact .refused e fun jti exp h => nomatch hk.symm.trans h
  | ok k =>
    obtain ⟨jti, exp⟩ := k
    have hlt := (show Passes V c jti exp from hk).read.1
    have httl : replayTtl exp (seconds c.1) = exp - seconds c.1 := by
      rw [replayTtl]
      omega
    have hself : ∀ j x, Passes V c j x → j = jti := fun j x h =>
      (Prod.mk.inj (Except.ok.inj (h.symm.trans hk))).1
    simp only [recordAssertionJti, recordReplayKey, httl]
    split
    · exact .refused _ fun j x h => Or.inl ‹_›
    · split
      · rename_i hlive
        exact .refused _ fun j x h => Or.inr (hself j x h ▸ hlive)
      · rename_i hlive
        split
        · rename_i hbig
          exact .panicked jti exp hk (Nat.not_lt.mpr hbig)
        · exact .accepted jti exp hk (Bool.eq_false_iff.mpr hlive)

abbrev CallEvent : Type := Event ReplayCache (Time × Call) (Option (QidResult Unit))

def Accepts (scope : Scope) (assertion : String) (e : CallEvent) : Prop :=
  (e.call.2.scope = scope ∧ e.call.2.assertion = assertion) ∧ e.reply = some (.ok ())

theorem of_accepted (h : (step V origin s c).1 = some (.ok ())) :
    ∃ jti exp, Passes V c jti exp ∧ s.entries.live c.1 (callKey c.2 jti) = false ∧
      (step V origin s c).2.entries = s.entries.set c.1 (callKey c.2 jti) "1"
        ((exp - seconds c.1) * nanosPerSecond) := by
  have hmoved := moved V origin s c
  generalize step V origin s c = r at hmoved h ⊢
  cases hmoved with
  | accepted jti exp hp hlive => exact ⟨jti, exp, hp, hlive, rfl⟩
  | _ => cases h

theorem held_step {T : Nat} (h : s.entries.Held key T) (hc : c.1 < T) :
    (step V origin s c).2.entries.Held key T := by
  have hmoved := moved V origin s c
  generalize step V origin s c = r at hmoved ⊢
  cases hmoved with
  | accepted jti exp _ hlive =>
    refine h.set (fun heq => ?_) _ _ _
    rw [← heq, h.live hc] at hlive
    cases hlive
  | _ => exact h

variable {calls : List (Time × Call)}

theorem not_accepted_again {scope : Scope} {assertion : String}
    (h : Accepts scope assertion (eventOf (step V origin) s c)) (horder : InOrder calls) :
    ∀ e ∈ run (step V origin) (step V origin s c).2 calls, ¬Accepts scope assertion e := by
  obtain ⟨jti, exp, hpasses, -, hset⟩ := of_accepted h.2
  have hheld : (step V origin s c).2.entries.Held (callKey c.2 jti)
      (c.1 + (exp - seconds c.1) * nanosPerSecond) := by
    rw [hset]
    exact ExpiringMap.held_set_self _ _ _ _ _
  refine refused_in_run (J := fun s : ReplayCache => s.entries.Held (callKey c.2 jti) _)
    (fun s k hk h => held_step h hk) (fun s k hagain => ?_) hheld horder
  have haccepted : (step V origin s k).1 = some (.ok ()) := hagain.2
  obtain ⟨jti', exp', hpasses', hlive, -⟩ := of_accepted haccepted
  -- the text determines the key and the deadline
  obtain ⟨hkey, rfl⟩ : callKey c.2 jti = callKey k.2 jti' ∧ exp = exp' := by
    obtain ⟨-, header, payload, hp, hiss, hexp, hjti⟩ := hpasses.read
    obtain ⟨-, header', payload', hp', hiss', hexp', hjti'⟩ := hpasses'.read
    have hscope : c.2.scope = k.2.scope := h.1.1.trans hagain.1.1.symm
    have htext : c.2.assertion = k.2.assertion := h.1.2.trans hagain.1.2.symm
    rw [← hscope, ← htext, hp] at hp'
    simp_all [callKey]
  -- the assertion expires before its entry does
  have hbefore : k.1 < c.1 + (exp - seconds c.1) * nanosPerSecond := by
    refine lt_of_seconds_lt ?_
    have hlt' := hpasses'.read.1
    rw [seconds_add]
    omega
  refine ⟨hbefore, fun h => ?_⟩
  rw [← hkey, h.live hbefore] at hlive
  cases hlive

def Recorded (V : Verifier) (events : List CallEvent) (key : String) : Prop :=
  ∃ d ∈ events, d.reply = some (.ok ()) ∧
    ∃ jti exp, Passes V d.call jti exp ∧ key = callKey d.call.2 jti

variable {events : List CallEvent}

theorem Recorded.append (h : Recorded V events key) (e : CallEvent) :
    Recorded V (events ++ [e]) key := by
  obtain ⟨d, hd, hrest⟩ := h
  exact ⟨d, List.mem_append_left _ hd, hrest⟩

/-- The lock is good, and every entry is that of an accepted call. -/
def Sound (V : Verifier) (events : List CallEvent) (s : ReplayCache) : Prop :=
  s.poisoned = false ∧ ∀ key entry, s.entries.lookup key = some entry → Recorded V events key

theorem sound_step (h : Sound V events s)
    (hexp : ∀ jti exp, Passes V c jti exp → Fits origin c.1 exp) :
    Sound V (events ++ [eventOf (step V origin) s c]) (step V origin s c).2 := by
  have hmoved := moved V origin s c
  have hreply : (eventOf (step V origin) s c).call = c ∧
      (eventOf (step V origin) s c).reply = (step V origin s c).1 := ⟨rfl, rfl⟩
  generalize eventOf (step V origin) s c = e at hreply ⊢
  generalize step V origin s c = r at hmoved hreply ⊢
  obtain ⟨rfl, hreply⟩ := hreply
  cases hmoved with
  | panicked jti exp hp hbig => exact absurd (hexp jti exp hp) hbig
  | accepted jti exp hp =>
    refine ⟨h.1, fun key entry hentry => ?_⟩
    rcases HashMap.of_lookup_insert hentry with ⟨rfl, -⟩ | ⟨-, hbefore⟩
    · exact ⟨e, List.mem_append_cons_self, hreply, jti, exp, hp, rfl⟩
    · exact (h.2 key entry hbefore).append e
  | refused => exact ⟨h.1, fun key entry hentry => (h.2 key entry hentry).append e⟩

theorem Scope.protocol_inj {a b : Scope} (h : a.protocol = b.protocol) : a = b := by
  cases a <;> cases b <;> first | rfl | simp [Scope.protocol] at h

theorem callKey_inj (h : callKey c.2 jti = callKey d.2 jti') :
    c.2.scope = d.2.scope ∧ c.2.clientId = d.2.clientId ∧ jti = jti' := by
  rw [callKey, callKey, entryKey, entryKey, String.append_right_inj] at h
  obtain ⟨hscope, hclient, hjti⟩ := assertionReplayKey_inj h
  exact ⟨Scope.protocol_inj hscope, hclient, hjti⟩

/-- Where no deadline overflows, an assertion is accepted at most once in its scope, and one that
passes the checks is refused only after one with its scope, client and id. -/
theorem assertions_accepted_once (horder : InOrder calls)
    (hexp : ∀ c ∈ calls, ∀ jti exp, Passes V c jti exp → Fits origin c.1 exp) :
    (∀ scope assertion, (run (step V origin) {} calls).Pairwise fun a b =>
      ¬ (Accepts scope assertion a ∧ Accepts scope assertion b)) ∧
    (∀ pre c post, calls = pre ++ c :: post → ∀ jti exp, Passes V c jti exp →
      (step V origin (final (step V origin) {} pre) c).1 ≠ some (.ok ()) →
      ∃ d ∈ run (step V origin) {} pre, d.reply = some (.ok ()) ∧ d.call.2.scope = c.2.scope ∧
        d.call.2.clientId = c.2.clientId ∧ ∃ exp', Passes V d.call jti exp') ∧
    (∀ p c j p' c' j' : String, (p, c, j) ≠ (p', c', j') →
      assertionReplayKey p c j ≠ assertionReplayKey p' c' j') ∧
    ∀ key text, entryKey key ≠ replayKey text ∧ entryKey key ≠ nonceKey text := by
  refine ⟨fun scope assertion => ?_, ?_, ?_, fun key text => ⟨?_, ?_⟩⟩
  · exact pairwise_of_not_again (I := fun _ => True) (P := fun _ => True) (fun _ _ h => h)
      (fun s c _ h _ calls => not_accepted_again h) trivial horder fun _ _ _ => trivial
  · rintro pre c post rfl jti exp hpasses hreply
    have hsound := run_history (step V origin) (I := fun h s =>
      (∀ e ∈ h, ∀ jti exp, Passes V e.call jti exp → Fits origin e.call.1 exp) → Sound V h s)
      (h := []) (s := {}) (fun h s k ih hexp => sound_step
        (ih fun e he => hexp e (List.mem_append_left _ he))
        (hexp _ List.mem_append_cons_self))
      (fun _ => ⟨rfl, fun key entry h => by cases h⟩) pre
      (fun e he => hexp _ (List.mem_append_left _ (call_mem_of_mem_run (step V origin) he)))
    have hmoved := moved V origin (final (step V origin) {} pre) c
    generalize final (step V origin) {} pre = s at hsound hmoved hreply
    generalize step V origin s c = r at hmoved hreply
    cases hmoved with
    | refused e h =>
      rcases h jti exp hpasses with hpoisoned | hlive
      · cases hsound.1.symm.trans hpoisoned
      · obtain ⟨entry, hentry, -⟩ := (Option.any_eq_true _ _).mp hlive
        obtain ⟨d, hd, haccepted, jti', exp', hpasses', hkey⟩ := hsound.2 _ _ hentry
        obtain ⟨hscope, hclient, rfl⟩ := callKey_inj hkey
        exact ⟨d, hd, haccepted, hscope.symm, hclient.symm, exp', hpasses'⟩
    | panicked jti' exp' h hbig => exact absurd (hexp c List.mem_append_cons_self jti' exp' h) hbig
    | accepted => exact absurd rfl hreply
  · intro p c j p' c' j' hne heq
    obtain ⟨rfl, rfl, rfl⟩ := assertionReplayKey_inj heq
    exact hne rfl
  all_goals
    intro h
    have hlist := congrArg String.toList h
    simp [entryKey, replayKey, nonceKey] at hlist

/-- A text is the id of the client; the assertion of `a` never expires. -/
def sampleVerifier : Verifier where
  parseJwtUnverified _ text := .ok (.null, .object [("iss", .string text), ("sub", .string text),
    ("aud", .string "https://id.example"), ("jti", .string "j1"),
    ("exp", .number (.posInt (if text = "a" then 18446744073709551615 else 2000)))])
  verifySignature _ _ _ _ := .ok ()

def sampleOrigin : Time := 100 * nanosPerSecond

def samplePresented (text : String) : Time × Call :=
  (1000 * nanosPerSecond, ⟨.privateKeyJwt, text, text, .null, "https://id.example", "/token"⟩)

theorem assertions_accepted_once_sample :
    ((run (step sampleVerifier sampleOrigin) {}
      [samplePresented "b", samplePresented "b"]).Pairwise fun a b =>
      ¬ (Accepts .privateKeyJwt "b" a ∧ Accepts .privateKeyJwt "b" b)) := by
  refine (assertions_accepted_once (by decide) fun c hc jti exp h => ?_).1 _ _
  obtain rfl : c = samplePresented "b" := by simpa using hc
  have hcheck : (samplePresented "b").2.check sampleVerifier 1000 = .ok ("j1", 2000) := by
    decide +kernel
  cases hcheck.symm.trans h
  unfold Fits
  decide

/-- The assertion of `b` is accepted, and after that of `a` it is not. -/
theorem assertion_blocks_others :
    (step sampleVerifier sampleOrigin {} (samplePresented "b")).1 = some (.ok ()) ∧
    (run (step sampleVerifier sampleOrigin) {}
      [samplePresented "a", samplePresented "b"]).map Event.reply = [none, some (.error (.internal
        "memory cache lock poisoned: poisoned lock: another task failed inside"))] := by
  decide +kernel

end Qid.Dpop.Assertion
