/-
Validation of DPoP proofs.

Decoding and signatures belong to other crates and are parameters. Everything the checks find out
about a proof is a function of its text, but for the window around `iat` (`claims_ok_iff`).
-/
import Qid.Core.Json
import Qid.Dpop.State
import Qid.Lib.Checked

namespace Qid.Dpop

open Lib Json

structure JwtLibrary where
  /-- Without padding. -/
  decodeBase64Url : String → Option (List UInt8)
  /-- `serde_json::from_slice`. -/
  fromSlice : List UInt8 → Except String Value
  /-- The `alg` member of a JWK. -/
  jwkAlg : Value → Except String (Option String)
  verifyJwtSignatureWithJwk : String → Value → String → Except String Unit
  sha256Hex : String → String

def maxClockSkewSecs : Nat := 60
def maxProofAgeSecs : Nat := 120

def splitDots : List Char → List (List Char)
  | [] => [[]]
  | c :: cs =>
    if c = '.' then [] :: splitDots cs
    else
      match splitDots cs with
      | [] => [[c]]
      | part :: parts => (c :: part) :: parts

variable (lib : JwtLibrary) {proof htm htu : String} {iat now : Nat}

def decodeSegment (name : String) (segment : List Char) : QidResult (List UInt8) :=
  okOr (lib.decodeBase64Url (String.ofList segment))
    (.badRequest ("invalid base64url encoding in JWT " ++ name))

def parseSegment (name : String) (bytes : List UInt8) : QidResult Value :=
  (lib.fromSlice bytes).mapError fun e => .badRequest ("invalid JSON in JWT " ++ name ++ ": " ++ e)

def parseJwtUnverified (token : String) : QidResult (Value × Value) :=
  match splitDots token.toList with
  | [header, payload, _] => do
    let headerBytes ← decodeSegment lib "header" header
    let payloadBytes ← decodeSegment lib "payload" payload
    let header ← parseSegment lib "header" headerBytes
    let payload ← parseSegment lib "payload" payloadBytes
    return (header, payload)
  | _ => throw (.badRequest "invalid JWT format: expected 3 dot-separated segments")

def strField (v : Value) (key : String) : Option String := (v.get key).bind Value.asStr

def verifyDpopProofSignature (proof : String) (header : Value) : QidResult Unit := do
  let alg ← okOr (strField header "alg") (.badRequest "DPoP proof missing alg header")
  ensure (alg ∈ ["ES256", "EdDSA", "RS256"])
    (.badRequest ("DPoP proof alg is not supported: " ++ alg))
  let jwkValue ← okOr (header.get "jwk") (.badRequest "DPoP proof missing jwk header")
  let jwk := Value.entryOrInsert "kid" (.string "") jwkValue
  let jwkAlg ← (lib.jwkAlg jwk).mapError fun e =>
    .badRequest ("DPoP proof jwk header is invalid: " ++ e)
  ensure (jwkAlg.all (· = alg)) (.badRequest "DPoP proof jwk alg does not match JWT alg")
  (lib.verifyJwtSignatureWithJwk proof jwk alg).mapError fun e =>
    .badRequest ("DPoP proof jwk cannot verify signature: " ++ e)

/-- The checks of the header, of `htm` and of `htu`. -/
def checkTarget (proof expectedHtm expectedHtu : String) (header payload : Value) :
    QidResult Unit := do
  let typ ← okOr (strField header "typ") (.badRequest "DPoP proof missing typ header")
  ensure (typ = "dpop+jwt") (.badRequest ("DPoP proof typ must be 'dpop+jwt', got '" ++ typ ++ "'"))
  let jwk ← okOr (header.get "jwk") (.badRequest "DPoP proof missing jwk header")
  ensure jwk.isObject (.badRequest "DPoP proof jwk header must be an object")
  verifyDpopProofSignature lib proof header
  let htm ← okOr (strField payload "htm") (.badRequest "DPoP proof missing htm claim")
  ensure (htm = expectedHtm) (.badRequest
    ("DPoP proof htm mismatch: expected '" ++ expectedHtm ++ "', got '" ++ htm ++ "'"))
  let htu ← okOr (strField payload "htu") (.badRequest "DPoP proof missing htu claim")
  ensure (htu = expectedHtu) (.badRequest
    ("DPoP proof htu mismatch: expected '" ++ expectedHtu ++ "', got '" ++ htu ++ "'"))

structure DpopProofClaims where
  jti : String
  iat : Nat
  now : Nat
  nonce : Option String
  deriving DecidableEq

def validateDpopProofClaims (t : Time) (proof expectedHtm expectedHtu : String) :
    QidResult DpopProofClaims := do
  let parsed ← parseJwtUnverified lib proof
  checkTarget lib proof expectedHtm expectedHtu parsed.1 parsed.2
  let iat ← okOr ((parsed.2.get "iat").bind Value.asU64)
    (.badRequest "DPoP proof missing or invalid iat claim")
  let now := seconds t
  ensure (iat.toNat ≤ now + maxClockSkewSecs)
    (.badRequest "DPoP proof iat is in the future (beyond clock skew)")
  ensure (wrappingSub now maxProofAgeSecs ≤ iat.toNat)
    (.badRequest "DPoP proof has expired (iat too old)")
  let jti ← okOr (strField parsed.2 "jti") (.badRequest "DPoP proof missing jti claim")
  return { jti := jti, iat := iat.toNat, now := now, nonce := strField parsed.2 "nonce" }

def withJti (jti : String) (r : QidResult Unit × MemoryCache) : QidResult String × MemoryCache :=
  (r.1.map fun _ => jti, r.2)

def validateDpopProof (cache : MemoryCache) (t : Time)
    (proof expectedHtm expectedHtu : String) (requiredNonce : Option String) :
    QidResult String × MemoryCache :=
  match validateDpopProofClaims lib t proof expectedHtm expectedHtu with
  | .error e => (.error e, cache)
  | .ok claims =>
    match requiredNonce with
    | none => withJti claims.jti (recordJti cache t claims.jti claims.iat claims.now)
    | some required =>
      if claims.nonce ≠ some required then
        (.error (.dpopNonce "DPoP proof nonce mismatch"), cache)
      else
        let consumed := consumeNonce cache t required claims.now
        match consumed.1 with
        | .error e => (.error e, consumed.2)
        | .ok () => withJti claims.jti (recordJti consumed.2 t claims.jti claims.iat claims.now)

def jtiPut (key : CacheKey) (iat : Nat) : CachePut :=
  { key := key, value := toString iat, ttlSeconds := maxProofAgeSecs }

def validateDpopProofWithCache (cache : RedisLikeCache) (t : Time)
    (proof expectedHtm expectedHtu : String) (requiredNonce : Option String) :
    QidResult String × RedisLikeCache :=
  match validateDpopProofClaims lib t proof expectedHtm expectedHtu with
  | .error e => (.error e, cache)
  | .ok claims =>
    if requiredNonce.any fun required => claims.nonce ≠ some required then
      (.error (.dpopNonce "DPoP proof nonce mismatch"), cache)
    else
      match CacheKey.new lib.sha256Hex "dpop_jti"
          (expectedHtm ++ ":" ++ expectedHtu ++ ":" ++ claims.jti) with
      | .error e => (.error e, cache)
      | .ok key =>
        let recorded := cache.putIfAbsent t (jtiPut key claims.iat)
        match recorded.1 with
        | .error e => (.error e, recorded.2)
        | .ok false =>
          (.error (.badRequest "DPoP proof jti already used (replay detected)"), recorded.2)
        | .ok true => (.ok claims.jti, recorded.2)

/-- The window around `iat` admits the proof at a time. -/
def Admits (iat now : Nat) : Prop :=
  iat ≤ now + maxClockSkewSecs ∧ wrappingSub now maxProofAgeSecs ≤ iat

/-- A proof that passes every check but the window. -/
def Verified (proof htm htu jti : String) (iat : Nat) (nonce : Option String) : Prop :=
  ∃ header payload, parseJwtUnverified lib proof = .ok (header, payload) ∧
    checkTarget lib proof htm htu header payload = .ok () ∧
    ((payload.get "iat").bind Value.asU64).map UInt64.toNat = some iat ∧
    strField payload "jti" = some jti ∧ strField payload "nonce" = nonce

variable {lib}

theorem checkTarget_ok {header payload : Value}
    (h : checkTarget lib proof htm htu header payload = .ok ()) :
    strField payload "htm" = some htm ∧ strField payload "htu" = some htu := by
  simp only [checkTarget, bind_eq_ok, okOr_eq_ok, ensure_eq_ok] at h
  obtain ⟨typ, -, -, -, jwk, -, -, -, -, -, htm', hhtm, -, rfl, htu', hhtu, rfl⟩ := h
  exact ⟨hhtm, hhtu⟩

theorem claims_ok_iff {t : Time} {c : DpopProofClaims} :
    validateDpopProofClaims lib t proof htm htu = .ok c ↔
      Verified lib proof htm htu c.jti c.iat c.nonce ∧ Admits c.iat (seconds t) ∧
        c.now = seconds t := by
  simp only [validateDpopProofClaims, bind_eq_ok, okOr_eq_ok, ensure_eq_ok, pure_eq_ok]
  constructor
  · rintro ⟨⟨header, payload⟩, hparse, ⟨⟩, htarget, iat, hiat, ⟨⟩, hskew, ⟨⟩, hage, jti, hjti, rfl⟩
    refine ⟨⟨header, payload, hparse, htarget, ?_, hjti, rfl⟩, ⟨hskew, hage⟩, rfl⟩
    rw [hiat]
    rfl
  · rintro ⟨⟨header, payload, hparse, htarget, hiat, hjti, hnonce⟩, ⟨hskew, hage⟩, hnow⟩
    obtain ⟨iat, hiat, heq⟩ := Option.map_eq_some_iff.mp hiat
    rw [← heq] at hskew hage
    refine ⟨(header, payload), hparse, ⟨⟩, htarget, iat, hiat, ⟨⟩, hskew, ⟨⟩, hage, c.jti, hjti, ?_⟩
    obtain ⟨jti, iat', now, nonce⟩ := c
    cases heq
    cases hnow
    cases hnonce
    rfl

/-- The text of a proof determines its claims. -/
theorem Verified.unique {jti htm' htu' jti' : String} {iat' : Nat} {nonce nonce' : Option String}
    (h : Verified lib proof htm htu jti iat nonce)
    (h' : Verified lib proof htm' htu' jti' iat' nonce') :
    htm = htm' ∧ htu = htu' ∧ jti = jti' ∧ iat = iat' := by
  obtain ⟨header, payload, hparse, htarget, hiat, hjti, -⟩ := h
  obtain ⟨header', payload', hparse', htarget', hiat', hjti', -⟩ := h'
  rw [hparse, Except.ok.injEq] at hparse'
  obtain ⟨-, rfl⟩ := hparse'
  obtain ⟨hhtm, hhtu⟩ := checkTarget_ok htarget
  obtain ⟨hhtm', hhtu'⟩ := checkTarget_ok htarget'
  rw [hhtm, Option.some.injEq] at hhtm'
  rw [hhtu, Option.some.injEq] at hhtu'
  rw [hjti, Option.some.injEq] at hjti'
  rw [hiat, Option.some.injEq] at hiat'
  exact ⟨hhtm', hhtu', hjti', hiat'⟩

/-- The window ends `MAX_PROOF_AGE_SECS` after `iat`. -/
theorem Admits.le (h : Admits iat now) : now ≤ iat + maxProofAgeSecs := by
  have hage : wrappingSub now maxProofAgeSecs ≤ iat := h.2
  rw [wrappingSub] at hage
  split at hage <;> omega

theorem Admits.later {d : Nat} (h : Admits iat now) (hd : now + d ≤ iat + maxProofAgeSecs) :
    Admits iat (now + d) := by
  obtain ⟨hskew, hage⟩ := h
  rw [maxClockSkewSecs] at hskew
  rw [wrappingSub, maxProofAgeSecs] at hage
  rw [maxProofAgeSecs] at hd
  refine ⟨?_, ?_⟩
  · rw [maxClockSkewSecs]
    omega
  · rw [wrappingSub, maxProofAgeSecs]
    split at hage
    · split <;> omega
    · omega

end Qid.Dpop
