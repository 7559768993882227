/-
Audit events, their hashes and the verification of a chain.

SHA-256 is a function of what is hashed: the event without its own hash, its metadata with the keys
of objects in order. The loop that follows the links has fuel; `Qid.Audit.Chain` proves that it
ends.
-/
import Mathlib.Data.List.Sort
import Qid.Core.Json
import Qid.Lib.Chain
import Qid.Lib.HashMap
import Qid.Storage.Persist

namespace Qid.Audit

open Lib Json Storage

structure AuditEvent where
  id : String
  realmId : Option String
  actor : String
  action : String
  targetType : String
  targetId : String
  reason : String
  metadataJson : Value
  createdAt : Nat
  previousHash : Option String
  eventHash : Option String

structure AuditChainVerification where
  valid : Bool
  checkedEvents : Nat
  firstEventId : Option String := none
  lastEventId : Option String := none
  brokenEventId : Option String := none
  expectedPreviousHash : Option String := none
  actualPreviousHash : Option String := none
  expectedEventHash : Option String := none
  actualEventHash : Option String := none

mutual

def canonicalJsonValue : Value → Value
  | .array items => .array (canonicalItems items)
  | .object fields => .object (canonicalFields fields)
  | value => value

def canonicalItems : List Value → List Value
  | [] => []
  | v :: vs => canonicalJsonValue v :: canonicalItems vs

def canonicalFields : List (String × Value) → List (String × Value)
  | [] => []
  | (key, v) :: fields => Value.insertField key (canonicalJsonValue v) (canonicalFields fields)

end

variable (e : AuditEvent)

/-- The event up to the order of the keys in its metadata. -/
def AuditEvent.canonical : AuditEvent :=
  { e with metadataJson := canonicalJsonValue e.metadataJson }

def AuditEvent.hashed : AuditEvent := { e.canonical with eventHash := none }

variable (sha256 : AuditEvent → String)

def AuditEvent.computeHash (e : AuditEvent) : String := sha256 e.hashed

def AuditEvent.withChainHashes (e : AuditEvent) (previousHash : Option String) : AuditEvent :=
  let linked := { e with previousHash := previousHash }
  { linked with eventHash := some (linked.computeHash sha256) }

def brokenAt (checked : Nat) (expectedPrevious actualPrevious expected : Option String) :
    AuditChainVerification :=
  { valid := false, checkedEvents := checked, firstEventId := some e.id
    lastEventId := some e.id, brokenEventId := some e.id
    expectedPreviousHash := expectedPrevious, actualPreviousHash := actualPrevious
    expectedEventHash := expected, actualEventHash := e.eventHash }

def linkEvents : List AuditEvent → KeyMap (Option String) AuditEvent →
    Except AuditChainVerification (KeyMap (Option String) AuditEvent)
  | [], byPreviousHash => .ok byPreviousHash
  | e :: events, byPreviousHash =>
    if e.eventHash ≠ some (e.computeHash sha256) then
      .error (brokenAt e 1 e.previousHash e.previousHash (some (e.computeHash sha256)))
    else if (byPreviousHash.lookup e.previousHash).isSome then
      .error (brokenAt e 1 e.previousHash e.previousHash e.eventHash)
    else linkEvents events (byPreviousHash.insert e.previousHash e)

def nextEvent (byPreviousHash : KeyMap (Option String) AuditEvent) (e : AuditEvent) :
    Option AuditEvent :=
  e.eventHash.bind fun hash => byPreviousHash.lookup (some hash)

/-- How the verification ends, once the links have been followed to the last event. -/
def verified (first last : AuditEvent) (checked total : Nat) : AuditChainVerification :=
  if checked ≠ total then
    { valid := false, checkedEvents := checked, firstEventId := some first.id
      lastEventId := some last.id, brokenEventId := some last.id
      expectedPreviousHash := last.eventHash, expectedEventHash := last.eventHash
      actualEventHash := last.eventHash }
  else
    { valid := true, checkedEvents := checked, firstEventId := some first.id
      lastEventId := some last.id }

def verifyAuditChainLinked (fuel : Nat) (events : List AuditEvent) :
    Option AuditChainVerification :=
  match events.head? with
  | none => some { valid := true, checkedEvents := 0 }
  | some e =>
    match linkEvents sha256 events ∅ with
    | .error broken => some broken
    | .ok byPreviousHash =>
      match byPreviousHash.lookup none with
      | none => some (brokenAt e 0 none e.previousHash e.eventHash)
      | some first =>
        (Chain.walk (nextEvent byPreviousHash) fuel first 1).map fun r =>
          verified first r.1 r.2 events.length

/-- The order of a `BTreeMap<Option<String>, _>`. -/
def realmLe : Option String → Option String → Bool
  | none, _ => true
  | some _, none => false
  | some a, some b => a ≤ b

def streams (events : List AuditEvent) : List (List AuditEvent) :=
  ((events.map (·.realmId)).eraseDups.insertionSort (realmLe · ·)).map fun realm =>
    events.filter (·.realmId == realm)

def verifyStreams (fuel : Nat) (checked : Nat) (first last : Option String) :
    List (List AuditEvent) → Option AuditChainVerification
  | [] => some { valid := true, checkedEvents := checked, firstEventId := first
                 lastEventId := last }
  | stream :: rest =>
    (verifyAuditChainLinked sha256 fuel stream).bind fun v =>
      let checked := checked + v.checkedEvents
      let first := first.or v.firstEventId
      let last := v.lastEventId.or last
      if v.valid then verifyStreams fuel checked first last rest
      else some { v with checkedEvents := checked, firstEventId := first, lastEventId := last }

def verifyAuditChainsByRealm (fuel : Nat) (events : List AuditEvent) :
    Option AuditChainVerification :=
  verifyStreams sha256 fuel 0 none none (streams events)

def appendAuditEvent (persist : Persist) (events : List AuditEvent) (event : AuditEvent) :
    QidResult Unit × List AuditEvent :=
  if events.any (·.id == event.id) then
    (.error (.conflict ("Audit event ID " ++ event.id ++ " already exists")), events)
  else
    let previousHash := (events.reverse.find? (·.realmId == event.realmId)).bind (·.eventHash)
    (persist.result, events ++ [event.withChainHashes sha256 previousHash])

def verifyAuditChain (fuel : Nat) (events : List AuditEvent) :
    Option String → Option AuditChainVerification
  | some realm => verifyAuditChainLinked sha256 fuel (events.filter (·.realmId == some realm))
  | none => verifyAuditChainsByRealm sha256 fuel events

end Qid.Audit
