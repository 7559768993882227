/-
The verification of an archived export.

The hashes that the records of a body carry are followed, not computed again.
-/
import Qid.Audit.Event

namespace Qid.Audit

open Lib Lib.Chain

/-- With the fields that the verification reads. -/
structure AuditExportRecord where
  id : String
  previousHash : Option String
  eventHash : Option String
  deriving DecidableEq

structure AuditEvidenceManifest where
  eventCount : Nat
  firstEventId : Option String
  lastEventId : Option String
  firstEventHash : Option String
  lastEventHash : Option String
  bodySha256 : String

structure AuditEvidenceVerificationReport where
  valid : Bool
  eventCount : Nat
  bodySha256 : String
  expectedBodySha256 : String
  firstEventId : Option String := none
  lastEventId : Option String := none
  firstEventHash : Option String := none
  lastEventHash : Option String := none
  brokenEventId : Option String := none
  error : Option String := none

/-- How a body is hashed, and how its lines are read. -/
structure ArchiveCodec where
  hexSha256 : List UInt8 → String
  parseAuditExportJsonl : List UInt8 → Except String (List AuditExportRecord)

abbrev RecordMap : Type := KeyMap (Option String) AuditExportRecord

def linkRecords : List AuditExportRecord → RecordMap → Option RecordMap
  | [], byPreviousHash => some byPreviousHash
  | r :: records, byPreviousHash =>
    if r.eventHash = none ∨ (byPreviousHash.lookup r.previousHash).isSome then none
    else linkRecords records (byPreviousHash.insert r.previousHash r)

def nextRecord (byPreviousHash : RecordMap) (r : AuditExportRecord) : Option AuditExportRecord :=
  r.eventHash.bind fun hash => byPreviousHash.lookup (some hash)

/-- Nothing, if the fuel has run out. -/
def linkedExportBounds (fuel : Nat) (records : List AuditExportRecord) :
    Option (Option (AuditExportRecord × AuditExportRecord)) :=
  if records.isEmpty then some none
  else match linkRecords records ∅ with
    | none => some none
    | some byPreviousHash =>
      match byPreviousHash.lookup none with
      | none => some none
      | some first =>
        (walk (nextRecord byPreviousHash) fuel first 1).map fun r =>
          if r.2 = records.length then some (first, r.1) else none

variable (manifest : AuditEvidenceManifest)

def invalidEvidenceReport (bodySha256 : String) (eventCount : Nat)
    (brokenEventId error : Option String) : AuditEvidenceVerificationReport :=
  { valid := false, eventCount := eventCount, bodySha256 := bodySha256
    expectedBodySha256 := manifest.bodySha256, brokenEventId := brokenEventId, error := error }

def boundsReport (bodySha256 : String) (eventCount : Nat) (first last : AuditExportRecord) :
    AuditEvidenceVerificationReport :=
  let valid : Bool := some first.id = manifest.firstEventId ∧ some last.id = manifest.lastEventId ∧
    first.eventHash = manifest.firstEventHash ∧ last.eventHash = manifest.lastEventHash
  { valid := valid, eventCount := eventCount, bodySha256 := bodySha256
    expectedBodySha256 := manifest.bodySha256, firstEventId := some first.id
    lastEventId := some last.id, firstEventHash := first.eventHash, lastEventHash := last.eventHash
    error := if valid then none else some "manifest chain boundary mismatch" }

def verifyAuditEvidenceArchive (codec : ArchiveCodec) (fuel : Nat)
    (manifest : AuditEvidenceManifest) (body : List UInt8) :
    Option AuditEvidenceVerificationReport :=
  let bodySha256 := codec.hexSha256 body
  let invalid := invalidEvidenceReport manifest bodySha256
  if bodySha256 ≠ manifest.bodySha256 then some (invalid 0 none (some "body_sha256 mismatch"))
  else match codec.parseAuditExportJsonl body with
    | .error error => some (invalid 0 none (some error))
    | .ok records =>
      if records.length ≠ manifest.eventCount then
        some (invalid records.length none (some "event_count mismatch"))
      else (linkedExportBounds fuel records).map fun
        | none => invalid records.length (records.head?.map (·.id))
            (some "audit export chain is not contiguous")
        | some (first, last) => boundsReport manifest bodySha256 records.length first last

variable {records : List AuditExportRecord} {m m' : RecordMap}

theorem of_linkRecords (h : linkRecords records m = some m') {k : Option String}
    {r : AuditExportRecord} (hr : m'.lookup k = some r) :
    m.lookup k = some r ∨ r ∈ records ∧ r.previousHash = k := by
  induction records generalizing m with
  | nil => simp_all [linkRecords]
  | cons a records ih =>
    rw [linkRecords] at h
    split at h
    · cases h
    · have hlookup := ih h
      rw [KeyMap.lookup_insert_eq] at hlookup
      grind

open Relation in
/-- No two records that the loop comes to carry the same hash. -/
def DistinctHashes (byPreviousHash : RecordMap) (first : AuditExportRecord) : Prop :=
  ∀ a b, ReflTransGen (Follows (nextRecord byPreviousHash)) first a →
    TransGen (Follows (nextRecord byPreviousHash)) a b → a.eventHash ≠ b.eventHash

theorem linkedExportBounds_ends :
    (∃ fuel bounds, linkedExportBounds fuel records = some bounds) ↔
      ∀ m first, linkRecords records ∅ = some m → m.lookup none = some first →
        DistinctHashes m first := by
  cases hm : linkRecords records ∅ with
  | none =>
    refine iff_of_true ⟨0, none, ?_⟩ fun _ _ h => nomatch h
    rw [linkedExportBounds, hm, ite_self]
  | some m =>
    cases hfirst : m.lookup none with
    | none =>
      refine iff_of_true ⟨0, none, ?_⟩ fun _ first h hsome => ?_
      · simp only [linkedExportBounds, hm, hfirst, ite_self]
      · cases h
        cases hfirst.symm.trans hsome
    | some first =>
      have hfiled {k r} (hr : m.lookup k = some r) : r ∈ records ∧ r.previousHash = k :=
        (of_linkRecords hm hr).resolve_left fun hempty => by cases hempty
      have hne : records.isEmpty = false :=
        List.isEmpty_eq_false_iff_exists_mem.mpr ⟨first, (hfiled hfirst).1⟩
      have hends : (∃ fuel r, walk (nextRecord m) fuel first 1 = some r) ↔ DistinctHashes m first :=
        walk_ends_iff (fun a b h => by rw [nextRecord, nextRecord, h])
          (fun a (_ : a ∈ records) b hb => by
            obtain ⟨hash, -, hb⟩ := Option.bind_eq_some_iff.mp hb
            exact (hfiled hb).1) (hfiled hfirst).1
      simp only [linkedExportBounds, hm, hfirst, hne, Bool.false_eq_true, if_false,
        Option.map_eq_some_iff]
      constructor
      · rintro ⟨fuel, bounds, r, hwalk, -⟩ _ _ h hsome
        cases h
        cases hfirst.symm.trans hsome
        exact hends.mp ⟨fuel, r, hwalk⟩
      · intro hdistinct
        obtain ⟨fuel, r, hwalk⟩ := hends.mpr (hdistinct m first rfl hfirst)
        exact ⟨fuel, _, r, hwalk, rfl⟩

/-- The verification comes to the loop, with the records filed and the first of them found. -/
def EntersLoop (codec : ArchiveCodec) (manifest : AuditEvidenceManifest) (body : List UInt8)
    (byPreviousHash : RecordMap) (first : AuditExportRecord) : Prop :=
  codec.hexSha256 body = manifest.bodySha256 ∧
    ∃ records, codec.parseAuditExportJsonl body = .ok records ∧
      records.length = manifest.eventCount ∧ linkRecords records ∅ = some byPreviousHash ∧
      byPreviousHash.lookup none = some first

/-- The verification of an archive ends exactly if it returns before the loop, or no two records
that the loop comes to carry the same hash. -/
theorem archive_verification_ends (codec : ArchiveCodec) (manifest : AuditEvidenceManifest)
    (body : List UInt8) :
    (∃ fuel report, verifyAuditEvidenceArchive codec fuel manifest body = some report) ↔
      ∀ byPreviousHash first, EntersLoop codec manifest body byPreviousHash first →
        DistinctHashes byPreviousHash first := by
  simp only [verifyAuditEvidenceArchive]
  by_cases hdigest : codec.hexSha256 body = manifest.bodySha256
  · simp only [ne_eq, hdigest, not_true_eq_false, if_false]
    cases hparse : codec.parseAuditExportJsonl body with
    | error =>
      refine iff_of_true ⟨0, _, rfl⟩ ?_
      rintro _ _ ⟨-, records, hok, -⟩
      cases hparse.symm.trans hok
    | ok records =>
      by_cases hcount : records.length = manifest.eventCount
      · simp only [hcount, not_true_eq_false, if_false, Option.map_eq_some_iff]
        constructor
        · rintro ⟨fuel, report, bounds, hbounds, -⟩ m first ⟨-, _, hok, -, hm, hfirst⟩
          cases hparse.symm.trans hok
          exact linkedExportBounds_ends.mp ⟨fuel, bounds, hbounds⟩ m first hm hfirst
        · intro hdistinct
          obtain ⟨fuel, bounds, hbounds⟩ := linkedExportBounds_ends.mpr fun m first hm hfirst =>
            hdistinct m first ⟨hdigest, records, hparse, hcount, hm, hfirst⟩
          exact ⟨fuel, _, bounds, hbounds, rfl⟩
      · simp only [hcount, not_false_eq_true, if_true]
        refine iff_of_true ⟨0, _, rfl⟩ ?_
        rintro _ _ ⟨-, _, hok, hsame, -⟩
        cases hparse.symm.trans hok
        exact absurd hsame hcount
  · simp only [ne_eq, hdigest, not_false_eq_true, if_true]
    exact iff_of_true ⟨0, _, rfl⟩ fun _ _ h => absurd h.1 hdigest

def sampleCodec (hash : String) : ArchiveCodec :=
  { hexSha256 := fun _ => "digest"
    parseAuditExportJsonl := fun _ => .ok [⟨"a", none, some "h"⟩, ⟨"b", some "h", some hash⟩] }

def sampleManifest (hash : String) : AuditEvidenceManifest :=
  ⟨2, some "a", some "b", some "h", some hash, "digest"⟩

/-- The second record names the hash that it carries, and is its own successor. -/
theorem cyclic_archive_not_verified : ¬ ∃ fuel report,
    verifyAuditEvidenceArchive (sampleCodec "h") fuel (sampleManifest "h") [] = some report := by
  rintro ⟨fuel, report, h⟩
  cases fuel with
  | zero => cases h
  | succ fuel =>
    change Option.map _
      (Option.map _ (walk (nextRecord _) fuel ⟨"b", some "h", some "h"⟩ 2)) = _ at h
    rw [walk_self] at h
    · cases h
    · rfl

end Qid.Audit
