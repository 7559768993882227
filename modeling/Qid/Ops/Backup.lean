/-
The hash of a backup manifest.

The fields of a manifest and of its objects are joined with line breaks and null characters into the
text that is hashed.
-/
import Qid.Core.Basic
import Qid.Lib.Checked
import Qid.Lib.Text

namespace Qid.Ops

open Lib

structure BackupObject where
  path : String
  sha256 : String
  bytes : Nat
  deriving DecidableEq

structure BackupManifest where
  schemaVersion : String
  backupId : String
  generatedAtEpoch : Nat
  sourceClusterId : String
  migrationVersion : String
  objects : List BackupObject
  manifestHash : String
  deriving DecidableEq

def objectsText : List BackupObject → String
  | [] => ""
  | object :: rest =>
    object.path ++ "\x00" ++ object.sha256 ++ "\x00" ++ toString object.bytes ++ "\n" ++
      objectsText rest

section

variable (sha256Hex : String → String)

def backupManifestHash (schemaVersion backupId : String) (generatedAtEpoch : Nat)
    (sourceClusterId migrationVersion : String) (objects : List BackupObject) : String :=
  sha256Hex (schemaVersion ++ "\n" ++ backupId ++ "\n" ++ toString generatedAtEpoch ++ "\n" ++
    sourceClusterId ++ "\n" ++ migrationVersion ++ "\n" ++ objectsText objects)

/-- The identifier is drawn at random. -/
def buildBackupManifest (backupId sourceClusterId migrationVersion : String)
    (generatedAtEpoch : Nat) (objects : List BackupObject) : QidResult BackupManifest := do
  ensure ((trim sourceClusterId).isEmpty = false)
    (.badRequest "Backup source cluster id must not be empty")
  ensure ((trim migrationVersion).isEmpty = false)
    (.badRequest "Backup migration version must not be empty")
  ensure (objects.isEmpty = false) (.badRequest "Backup manifest requires at least one object")
  return {
    schemaVersion := "1"
    backupId := backupId
    generatedAtEpoch := generatedAtEpoch
    sourceClusterId := sourceClusterId
    migrationVersion := migrationVersion
    objects := objects
    manifestHash := backupManifestHash sha256Hex "1" backupId generatedAtEpoch sourceClusterId
      migrationVersion objects }

def verifyBackupManifest (manifest : BackupManifest) : Bool :=
  if manifest.schemaVersion ≠ "1" ∨ manifest.objects.isEmpty then false
  else
    backupManifestHash sha256Hex manifest.schemaVersion manifest.backupId
      manifest.generatedAtEpoch manifest.sourceClusterId manifest.migrationVersion
      manifest.objects == manifest.manifestHash

end

def BackupObject.nulls (object : BackupObject) : Nat × Nat :=
  (object.path.toList.count '\x00', object.sha256.toList.count '\x00')

theorem objectsText_cons_ne {o : BackupObject} {rest : List BackupObject} :
    objectsText (o :: rest) ≠ "" := by
  simp [objectsText]

theorem objectsText_inj {l₁ l₂ : List BackupObject}
    (hnulls : l₁.map BackupObject.nulls = l₂.map BackupObject.nulls)
    (h : objectsText l₁ = objectsText l₂) : l₁ = l₂ := by
  induction l₁ generalizing l₂ with
  | nil =>
    cases l₂ with
    | nil => rfl
    | cons => exact absurd h.symm objectsText_cons_ne
  | cons o₁ rest₁ ih =>
    cases l₂ with
    | nil => exact absurd h objectsText_cons_ne
    | cons o₂ rest₂ =>
      obtain ⟨hfirst, hrest⟩ := List.cons.inj hnulls
      obtain ⟨hpath, hsha⟩ := Prod.mk.inj hfirst
      simp only [objectsText, String.append_assoc] at h
      obtain ⟨hpath, h⟩ := separated_inj rfl hpath h
      obtain ⟨hsha, h⟩ := separated_inj rfl hsha h
      obtain ⟨hbytes, h⟩ := separated_toString_inj rfl rfl h
      rw [ih hrest h]
      cases o₁
      simp_all

def lineBreaks (text : String) : Nat := text.toList.count '\n'

/-- Equally many separators, those of the objects one by one. -/
structure BackupManifest.SameSeparators (m n : BackupManifest) : Prop where
  backupId : lineBreaks m.backupId = lineBreaks n.backupId
  sourceClusterId : lineBreaks m.sourceClusterId = lineBreaks n.sourceClusterId
  migrationVersion : lineBreaks m.migrationVersion = lineBreaks n.migrationVersion
  objects : m.objects.map BackupObject.nulls = n.objects.map BackupObject.nulls

/-- Manifests with one hash are one exactly if their texts have equally many separators. -/
theorem manifest_of_hash {sha256Hex : String → String} (hsha : sha256Hex.Injective)
    {m n : BackupManifest} (hm : verifyBackupManifest sha256Hex m = true)
    (hn : verifyBackupManifest sha256Hex n = true) (hhash : m.manifestHash = n.manifestHash) :
    m = n ↔ m.SameSeparators n := by
  refine ⟨fun h => h ▸ ⟨rfl, rfl, rfl, rfl⟩, fun h => ?_⟩
  rw [verifyBackupManifest, Bool.if_false_left] at hm hn
  simp only [Bool.and_eq_true, Bool.not_eq_true', decide_eq_false_iff_not, not_or, not_not,
    beq_iff_eq] at hm hn
  obtain ⟨⟨hmschema, -⟩, hmhash⟩ := hm
  obtain ⟨⟨hnschema, -⟩, hnhash⟩ := hn
  have htext := hsha (hmhash.trans (hhash.trans hnhash.symm))
  rw [hmschema, hnschema] at htext
  simp only [String.append_assoc, String.append_right_inj] at htext
  obtain ⟨hid, htext⟩ := separated_inj rfl h.backupId htext
  obtain ⟨htime, htext⟩ := separated_toString_inj rfl rfl htext
  obtain ⟨hsource, htext⟩ := separated_inj rfl h.sourceClusterId htext
  obtain ⟨hmigration, htext⟩ := separated_inj rfl h.migrationVersion htext
  have hobjects := objectsText_inj h.objects htext
  clear h
  cases m
  cases n
  simp_all

def sampleManifest (sourceClusterId migrationVersion : String) : QidResult BackupManifest :=
  buildBackupManifest id "b" sourceClusterId migrationVersion 0 [⟨"db", "d1", 10⟩]

theorem manifest_of_hash_sample :
    ∃ m n, sampleManifest "c\nd" "7" = .ok m ∧ sampleManifest "c" "d\n7" = .ok n ∧
      ¬m.SameSeparators n ∧
      m = ⟨"1", "b", 0, "c\nd", "7", [⟨"db", "d1", 10⟩], n.manifestHash⟩ := by
  refine ⟨_, _, rfl, rfl, fun h => ?_, ?_⟩
  · have heq := (manifest_of_hash Function.injective_id (by decide +kernel) (by decide +kernel)
      (by decide +kernel)).mpr h
    exact absurd heq (by decide +kernel)
  · exact (manifest_of_hash Function.injective_id (by decide +kernel) (by decide +kernel)
      (by decide +kernel)).mpr ⟨rfl, rfl, rfl, rfl⟩

/-- A line break that moves from one field to the next changes the manifest, but not its hash. -/
theorem manifests_share_hash : ∃ m n, sampleManifest "c\nd" "7" = .ok m ∧
    sampleManifest "c" "d\n7" = .ok n ∧ verifyBackupManifest id m = true ∧
      verifyBackupManifest id n = true ∧ m.manifestHash = n.manifestHash ∧
      m.sourceClusterId ≠ n.sourceClusterId :=
  ⟨_, _, rfl, rfl, by decide +kernel⟩

end Qid.Ops
