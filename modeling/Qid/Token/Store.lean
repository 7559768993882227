/-
Token families in the file store.

The calls of the file repository that write token families, in the flush mode that writes the file
before a call returns. A save copies the store and writes the copy afterwards, so that other calls
may change the store in between.
-/
import Qid.Lib.HashMap
import Qid.Lib.Mutex
import Qid.Storage.Persist

namespace Qid.Token

open Lib Storage

structure Refresh where
  hash : String
  expiresAt : Option Nat
  deriving DecidableEq

structure TokenFamily where
  id : String
  realmId : String
  currentRefreshHash : String
  refreshExpiresAt : Option Nat
  revoked : Bool
  deriving DecidableEq

namespace TokenFamily

def refresh (f : TokenFamily) : Refresh :=
  { hash := f.currentRefreshHash, expiresAt := f.refreshExpiresAt }

def withRefresh (f : TokenFamily) (r : Refresh) : TokenFamily :=
  { f with currentRefreshHash := r.hash, refreshExpiresAt := r.expiresAt }

end TokenFamily

def validateTokenFamilyRotation (family : TokenFamily)
    (expectedRefreshHash newRefreshHash : String) : QidResult Unit :=
  if family.revoked then
    .error (.conflict ("token family " ++ family.id ++ " is revoked"))
  else if family.currentRefreshHash ≠ expectedRefreshHash then
    .error (.conflict ("token family " ++ family.id ++ " refresh token already consumed"))
  else if newRefreshHash = expectedRefreshHash ∨ family.currentRefreshHash = newRefreshHash then
    .error (.conflict ("token family " ++ family.id ++ " refresh hash reuse detected"))
  else .ok ()

theorem validateTokenFamilyRotation_ok {family : TokenFamily} {expected new : String}
    (h : validateTokenFamilyRotation family expected new = .ok ()) :
    family.revoked = false ∧ family.currentRefreshHash = expected ∧ new ≠ expected := by
  rw [validateTokenFamilyRotation] at h
  split_ifs at h with hrevoked hcurrent hreuse
  rw [not_or] at hreuse
  exact ⟨Bool.eq_false_iff.mpr hrevoked, not_not.mp hcurrent, hreuse.1⟩

/-- The rest is not read by the calls modelled here. -/
structure Store (ρ : Type) where
  families : HashMap TokenFamily
  rest : ρ

structure Rotation where
  id : String
  realmId : String
  expectedRefreshHash : String
  refreshHash : String
  refreshExpiresAt : Nat
  deriving DecidableEq

def Rotation.refresh (r : Rotation) : Refresh :=
  { hash := r.refreshHash, expiresAt := some r.refreshExpiresAt }

inductive Mutation (ρ : Type) where
  | revoke (id realmId : String)
  /-- Any other writer. Deleting a user or a realm drops families, and no other call
  touches them. -/
  | other (keep : String → Bool) (rest : ρ → ρ)

variable {ρ : Type}

namespace Store

variable (s : Store ρ)

def setRefresh (family : TokenFamily) (id : String) (r : Refresh) : Store ρ :=
  { s with families := s.families.insert id (family.withRefresh r) }

/-- The refresh token the family had, and the store with the new one. -/
def rotate (r : Rotation) : QidResult (Refresh × Store ρ) :=
  match (s.families.lookup r.id).filter fun family => family.realmId = r.realmId with
  | none => .error (.notFound ("token family " ++ r.id))
  | some family => do
    validateTokenFamilyRotation family r.expectedRefreshHash r.refreshHash
    .ok (family.refresh, s.setRefresh family r.id r.refresh)

/-- The rollback of a rotation that could not be saved. -/
def restore (id : String) (previous : Refresh) : Store ρ :=
  match s.families.lookup id with
  | none => s
  | some family => s.setRefresh family id previous

def create (family : TokenFamily) : QidResult (Store ρ) :=
  if (s.families.lookup family.id).isSome then
    .error (.storage ("duplicate family " ++ family.id))
  else .ok { s with families := s.families.insert family.id family }

def mutate : Mutation ρ → Store ρ
  | .revoke id realmId =>
    match s.families.lookup id with
    | none => s
    | some family =>
      { s with
        families := s.families.insert id
          { family with revoked := family.revoked || family.realmId == realmId } }
  | .other keep rest => { families := s.families.retain keep, rest := rest s.rest }

end Store

structure Repository (ρ : Type) where
  store : Store ρ
  file : Option (Store ρ)

/-- `replace` is a writer that holds the store lock too until the file is written, and changes a
copy of the store. -/
inductive Call (ρ : Type) where
  | rotate (r : Rotation)
  | create (family : TokenFamily)
  | mutate (change : Mutation ρ)
  | replace (change : Mutation ρ)

inductive Saved (ρ : Type) where
  | create (family : TokenFamily)
  | mutate (change : Mutation ρ)

def Saved.call : Saved ρ → Call ρ
  | .create family => .create family
  | .mutate change => .mutate change

inductive Outside (ρ : Type) where
  | start (c : Call ρ)
  | save (change : Mutation ρ)

inductive Inside (ρ : Type) where
  | rotate (r : Rotation)
  /-- The store has the new refresh token, which is tentative until it is written. -/
  | flushRotation (r : Rotation) (previous : Refresh)
  | writeRotation (r : Rotation) (previous : Refresh) (content : Store ρ)
  | rollback (r : Rotation) (previous : Refresh) (e : QidError)
  | create (family : TokenFamily)
  | flush (c : Saved ρ)
  | write (c : Saved ρ) (content : Store ρ)
  | replace (change : Mutation ρ)

def approach (s : Repository ρ) : Outside ρ → Mutex.Approach (Repository ρ) (Outside ρ) (Inside ρ)
  | .start (.rotate r) => .enter (.rotate r)
  | .start (.create family) => .enter (.create family)
  | .start (.replace change) => .enter (.replace change)
  | .start (.mutate change) => .act { s with store := s.store.mutate change } (.save change)
  | .save change => .enter (.flush (.mutate change))

/-- A call returns in the step of its last access: the write that replaced the file, the rollback,
or the check that refused it. -/
def critical (persist : Persist) (s : Repository ρ) :
    Inside ρ → Mutex.Section (Repository ρ) (Inside ρ) (Call ρ × QidResult Unit)
  | .rotate r =>
    match s.store.rotate r with
    | .error e => .leave s (.rotate r, .error e)
    | .ok (previous, store) => .act { s with store := store } (.flushRotation r previous)
  | .flushRotation r previous => .act s (.writeRotation r previous s.store)
  | .writeRotation r previous content =>
    match persist.result with
    | .ok () => .leave { s with file := some content } (.rotate r, .ok ())
    | .error e => .act s (.rollback r previous e)
  | .rollback r previous e =>
    .leave { s with store := s.store.restore r.id previous } (.rotate r, .error e)
  | .create family =>
    match s.store.create family with
    | .error e => .leave s (.create family, .error e)
    | .ok store => .act { s with store := store } (.flush (.create family))
  | .flush c => .act s (.write c s.store)
  | .write c content =>
    match persist.result with
    | .ok () => .leave { s with file := some content } (c.call, .ok ())
    | .error e => .leave s (c.call, .error e)
  | .replace change =>
    match persist.result with
    | .ok () =>
      .leave { store := s.store.mutate change, file := some (s.store.mutate change) }
        (.replace change, .ok ())
    | .error e => .leave s (.replace change, .error e)

inductive Turn (s : Repository ρ) : Inside ρ →
    Mutex.Section (Repository ρ) (Inside ρ) (Call ρ × QidResult Unit) → Prop
  | rotate {r : Rotation} {previous : Refresh} {store : Store ρ}
      (h : s.store.rotate r = .ok (previous, store)) :
      Turn s (.rotate r) (.act { s with store := store } (.flushRotation r previous))
  | refuseRotation (r : Rotation) (e : QidError) :
      Turn s (.rotate r) (.leave s (.rotate r, .error e))
  | flushRotation (r : Rotation) (previous : Refresh) :
      Turn s (.flushRotation r previous) (.act s (.writeRotation r previous s.store))
  | accept (r : Rotation) (previous : Refresh) (content : Store ρ) :
      Turn s (.writeRotation r previous content)
        (.leave { s with file := some content } (.rotate r, .ok ()))
  | fail (r : Rotation) (previous : Refresh) (content : Store ρ) (e : QidError) :
      Turn s (.writeRotation r previous content) (.act s (.rollback r previous e))
  | rollback (r : Rotation) (previous : Refresh) (e : QidError) :
      Turn s (.rollback r previous e)
        (.leave { s with store := s.store.restore r.id previous } (.rotate r, .error e))
  | create {family : TokenFamily} {store : Store ρ} (h : s.store.create family = .ok store) :
      Turn s (.create family) (.act { s with store := store } (.flush (.create family)))
  | refuseCreation (family : TokenFamily) (e : QidError) :
      Turn s (.create family) (.leave s (.create family, .error e))
  | flush (c : Saved ρ) : Turn s (.flush c) (.act s (.write c s.store))
  | write (c : Saved ρ) (content : Store ρ) :
      Turn s (.write c content) (.leave { s with file := some content } (c.call, .ok ()))
  | failSave (c : Saved ρ) (content : Store ρ) (e : QidError) :
      Turn s (.write c content) (.leave s (c.call, .error e))
  | replace (change : Mutation ρ) :
      Turn s (.replace change)
        (.leave { store := s.store.mutate change, file := some (s.store.mutate change) }
          (.replace change, .ok ()))
  | failReplace (change : Mutation ρ) (e : QidError) :
      Turn s (.replace change) (.leave s (.replace change, .error e))

theorem critical_turn (persist : Persist) (s : Repository ρ) (i : Inside ρ) :
    Turn s i (critical persist s i) := by
  cases i with
  | rotate r =>
    rw [critical]
    split
    · exact Turn.refuseRotation r _
    · exact Turn.rotate ‹_›
  | flushRotation r previous => exact Turn.flushRotation r previous
  | writeRotation =>
    rw [critical]
    split
    · exact Turn.accept ..
    · exact Turn.fail ..
  | rollback r previous e => exact Turn.rollback r previous e
  | create family =>
    rw [critical]
    split
    · exact Turn.refuseCreation family _
    · exact Turn.create ‹_›
  | flush c => exact Turn.flush c
  | write c content =>
    rw [critical]
    split
    · exact Turn.write c content
    · exact Turn.failSave c content _
  | replace change =>
    rw [critical]
    split
    · exact Turn.replace change
    · exact Turn.failReplace change _

abbrev System (ρ : Type) : Type := Mutex (Repository ρ) (Outside ρ) (Inside ρ)

def step (m : System ρ) (a : Mutex.Act (Outside ρ) Persist) :
    Option (Call ρ × QidResult Unit) × System ρ :=
  Mutex.step approach critical m a

/-- Its file holds the store, or does not exist yet. -/
def opened (start : Store ρ) (onDisk : Bool) : System ρ :=
  { shared := { store := start, file := if onDisk then some start else none }
    inside := none
    outside := [] }

end Qid.Token
