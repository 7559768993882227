/-
Browser sessions in the repository and in the two levels of the session cache.

A translation of the session calls of the file repository (`qid-storage/src/file/session.rs`), of
the session caches (`qid-core/src/cache.rs` and `state.rs`) and of what is cached
(`qid-session/src/browser.rs`). Each definition is one call, atomic under the lock it takes. A
cached text gives back the session it was made from, so the caches are maps of sessions.
-/
import Qid.Core.Models
import Qid.Dpop.State
import Qid.Lib.Lru
import Qid.Lib.Table
import Qid.Storage.Persist

namespace Qid.SessionCache

open Lib Storage
open Models (Session)

def localCapacity : Nat := 10000

/-- The longest time a session stays in the local cache. -/
def sessionL1TtlSeconds : Nat := 30

structure Store where
  sessions : Table Session (·.id)
  localCache : Lru (Timed Session) localCapacity
  sharedCache : ExpiringMap Session

namespace Store

variable (s : Store)

def getSession (id : String) : Option Session := s.sessions.find id

variable (persist : Persist)

def createSession (s : Store) (session : Session) : QidResult Unit × Store :=
  match s.sessions.find session.id with
  | some stored => (.error (.badRequest ("session " ++ stored.id ++ " already exists")), s)
  | none => (persist.result, { s with sessions := s.sessions.put session })

def inRealm (id realm : String) : Option Session :=
  (s.sessions.find id).filter fun session => session.realmId = realm

def updateSessionIdleExpiry (s : Store) (id : String) (idleExpiresAt : Nat) (realm : String) :
    QidResult Bool × Store :=
  match s.inRealm id realm with
  | none => (.ok false, s)
  | some session =>
    (persist.result.map fun _ => true,
      { s with sessions := s.sessions.put { session with idleExpiresAt := idleExpiresAt } })

def revokeSession (s : Store) (id realm : String) : QidResult Bool × Store :=
  match s.inRealm id realm with
  | none => (.ok false, s)
  | some session =>
    if session.revoked then (.ok false, s)
    else
      (persist.result.map fun _ => true,
        { s with sessions := s.sessions.put { session with revoked := true } })

/-- An entry whose time has come is removed when it is read. -/
def localGet (clock : Nat) (id : String) : Option Session × Store :=
  if (s.localCache.peek id).any fun e => e.expiresAt ≤ clock then
    (none, { s with localCache := s.localCache.pop id })
  else
    ((s.localCache.get id).1.map Timed.value, { s with localCache := (s.localCache.get id).2 })

def localPut (clock : Nat) (id : String) (session : Session) (ttlSeconds : Nat) : Store :=
  { s with
    localCache := s.localCache.put id
      { value := session,
        expiresAt := clock + min ttlSeconds sessionL1TtlSeconds * Dpop.nanosPerSecond } }

def localDelete (id : String) : Store := { s with localCache := s.localCache.pop id }

end Store

def sharedKey (id : String) : String := "session:" ++ id

theorem sharedKey_injective : Function.Injective sharedKey := by
  intro a b h
  have hlist := congrArg String.toList h
  simp only [sharedKey, String.toList_append, List.append_cancel_left_eq] at hlist
  exact String.toList_injective hlist

namespace Store

def sharedSet (s : Store) (clock : Nat) (id : String) (session : Session) (ttlSeconds : Nat) :
    Store :=
  { s with
    sharedCache := s.sharedCache.set clock (sharedKey id) session
      (ttlSeconds * Dpop.nanosPerSecond) }

def sharedDelete (s : Store) (id : String) : Store :=
  { s with sharedCache := s.sharedCache.erase (sharedKey id) }

def sharedGet (s : Store) (clock : Nat) (id : String) : Option Session × Store :=
  match s.sharedCache.lookup (sharedKey id) with
  | some e => if clock < e.expiresAt then (some e.value, s) else (none, s.sharedDelete id)
  | none => (none, s)

end Store

inductive Level where
  | shared
  | own

def Store.Holds (s : Store) : Level → String → Timed Session → Prop
  | .shared, id, e => s.sharedCache.lookup (sharedKey id) = some e
  | .own, id, e => (id, e) ∈ s.localCache.entries

variable (session : Session)

def sessionCachePut (now : Nat) : Option Nat :=
  if session.isActive now = false then none
  else
    let ttlSeconds := min session.idleExpiresAt session.absoluteExpiresAt - now
    if ttlSeconds = 0 then none else some ttlSeconds

def decodeCachedSession (now : Nat) : Option Session :=
  if session.isActive now then some session else none

/-- A session that is active at no time at which another one is not. -/
def NoLonger (copy stored : Session) : Prop :=
  ∀ now, copy.isActive now = true → stored.isActive now = true

variable (sessions : Table Session (·.id))

/-- There is a stored session, and the copy is active at no time at which it is not. -/
def Copy (id : String) (copy : Session) : Prop :=
  ∃ stored, sessions.find id = some stored ∧ NoLonger copy stored

def Revoked (id : String) : Prop := ∃ stored, sessions.find id = some stored ∧ stored.revoked = true

theorem NoLonger.refl : NoLonger session session := fun _ h => h

variable {id : String}

theorem copy_of_find {sessions : Table Session (·.id)} {stored : Session}
    (h : sessions.find id = some stored) : Copy sessions id stored :=
  ⟨stored, h, .refl stored⟩

variable (before after : Table Session (·.id))

/-- Every stored session stays, in its realm, and stays revoked. -/
def Kept : Prop :=
  ∀ id stored, before.find id = some stored → ∃ stored', after.find id = some stored' ∧
    stored'.realmId = stored.realmId ∧ (stored.revoked = true → stored'.revoked = true)

def KeepsCopies (id : String) : Prop := ∀ copy, Copy before id copy → Copy after id copy

theorem Kept.refl (sessions : Table Session (·.id)) : Kept sessions sessions :=
  fun _ stored h => ⟨stored, h, rfl, id⟩

theorem Kept.revoked {before after : Table Session (·.id)} (h : Kept before after)
    (hrevoked : Revoked before id) : Revoked after id := by
  obtain ⟨stored, hstored, hr⟩ := hrevoked
  obtain ⟨stored', hstored', -, hkeep⟩ := h id stored hstored
  exact ⟨stored', hstored', hkeep hr⟩

variable {session : Session}

section

variable {sessions : Table Session (·.id)}

theorem kept_put (h : ∀ stored, sessions.find session.id = some stored →
      session.realmId = stored.realmId ∧ (stored.revoked = true → session.revoked = true)) :
    Kept sessions (sessions.put session) := by
  intro id stored hstored
  by_cases hid : id = session.id
  · subst hid
    exact ⟨session, Table.find_put_self _ _, h stored hstored⟩
  · exact ⟨stored, by rw [Table.find_put_of_ne _ hid, hstored], rfl, fun h => h⟩

theorem keepsCopies_put (h : id = session.id → ∀ stored,
      sessions.find session.id = some stored → NoLonger stored session) :
    KeepsCopies sessions (sessions.put session) id := by
  rintro copy ⟨stored, hstored, hcopy⟩
  by_cases hid : id = session.id
  · subst hid
    exact ⟨session, Table.find_put_self _ _, fun now hn => h rfl stored hstored now (hcopy now hn)⟩
  · exact ⟨stored, by rw [Table.find_put_of_ne _ hid, hstored], hcopy⟩

end

variable {s : Store} {realm : String} {persist : Persist}

theorem inRealm_eq_some (h : s.inRealm id realm = some session) :
    s.sessions.find id = some session ∧ session.realmId = realm := by
  rw [Store.inRealm, Option.filter_eq_some_iff] at h
  exact ⟨h.1, of_decide_eq_true h.2⟩

variable (persist : Persist)

theorem revokeSession_cases (s : Store) (id realm : String) :
    (s.revokeSession persist id realm = (.ok false, s) ∧
      ∀ stored, s.sessions.find id = some stored → stored.realmId = realm → stored.revoked = true) ∨
    ∃ session, s.sessions.find id = some session ∧ session.realmId = realm ∧
      session.revoked = false ∧ s.revokeSession persist id realm =
        (persist.result.map fun _ => true,
          { s with sessions := s.sessions.put { session with revoked := true } }) := by
  cases hinRealm : s.inRealm id realm with
  | none =>
    refine Or.inl ⟨by rw [Store.revokeSession, hinRealm], fun stored hstored hrealm => ?_⟩
    rw [Store.inRealm, hstored, Option.filter_some, if_pos (decide_eq_true hrealm)] at hinRealm
    cases hinRealm
  | some session =>
    obtain ⟨hfind, hrealm⟩ := inRealm_eq_some hinRealm
    cases hrevoked : session.revoked with
    | false =>
      refine Or.inr ⟨session, hfind, hrealm, hrevoked, ?_⟩
      rw [Store.revokeSession, hinRealm]
      simp only [hrevoked, Bool.false_eq_true, if_false]
    | true =>
      refine Or.inl ⟨?_, fun stored hstored _ => ?_⟩
      · rw [Store.revokeSession, hinRealm]
        simp only [hrevoked, if_true]
      · rw [hfind, Option.some.injEq] at hstored
        rw [← hstored, hrevoked]

variable {level : Level} {id' : String} {e : Timed Session}

/-- What a read of a level of the cache returns, and what it leaves. -/
structure Reads (s : Store) (id : String) (r : Option Session × Store) : Prop where
  sessions : r.2.sessions = s.sessions
  holds : ∀ level id' e, r.2.Holds level id' e → s.Holds level id' e
  cached : ∀ session, r.1 = some session → ∃ level e, s.Holds level id e ∧ e.value = session

theorem reads_localGet (s : Store) (clock : Nat) (id : String) :
    Reads s id (s.localGet clock id) := by
  rw [Store.localGet]
  split
  · refine ⟨rfl, fun level id' e he => ?_, nofun⟩
    cases level with
    | shared => exact he
    | own => exact (Lru.mem_pop.mp he).1
  · refine ⟨rfl, fun level id' e he => ?_, fun session h => ?_⟩
    · cases level with
      | shared => exact he
      | own => exact Lru.mem_get he
    · rw [Lru.get_fst, Option.map_eq_some_iff] at h
      obtain ⟨e, he, rfl⟩ := h
      exact ⟨.own, e, Lru.mem_of_peek he, rfl⟩

theorem holds_sharedDelete (h : (s.sharedDelete id).Holds level id' e) :
    s.Holds level id' e ∧ (level = .shared → id' ≠ id) := by
  cases level with
  | own => exact ⟨h, fun hlevel => by cases hlevel⟩
  | shared =>
    change (s.sharedCache.erase _).lookup _ = _ at h
    rw [KeyMap.lookup_erase_eq] at h
    split at h
    · cases h
    · rename_i hne
      exact ⟨h, fun _ heq => hne (congrArg sharedKey heq)⟩

theorem reads_sharedGet (s : Store) (clock : Nat) (id : String) :
    Reads s id (s.sharedGet clock id) := by
  rw [Store.sharedGet]
  split
  · rename_i e he
    split
    · exact ⟨rfl, fun _ _ _ he => he, fun _ h => ⟨.shared, e, he, Option.some.inj h⟩⟩
    · exact ⟨rfl, fun _ _ _ he => (holds_sharedDelete he).1, nofun⟩
  · exact ⟨rfl, fun _ _ _ he => he, nofun⟩

theorem holds_localDelete (h : (s.localDelete id).Holds level id' e) :
    s.Holds level id' e ∧ (level = .own → id' ≠ id) := by
  cases level with
  | shared => exact ⟨h, fun hlevel => by cases hlevel⟩
  | own =>
    obtain ⟨hold, hne⟩ := Lru.mem_pop.mp h
    exact ⟨hold, fun _ => hne⟩

end Qid.SessionCache
