/-
The audit chain is complete and tamper-evident.

The events of a realm, newest first, are linked: each names the hash of the one before it.
Verification follows the links through a map.
-/
import Qid.Audit.Event
import Qid.Lib.Run

namespace Qid.Audit

open Lib Lib.Chain Storage

variable {sha256 : AuditEvent → String} {events : List AuditEvent}

variable {fuel : Nat} {v : AuditChainVerification}

variable (sha256) in
/-- The hashes of the events do not collide, but for the order of keys in their metadata. -/
def CollisionFree (events : List AuditEvent) : Prop :=
  ∀ a ∈ events, ∀ b ∈ events, a.computeHash sha256 = b.computeHash sha256 → a.hashed = b.hashed

variable (sha256) in
def AuditEvent.Sealed (e : AuditEvent) : Prop := e.eventHash = some (e.computeHash sha256)

variable (sha256) in
/-- A chain of events, newest first. -/
def Chained (events : List AuditEvent) : Prop :=
  Linked AuditEvent.previousHash (AuditEvent.computeHash sha256) events

theorem previousHash_of_hashed (a b : AuditEvent) (h : a.hashed = b.hashed) :
    a.previousHash = b.previousHash := by
  have hprevious := congrArg AuditEvent.previousHash h
  exact hprevious

theorem canonical_map_perm {A B : List AuditEvent} (hA : ∀ e ∈ A, e.Sealed sha256)
    (hB : ∀ e ∈ B, e.Sealed sha256)
    (h : (A.map AuditEvent.hashed).Perm (B.map AuditEvent.hashed)) :
    (A.map AuditEvent.canonical).Perm (B.map AuditEvent.canonical) := by
  have hcanonical : ∀ l : List AuditEvent, (∀ e ∈ l, e.Sealed sha256) →
      l.map AuditEvent.canonical =
        (l.map AuditEvent.hashed).map fun c => { c with eventHash := some (sha256 c) } := by
    intro l hl
    rw [List.map_map]
    refine List.map_congr_left fun e he => ?_
    have hsealed : e.eventHash = some (sha256 e.hashed) := hl e he
    show e.canonical = { e.canonical with eventHash := some (sha256 e.hashed) }
    rw [← hsealed]
    rfl
  rw [hcanonical A hA, hcanonical B hB]
  exact h.map _

section

variable {m m' : KeyMap (Option String) AuditEvent}

theorem of_linkEvents (h : linkEvents sha256 events m = .ok m') :
    (∀ e ∈ events, e.Sealed sha256) ∧
      ∀ k e, m'.lookup k = some e ↔ m.lookup k = some e ∨ e ∈ events ∧ e.previousHash = k := by
  induction events generalizing m with
  | nil =>
    cases h
    refine ⟨fun e he => (by cases he), fun k e => ⟨Or.inl, ?_⟩⟩
    rintro (he | ⟨he, -⟩)
    · exact he
    · cases he
  | cons a events ih =>
    rw [linkEvents] at h
    split at h
    · cases h
    · rename_i hsealed
      split at h
      · cases h
      · rename_i hfresh
        obtain ⟨hsealed', hlookup⟩ := ih h
        rw [Bool.not_eq_true, Option.isSome_eq_false_iff, Option.isNone_iff_eq_none] at hfresh
        refine ⟨List.forall_mem_cons.mpr ⟨not_not.mp hsealed, hsealed'⟩, fun k e => ?_⟩
        rw [hlookup k e, KeyMap.lookup_insert_eq, List.mem_cons]
        split_ifs with hk
        · rw [hk, hfresh]
          constructor
          · rintro (he | ⟨he, hprev⟩)
            · cases he
              exact Or.inr ⟨Or.inl rfl, rfl⟩
            · exact Or.inr ⟨Or.inr he, hprev⟩
          · rintro (he | ⟨rfl | he, hprev⟩)
            · cases he
            · exact Or.inl rfl
            · exact Or.inr ⟨he, hprev⟩
        · constructor
          · rintro (he | ⟨he, hprev⟩)
            · exact Or.inl he
            · exact Or.inr ⟨Or.inr he, hprev⟩
          · rintro (he | ⟨rfl | he, hprev⟩)
            · exact Or.inl he
            · exact absurd hprev.symm hk
            · exact Or.inr ⟨he, hprev⟩

theorem of_linkEvents_error {broken : AuditChainVerification}
    (h : linkEvents sha256 events m = .error broken) :
    broken.valid = false ∧ broken.checkedEvents = 1 := by
  induction events generalizing m with
  | nil => cases h
  | cons a events ih =>
    rw [linkEvents] at h
    split at h
    · cases h
      exact ⟨rfl, rfl⟩
    · split at h
      · cases h
        exact ⟨rfl, rfl⟩
      · exact ih h

theorem linkEvents_ok : (∃ m', linkEvents sha256 events m = .ok m') ↔
    (∀ e ∈ events, e.Sealed sha256) ∧ (events.map AuditEvent.previousHash).Nodup ∧
      ∀ e ∈ events, m.lookup e.previousHash = none := by
  induction events generalizing m with
  | nil => exact iff_of_true ⟨m, rfl⟩ ⟨nofun, List.nodup_nil, nofun⟩
  | cons a events ih =>
    rw [linkEvents, List.forall_mem_cons, List.forall_mem_cons, List.map_cons, List.nodup_cons]
    split
    · rename_i hunsealed
      exact iff_of_false nofun fun h => hunsealed h.1.1
    · rename_i hsealed
      split
      · rename_i htaken
        refine iff_of_false nofun fun h => ?_
        rw [h.2.2.1] at htaken
        cases htaken
      · rename_i hfree
        rw [Bool.not_eq_true, Option.isSome_eq_false_iff, Option.isNone_iff_eq_none] at hfree
        rw [ih]
        constructor
        · rintro ⟨hrest, hdistinct, hnew⟩
          have hlookup : ∀ e ∈ events, e.previousHash ≠ a.previousHash ∧
              m.lookup e.previousHash = none := fun e he => by
            have hnone := hnew e he
            rw [KeyMap.lookup_insert_eq] at hnone
            split_ifs at hnone with heq
            exact ⟨heq, hnone⟩
          refine ⟨⟨not_not.mp hsealed, hrest⟩, ⟨fun hmem => ?_, hdistinct⟩, hfree,
            fun e he => (hlookup e he).2⟩
          obtain ⟨e, he, heq⟩ := List.mem_map.mp hmem
          exact (hlookup e he).1 heq
        · rintro ⟨⟨-, hrest⟩, ⟨hnew, hdistinct⟩, -, hlookup⟩
          refine ⟨hrest, hdistinct, fun e he => ?_⟩
          rw [KeyMap.lookup_insert_eq, if_neg]
          · exact hlookup e he
          · intro heq
            rw [← heq] at hnew
            exact hnew (List.mem_map_of_mem he)

end

section

variable {m : KeyMap (Option String) AuditEvent}

variable (sha256) in
def Trail (events t : List AuditEvent) : Prop := Chained sha256 t ∧ ∀ e ∈ t, e ∈ events

theorem nextEvent_iff (h : linkEvents sha256 events ∅ = .ok m) {a b : AuditEvent}
    (ha : a ∈ events) : nextEvent m a = some b ↔
      b ∈ events ∧ b.previousHash = some (a.computeHash sha256) := by
  obtain ⟨hsealed, hlookup⟩ := of_linkEvents h
  rw [nextEvent, hsealed a ha, Option.bind_some, hlookup]
  exact or_iff_right fun hempty => by cases hempty

theorem mem_of_lookup_none (h : linkEvents sha256 events ∅ = .ok m) {first : AuditEvent}
    (hfirst : m.lookup none = some first) : first ∈ events ∧ first.previousHash = none :=
  (((of_linkEvents h).2 none first).mp hfirst).resolve_left fun hempty => by cases hempty

theorem trail_walk (h : linkEvents sha256 events ∅ = .ok m) {first last : AuditEvent} {n : Nat}
    (hfirst : m.lookup none = some first)
    (hwalk : walk (nextEvent m) fuel first 1 = some (last, n)) :
    nextEvent m last = none ∧ ∃ t, Trail sha256 events (last :: t) ∧ n = (last :: t).length :=
  (linked_of_walk (fun _ ha _ => (nextEvent_iff h ha).mp) (mem_of_lookup_none h hfirst)).1
    last n hwalk

end

theorem verifyAuditChainLinked_terminates (hfree : CollisionFree sha256 events)
    (hfuel : events.length ≤ fuel) : ∃ v, verifyAuditChainLinked sha256 fuel events = some v := by
  rw [verifyAuditChainLinked]
  split
  · exact ⟨_, rfl⟩
  · split
    · exact ⟨_, rfl⟩
    · rename_i m hm
      split
      · exact ⟨_, rfl⟩
      · rename_i first hfirst
        obtain ⟨r, hwalk⟩ := walk_ends (fun _ ha _ => (nextEvent_iff hm ha).mp)
          (mem_of_lookup_none hm hfirst) previousHash_of_hashed hfree hfuel
        exact ⟨_, congrArg _ hwalk⟩

theorem chained_of_valid (hfree : CollisionFree sha256 events)
    (h : verifyAuditChainLinked sha256 fuel events = some v) (hvalid : v.valid = true) :
    (∀ e ∈ events, e.Sealed sha256) ∧ ∃ t, Chained sha256 t ∧ t.Perm events := by
  rw [verifyAuditChainLinked] at h
  split at h
  · rename_i hnil
    rw [List.head?_eq_none_iff] at hnil
    subst hnil
    exact ⟨fun e he => (by cases he), [], trivial, List.Perm.refl _⟩
  · split at h
    · rename_i broken hbroken
      cases h
      rw [(of_linkEvents_error hbroken).1] at hvalid
      cases hvalid
    · rename_i m hm
      split at h
      · cases h
        cases hvalid
      · rename_i first hfirst
        obtain ⟨⟨last, checked⟩, hwalk, rfl⟩ := Option.map_eq_some_iff.mp h
        obtain ⟨-, t, ht, rfl⟩ := trail_walk hm hfirst hwalk
        refine ⟨(of_linkEvents hm).1, last :: t, ht.1, ?_⟩
        rw [verified] at hvalid
        split at hvalid
        · cases hvalid
        · rename_i hall
          exact (Linked.subperm previousHash_of_hashed hfree ht.1 ht.2).perm_of_length_le
            (not_not.mp hall).ge

theorem CollisionFree.subset (h : CollisionFree sha256 events) {l : List AuditEvent}
    (hl : l ⊆ events) : CollisionFree sha256 l :=
  fun a ha b hb => h a (hl ha) b (hl hb)

/-- A chain is accepted in any order, and the result tells its ends. -/
theorem valid_of_chained (hfree : CollisionFree sha256 events)
    (hsealed : ∀ e ∈ events, e.Sealed sha256) {t : List AuditEvent} (hchained : Chained sha256 t)
    (hperm : t.Perm events) (hfuel : events.length ≤ fuel) :
    verifyAuditChainLinked sha256 fuel events = some
      { valid := true, checkedEvents := t.length, firstEventId := t.getLast?.map (·.id)
        lastEventId := t.head?.map (·.id) } := by
  have hfreet := hfree.subset hperm.subset
  have hdistinct := (hperm.map _).nodup_iff.mp
    (Linked.nodup_prev previousHash_of_hashed hfreet hchained)
  obtain ⟨m, hm⟩ := linkEvents_ok (m := ∅).mpr ⟨hsealed, hdistinct, fun _ _ => rfl⟩
  cases t with
  | nil =>
    rw [List.nil_perm.mp hperm]
    rfl
  | cons newest older =>
    have hne : newest :: older ≠ [] := List.cons_ne_nil _ _
    have holdest : [(newest :: older).getLast hne] <:+ newest :: older :=
      ⟨_, List.dropLast_append_getLast hne⟩
    have hfirst : m.lookup none = some ((newest :: older).getLast hne) :=
      ((of_linkEvents hm).2 none _).mpr (Or.inr
        ⟨hperm.subset (List.getLast_mem hne), (hchained.suffix holdest).1⟩)
    obtain ⟨⟨last, checked⟩, hwalk⟩ := walk_ends (fun _ ha _ => (nextEvent_iff hm ha).mp)
      (mem_of_lookup_none hm hfirst) previousHash_of_hashed hfree hfuel
    obtain ⟨hend, u, hu, rfl⟩ := trail_walk hm hfirst hwalk
    have hlast := hu.2 last List.mem_cons_self
    -- only the newest event has no successor, and the chain up to it is the whole
    have hnewest : last = newest := by
      refine (List.mem_cons.mp (hperm.mem_iff.mpr hlast)).resolve_right fun hold => ?_
      obtain ⟨e, he, hprev⟩ := hchained.named hold
      cases hend.symm.trans ((nextEvent_iff hm hlast).mpr ⟨hperm.subset he, hprev⟩)
    subst hnewest
    have hsame := congrArg List.length (Linked.map_eq previousHash_of_hashed hu.1 hchained
      (fun a ha b hb => hfree a (hu.2 a ha) b (hperm.subset hb)) rfl)
    rw [List.length_map, List.length_map] at hsame
    cases events with
    | nil => cases hperm.length_eq
    | cons =>
      simp only [verifyAuditChainLinked, hm, hfirst, hwalk, hsame, Option.map_some]
      rw [verified, if_neg (not_not.mpr hperm.length_eq)]
      rfl

section

variable (sha256)

def appendStep (events : List AuditEvent) (call : Persist × AuditEvent) :
    QidResult Unit × List AuditEvent :=
  appendAuditEvent sha256 call.1 events call.2

def history (calls : List (Persist × AuditEvent)) : List AuditEvent :=
  final (appendStep sha256) [] calls

/-- The events of a realm, or of none, in the order in which they were appended. -/
def stream (events : List AuditEvent) (realm : Option String) : List AuditEvent :=
  events.filter (·.realmId == realm)

/-- Every event carries its hash, and the events of every realm form a chain. -/
structure Whole (events : List AuditEvent) : Prop where
  sealed : ∀ e ∈ events, e.Sealed sha256
  chained : ∀ realm, Chained sha256 (stream events realm).reverse

variable {sha256}

theorem whole_append (h : Whole sha256 events) (call : Persist × AuditEvent) :
    Whole sha256 (appendStep sha256 events call).2 := by
  rw [appendStep, appendAuditEvent]
  split
  · exact h
  · set previous := (events.reverse.find? (·.realmId == call.2.realmId)).bind (·.eventHash)
      with hprevious
    refine ⟨List.forall_mem_append.mpr ⟨h.sealed, List.forall_mem_singleton.mpr rfl⟩,
      fun realm => ?_⟩
    rw [stream, List.filter_append, List.reverse_append]
    by_cases hrealm : call.2.realmId = realm
    · have hkept : [call.2.withChainHashes sha256 previous].filter (·.realmId == realm) = [_] :=
        List.filter_cons_of_pos (beq_iff_eq.mpr hrealm)
      rw [hkept]
      refine ⟨?_, h.chained realm⟩
      show previous = (events.filter (·.realmId == realm)).reverse.head?.map _
      rw [hprevious, hrealm, ← List.head?_filter, List.filter_reverse]
      cases hhead : (events.filter (·.realmId == realm)).reverse.head? with
      | none => rfl
      | some e =>
        have hmem := List.mem_reverse.mp (List.mem_of_mem_head? hhead)
        exact h.sealed e (List.mem_of_mem_filter hmem)
    · have hleft : [call.2.withChainHashes sha256 previous].filter (·.realmId == realm) = [] :=
        List.filter_cons_of_neg fun heq => hrealm (beq_iff_eq.mp heq)
      rw [hleft]
      exact h.chained realm

variable (calls : List (Persist × AuditEvent))

theorem whole_history : Whole sha256 (history sha256 calls) := by
  have hstart : Whole sha256 [] := ⟨fun e he => (by cases he), fun _ => trivial⟩
  exact final_invariant (I := Whole sha256) (appendStep sha256)
    (fun _ call h => whole_append h call) hstart calls

theorem valid_stream (h : Whole sha256 events) (hfree : CollisionFree sha256 events)
    (hfuel : events.length ≤ fuel) (realm : Option String) :
    ∃ v, verifyAuditChainLinked sha256 fuel (stream events realm) = some v ∧ v.valid = true :=
  ⟨_, valid_of_chained (hfree.subset fun _ he => List.mem_of_mem_filter he)
    (fun e he => h.sealed e (List.mem_of_mem_filter he)) (h.chained realm)
    (stream events realm).reverse_perm ((List.length_filter_le _ _).trans hfuel), rfl⟩

theorem verifyStreams_valid {l : List (List AuditEvent)}
    (h : ∀ s ∈ l, ∃ v, verifyAuditChainLinked sha256 fuel s = some v ∧ v.valid = true)
    (checked : Nat) (first last : Option String) :
    ∃ v, verifyStreams sha256 fuel checked first last l = some v ∧ v.valid = true := by
  induction l generalizing checked first last with
  | nil => exact ⟨_, rfl, rfl⟩
  | cons s l ih =>
    obtain ⟨⟨v, hv, hvalid⟩, hl⟩ := List.forall_mem_cons.mp h
    rw [verifyStreams, hv, Option.bind_some, if_pos hvalid]
    exact ih hl _ _ _

/-- Accepted events that end with the hash of an event of the chain are those up to it. -/
theorem perm_of_accepted {H S pre post : List AuditEvent} {e last : AuditEvent}
    (hsealed : ∀ e ∈ H, e.Sealed sha256) (hH : Chained sha256 H.reverse)
    (hfree : CollisionFree sha256 (H ++ S))
    (haccepts : verifyAuditChainLinked sha256 fuel S = some v) (hvalid : v.valid = true)
    (hlast : last ∈ S) (htip : ∀ x ∈ S, x.previousHash ≠ last.eventHash)
    (hsplit : H = pre ++ e :: post) (hhash : e.eventHash = last.eventHash) :
    (S.map AuditEvent.canonical).Perm ((pre ++ [e]).map AuditEvent.canonical) := by
  obtain ⟨hS, t, ht, hperm⟩ :=
    chained_of_valid (hfree.subset (List.subset_append_right _ _)) haccepts hvalid
  have hlasthash : last.eventHash = some (last.computeHash sha256) := hS last hlast
  have hearlier : ∀ x ∈ pre ++ [e], x ∈ H := by
    intro x hx
    rw [hsplit, ← List.singleton_append, ← List.append_assoc]
    exact List.mem_append_left _ hx
  -- the last event is the newest of the chain that was gone through
  obtain ⟨tail, rfl⟩ : ∃ tail, t = last :: tail := by
    cases t with
    | nil => cases hperm.nil_eq ▸ hlast
    | cons newest tail =>
      rcases List.mem_cons.mp (hperm.mem_iff.mpr hlast) with rfl | htail
      · exact ⟨tail, rfl⟩
      · obtain ⟨x, hx, hprev⟩ := ht.named htail
        exact absurd (hprev.trans hlasthash.symm) (htip x (hperm.mem_iff.mp hx))
  have hchain : Chained sha256 (pre ++ [e]).reverse := by
    refine hH.suffix (List.reverse_suffix.mpr ⟨post, ?_⟩)
    rw [hsplit, List.append_assoc]
    rfl
  have hsame := Linked.map_eq previousHash_of_hashed ht hchain
    (fun x hx y hy => hfree x (List.mem_append_right _ (hperm.mem_iff.mp hx)) y
      (List.mem_append_left _ (hearlier y (List.mem_reverse.mp hy)))) (by
      have he := hsealed e (hearlier e List.mem_append_cons_self)
      rw [List.head?_reverse, List.getLast?_concat]
      exact hlasthash.symm.trans (hhash.symm.trans he))
  refine canonical_map_perm hS (fun x hx => hsealed x (hearlier x hx)) ?_
  refine (hperm.map _).symm.trans ?_
  rw [hsame, List.map_reverse]
  exact List.reverse_perm _

/-- The audit chain is complete and tamper-evident. After any calls of `append_audit_event`
verification accepts every realm and the whole; it ends on any events; and accepted events of a
realm whose last hash occurs in its history are the events up to there. -/
theorem audit_chain_tamper_evident :
    (CollisionFree sha256 (history sha256 calls) → ∀ realm fuel,
      (history sha256 calls).length ≤ fuel →
      ∃ v, verifyAuditChain sha256 fuel (history sha256 calls) realm = some v ∧ v.valid = true) ∧
    (∀ S fuel, CollisionFree sha256 S → S.length ≤ fuel →
      ∃ v, verifyAuditChainLinked sha256 fuel S = some v) ∧
    ∀ (realm : Option String) (S : List AuditEvent), (∀ x ∈ S, x.realmId = realm) →
      CollisionFree sha256 (stream (history sha256 calls) realm ++ S) →
      ∀ fuel v, verifyAuditChainLinked sha256 fuel S = some v → v.valid = true →
      ∀ last ∈ S, (∀ x ∈ S, x.previousHash ≠ last.eventHash) →
      ∀ pre e post, stream (history sha256 calls) realm = pre ++ e :: post →
        e.eventHash = last.eventHash →
        (S.map AuditEvent.canonical).Perm ((pre ++ [e]).map AuditEvent.canonical) := by
  have hwhole : Whole sha256 (history sha256 calls) := whole_history calls
  refine ⟨fun hfree realm fuel hfuel => ?_,
    fun S fuel hfree hfuel => verifyAuditChainLinked_terminates hfree hfuel, ?_⟩
  · cases realm with
    | some realm => exact valid_stream hwhole hfree hfuel (some realm)
    | none =>
      refine verifyStreams_valid (fun s hs => ?_) _ _ _
      obtain ⟨realm, -, rfl⟩ := List.mem_map.mp hs
      exact valid_stream hwhole hfree hfuel realm
  intro realm S _ hfree fuel v haccepts hvalid last hlast htip pre e post hsplit hhash
  exact perm_of_accepted (fun x hx => hwhole.sealed x (List.mem_of_mem_filter hx))
    (hwhole.chained realm) hfree haccepts hvalid hlast htip hsplit hhash

end

def sampleEvent (id : String) : AuditEvent :=
  { id := id, realmId := some "r", actor := "admin", action := "update", targetType := "client"
    targetId := "c", reason := "", metadataJson := .null, createdAt := 0, previousHash := none
    eventHash := none }

def sampleCalls : List (Persist × AuditEvent) :=
  [(.done, sampleEvent "a"), (.done, sampleEvent "b")]

def sampleHistory : List AuditEvent := history (·.id) sampleCalls

theorem collisionFree_sample : CollisionFree (·.id) sampleHistory := by
  have hids : (sampleHistory.map AuditEvent.id).Nodup := by decide
  intro a ha b hb hhash
  rw [List.inj_on_of_nodup_map hids ha hb hhash]

theorem audit_chain_tamper_evident_sample :
    (∃ v, verifyAuditChain (·.id) 2 sampleHistory none = some v ∧ v.valid = true) ∧
      (∃ v, verifyAuditChainLinked (·.id) 2 sampleHistory.reverse = some v) ∧
      (sampleHistory.reverse.map AuditEvent.canonical).Perm
        (sampleHistory.map AuditEvent.canonical) := by
  obtain ⟨hvalid, hends, hsame⟩ := @audit_chain_tamper_evident (·.id) sampleCalls
  have hfree := collisionFree_sample
  have hreverse : CollisionFree (·.id) sampleHistory.reverse :=
    hfree.subset fun _ he => List.mem_reverse.mp he
  refine ⟨hvalid hfree none 2 (Nat.le_refl 2), hends _ 2 hreverse (Nat.le_refl 2), ?_⟩
  have hboth : CollisionFree (·.id) (sampleHistory ++ sampleHistory.reverse) :=
    hfree.subset fun e he => (List.mem_append.mp he).elim id List.mem_reverse.mp
  exact hsame (some "r") sampleHistory.reverse (by decide) hboth 2 _ rfl rfl _
    List.mem_cons_self (by decide) [_] _ [] rfl rfl

end Qid.Audit
