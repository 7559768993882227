/-
What a cleanup of the push store can do.

A cleanup selects expired rows, removes each with its issuance metadata and, when the write fails,
puts back what it removed.
-/
import Mathlib.Data.List.Induction
import Mathlib.Data.List.Sort
import Mathlib.Data.Prod.Lex
import Mathlib.Data.String.Basic
import Qid.Push.Step

namespace Qid.Push

open Lib Storage

variable {limit issued now cutoff : Nat} {id : String} {s : PushStore}

section

variable {a b key : Nat × String} {heap : List (Nat × String)}

abbrev Ascending (heap : List (Nat × String)) : Prop := (heap.map toLex).Pairwise (· ≤ ·)

def oldestFirst (candidates : List (Nat × String)) : List (Nat × String) :=
  ((candidates.map toLex).insertionSort (· ≤ ·)).map ofLex

theorem keyLt_iff : keyLt a b = true ↔ toLex a < toLex b := by
  simp only [keyLt, Prod.Lex.toLex_lt_toLex, Bool.or_eq_true, Bool.and_eq_true, decide_eq_true_eq,
    beq_iff_eq]

/-- Equal keys cannot be told apart, so it does not matter which of them comes first. -/
theorem map_heapPush (h : Ascending heap) :
    (heapPush key heap).map toLex = (heap.map toLex).orderedInsert (· ≤ ·) (toLex key) := by
  induction heap with
  | nil => rfl
  | cons a heap ih =>
    obtain ⟨ha, hheap⟩ := List.pairwise_cons.mp h
    rw [heapPush, List.map_cons, List.orderedInsert_cons]
    rcases lt_trichotomy (toLex key) (toLex a) with hlt | heq | hgt
    · rw [if_pos (keyLt_iff.mpr hlt), if_pos hlt.le]
      rfl
    · obtain rfl := toLex.injective heq
      rw [if_neg (mt keyLt_iff.mp (lt_irrefl _)), if_pos le_rfl, List.map_cons, ih hheap]
      cases heap with
      | nil => rfl
      | cons b heap =>
        rw [List.map_cons, List.orderedInsert_cons_of_le _ _ (ha _ List.mem_cons_self)]
    · rw [if_neg (mt keyLt_iff.mp hgt.not_gt), if_neg hgt.not_ge, List.map_cons, ih hheap]

theorem take_heapPush_take (n : Nat) :
    (heapPush key (heap.take n)).take n = (heapPush key heap).take n := by
  induction heap generalizing n with
  | nil => rw [List.take_nil]
  | cons a heap ih =>
    cases n with
    | zero => rfl
    | succ n =>
      rw [List.take_succ_cons, heapPush, heapPush]
      split
      · cases n <;> simp [List.take_take]
      · rw [List.take_succ_cons, List.take_succ_cons, ih]

theorem heapPush_concat (h : Ascending (heap ++ [b])) :
    heapPush key (heap ++ [b]) =
      if keyLt key b then heapPush key heap ++ [b] else heap ++ [b] ++ [key] := by
  induction heap with
  | nil => simp [heapPush]
  | cons a heap ih =>
    obtain ⟨ha, hheap⟩ := List.pairwise_cons.mp h
    rw [List.cons_append, heapPush, heapPush, ih hheap]
    split
    next hlt =>
      have hb : keyLt key b = true := keyLt_iff.mpr ((keyLt_iff.mp hlt).trans_le (ha _ (by simp)))
      rw [if_pos hb]
      rfl
    next => split <;> rfl

theorem selectStep_eq (hlen : heap.length ≤ limit) (h : Ascending heap) :
    selectStep limit heap key = (heapPush key heap).take limit := by
  have hlength : ∀ {heap}, Ascending heap → (heapPush key heap).length = heap.length + 1 := by
    intro heap h
    simpa [List.orderedInsert_length] using congrArg List.length (map_heapPush h)
  rw [selectStep]
  split
  next hroom => rw [List.take_of_length_le (by rw [hlength h]; exact hroom)]
  next hfull =>
    have hlen : heap.length = limit := by omega
    rcases List.eq_nil_or_concat' heap with rfl | ⟨rest, largest, rfl⟩
    · rw [← hlen]
      rfl
    have hrest : Ascending rest := h.sublist ((List.sublist_append_left ..).map _)
    rw [List.getLast?_concat, List.dropLast_concat, Option.any_some, heapPush_concat h]
    split
    · rw [List.take_left']
      rw [hlength hrest, ← hlen, List.length_append]
      rfl
    · rw [List.take_left' hlen]

theorem foldl_selectStep (limit : Nat) (candidates : List (Nat × String)) :
    ∃ heap, Ascending heap ∧ (heap.map toLex).Perm (candidates.map toLex) ∧
      candidates.foldl (selectStep limit) [] = heap.take limit := by
  induction candidates using List.reverseRecOn with
  | nil => exact ⟨[], List.Pairwise.nil, List.Perm.nil, List.take_nil.symm⟩
  | append_singleton candidates key ih =>
    obtain ⟨heap, hheap, hperm, hfold⟩ := ih
    refine ⟨heapPush key heap, ?_, ?_, ?_⟩
    · rw [Ascending, map_heapPush hheap]
      exact hheap.orderedInsert _ _
    · rw [map_heapPush hheap, List.map_append]
      exact (List.perm_orderedInsert ..).trans
        ((hperm.cons _).trans (List.perm_append_singleton _ _).symm)
    · rw [List.foldl_append, hfold]
      have htake : Ascending (heap.take limit) := hheap.sublist ((List.take_sublist ..).map _)
      exact (selectStep_eq (List.length_take_le ..) htake).trans (take_heapPush_take limit)

variable {visited candidates : List (Nat × String)}

theorem selectOldest_eq (h : visited.Perm candidates) :
    selectOldest visited limit = ((oldestFirst candidates).take limit).map Prod.snd := by
  obtain ⟨heap, hheap, hperm, hfold⟩ := foldl_selectStep limit visited
  have hsort : heap.map toLex = (candidates.map toLex).insertionSort (· ≤ ·) :=
    List.Perm.eq_of_pairwise' hheap (List.pairwise_insertionSort _ _)
      ((hperm.trans (h.map _)).trans (List.perm_insertionSort _ _).symm)
  rw [selectOldest, hfold, oldestFirst, ← hsort]
  simp [Function.comp_def]

theorem mem_selectOldest (h : id ∈ selectOldest candidates limit) :
    ∃ issued, (issued, id) ∈ candidates := by
  rw [selectOldest_eq (List.Perm.refl _)] at h
  obtain ⟨⟨issued, _⟩, hmem, rfl⟩ := List.mem_map.mp h
  have hmem := List.mem_of_mem_take hmem
  exact ⟨issued, by simpa [oldestFirst] using hmem⟩

end

/-- A cleanup takes the candidates that come first in the order of time and id, whatever the order
they are visited in. -/
theorem select_oldest_exact (candidates : List (Nat × String)) (limit : Nat) :
    selectOldest candidates limit = ((oldestFirst candidates).take limit).map Prod.snd ∧
    (selectOldest candidates limit).length = min limit candidates.length ∧
    ∀ visited, visited.Perm candidates →
      selectOldest visited limit = selectOldest candidates limit := by
  have hsorted : selectOldest candidates limit = _ := selectOldest_eq (List.Perm.refl candidates)
  refine ⟨hsorted, ?_, fun visited hvisited => ?_⟩
  · simp [hsorted, oldestFirst]
  · rw [hsorted, selectOldest_eq hvisited]

theorem mem_expiredRegistrations (h : (issued, id) ∈ expiredRegistrations s now cutoff) :
    ∃ c, s.authenticators.lookup id = some (.pending c) ∧
      s.registrationIssuedAt.lookup id = some issued ∧ c.expiresAt ≤ now ∧ issued < cutoff := by
  obtain ⟨⟨k, row⟩, hmem, h⟩ := List.mem_filterMap.mp h
  cases row with
  | enrolled => cases h
  | pending c =>
    cases hi : s.registrationIssuedAt.lookup k with
    | none =>
      simp only [hi] at h
      cases h
    | some =>
      simp only [hi] at h
      split at h
      · rename_i hc
        obtain ⟨rfl, rfl⟩ := h
        exact ⟨c, HashMap.mem_pairs.mp hmem, hi, hc⟩
      · cases h

theorem mem_expiredLogins (h : (issued, id) ∈ expiredLogins s cutoff) :
    ∃ c, s.logins.lookup id = some c ∧ c.expiresAt < cutoff := by
  obtain ⟨⟨k, c⟩, hmem, h⟩ := List.mem_filterMap.mp h
  obtain ⟨i, -, h⟩ := Option.bind_eq_some_iff.mp h
  split at h
  · rename_i hc
    obtain ⟨rfl, rfl⟩ := h
    exact ⟨c, HashMap.mem_pairs.mp hmem, hc⟩
  · cases h

section

variable {R : Type} {gone : R → Nat → Prop} {r t : Rows R} {acc : Rows R × List (String × R × Nat)}

def Rows.get (r : Rows R) (id : String) : Option R × Option Nat :=
  (r.rows.lookup id, r.issuedAt.lookup id)

def Pruned (gone : R → Nat → Prop) (r t : Rows R) : Prop :=
  ∀ id, t.get id = r.get id ∨
    t.get id = (none, none) ∧ ∃ row issued, r.get id = (some row, some issued) ∧ gone row issued

theorem Pruned.of_get_eq (h : ∀ id, t.get id = r.get id) : Pruned gone r t :=
  fun id => Or.inl (h id)

/-- A row that is no longer there is among the removed ones, and the removed ones are rows of `r`.
-/
structure Removal (gone : R → Nat → Prop) (r : Rows R)
    (acc : Rows R × List (String × R × Nat)) : Prop where
  kept : ∀ id, acc.1.get id = r.get id ∨ acc.1.get id = (none, none) ∧ ∃ entry ∈ acc.2, entry.1 = id
  removed : ∀ entry ∈ acc.2, r.get entry.1 = (some entry.2.1, some entry.2.2) ∧
    gone entry.2.1 entry.2.2

theorem Removal.removeRow (h : Removal gone r acc)
    (hid : ∀ row issued, r.get id = (some row, some issued) → gone row issued) :
    Removal gone r (removeRow acc id) := by
  unfold Push.removeRow
  split
  · rename_i row issued hrow hissued
    have hget : acc.1.get id = (some row, some issued) := by rw [Rows.get, hrow, hissued]
    have hr : r.get id = (some row, some issued) := by
      rcases h.kept id with hk | ⟨hk, -⟩
      · rw [← hk, hget]
      · rw [hk] at hget
        cases hget
    constructor
    · intro k
      rw [Rows.get, KeyMap.lookup_erase_eq, KeyMap.lookup_erase_eq]
      by_cases hk : k = id
      · rw [if_pos hk, if_pos hk]
        exact Or.inr ⟨rfl, _, List.mem_append_cons_self, hk.symm⟩
      · rw [if_neg hk, if_neg hk]
        rcases h.kept k with hkept | ⟨hnone, entry, he, hek⟩
        · exact Or.inl hkept
        · exact Or.inr ⟨hnone, entry, List.mem_append_left _ he, hek⟩
    · intro entry he
      rcases List.mem_append.mp he with he | he
      · exact h.removed entry he
      · rw [List.mem_singleton.mp he]
        exact ⟨hr, hid row issued hr⟩
  · exact h

theorem removal_foldl {ids : List String}
    (hids : ∀ id ∈ ids, ∀ row issued, r.get id = (some row, some issued) → gone row issued) :
    Removal gone r (ids.foldl removeRow (r, [])) := by
  refine List.foldlRecOn (motive := Removal gone r) ids removeRow ?_ fun acc h id hid => ?_
  · exact ⟨fun id => Or.inl rfl, fun entry he => by cases he⟩
  · exact h.removeRow (hids id hid)

theorem Removal.pruned (h : Removal gone r acc) : Pruned gone r acc.1 := by
  intro id
  rcases h.kept id with hk | ⟨hnone, entry, he, rfl⟩
  · exact Or.inl hk
  · exact Or.inr ⟨hnone, entry.2.1, entry.2.2, h.removed entry he⟩

theorem Removal.restore (h : Removal gone r acc) :
    ∀ id, (acc.2.foldl restoreRow acc.1).get id = r.get id := by
  -- A row is in place already, or among the entries still to be put back.
  have hfold : ∀ (l : List (String × R × Nat)) (t : Rows R),
      (∀ entry ∈ l, r.get entry.1 = (some entry.2.1, some entry.2.2)) →
      (∀ id, t.get id = r.get id ∨ ∃ entry ∈ l, entry.1 = id) →
      ∀ id, (l.foldl restoreRow t).get id = r.get id := by
    intro l
    induction l with
    | nil =>
      intro t _ ht id
      rcases ht id with h | ⟨entry, he, -⟩
      · exact h
      · cases he
    | cons entry l ih =>
      intro t hl ht
      refine ih _ (fun e he => hl e (List.mem_cons_of_mem entry he)) fun k => ?_
      rw [Rows.get, restoreRow, KeyMap.lookup_insert_eq, KeyMap.lookup_insert_eq]
      by_cases hk : k = entry.1
      · rw [if_pos hk, if_pos hk, hk]
        exact Or.inl (hl entry List.mem_cons_self).symm
      · rw [if_neg hk, if_neg hk]
        rcases ht k with h | ⟨e, he, hek⟩
        · exact Or.inl h
        · rcases List.mem_cons.mp he with rfl | he
          · exact absurd hek.symm hk
          · exact Or.inr ⟨e, he, hek⟩
  refine hfold acc.2 acc.1 (fun entry he => (h.removed entry he).1) fun id => ?_
  exact (h.kept id).imp_right fun hk => hk.2

end

/-- A pending registration that is expired and was issued before the cutoff. -/
def RegistrationGone (now : Nat) (row : PushAuthenticatorRecord) (issued : Nat) : Prop :=
  (∃ c, row = .pending c ∧ c.expiresAt ≤ now) ∧ issued < now - maxPushWindowSeconds

def LoginGone (now : Nat) (c : PushLoginChallenge) (_ : Nat) : Prop :=
  c.expiresAt < now - maxPushWindowSeconds

/-- Whatever a cleanup answers, it keeps each row with its metadata or removes
both, and removes only rows past their retention. -/
theorem cleanup_pruned (persist : Persist) (s : PushStore) (now limit : Nat) :
    Pruned (RegistrationGone now) s.registrationRows
        (cleanupExpiredPushRecords persist s now limit).2.registrationRows ∧
      Pruned (LoginGone now) s.loginRows
        (cleanupExpiredPushRecords persist s now limit).2.loginRows := by
  have hsame : Pruned (RegistrationGone now) s.registrationRows s.registrationRows ∧
      Pruned (LoginGone now) s.loginRows s.loginRows :=
    ⟨Pruned.of_get_eq fun _ => rfl, Pruned.of_get_eq fun _ => rfl⟩
  unfold cleanupExpiredPushRecords
  cases hcut : cleanupCutoff now limit with
  | error => exact hsame
  | ok =>
    rw [cleanupCutoff, guard_eq_ok, pure_eq_ok] at hcut
    obtain ⟨-, rfl⟩ := hcut
    cases hval : validateRows s with
    | error => exact hsame
    | ok =>
      simp only
      generalize hregs :
        selectOldest (expiredRegistrations s now (now - maxPushWindowSeconds)) limit = regs
      generalize hlogins : (if limit - regs.length = 0 then []
        else selectOldest (expiredLogins s (now - maxPushWindowSeconds))
          (limit - regs.length)) = logins
      have hr : Removal (RegistrationGone now) s.registrationRows
          (regs.foldl removeRow (s.registrationRows, [])) := by
        refine removal_foldl fun id hid row issued hget => ?_
        rw [← hregs] at hid
        obtain ⟨i, hi⟩ := mem_selectOldest hid
        obtain ⟨c, hrow, hissued, hexp, hcut⟩ := mem_expiredRegistrations hi
        rw [Prod.mk.injEq] at hget
        have h₁ : some row = some (.pending c) := hget.1.symm.trans hrow
        have h₂ : some issued = some i := hget.2.symm.trans hissued
        rw [Option.some.inj h₁, Option.some.inj h₂]
        exact ⟨⟨c, rfl, hexp⟩, hcut⟩
      have hl : Removal (LoginGone now) s.loginRows
          (logins.foldl removeRow (s.loginRows, [])) := by
        refine removal_foldl fun id hid row issued hget => ?_
        rw [← hlogins] at hid
        split at hid
        · cases hid
        · obtain ⟨i, hi⟩ := mem_selectOldest hid
          obtain ⟨c, hrow, hexp⟩ := mem_expiredLogins hi
          rw [Prod.mk.injEq] at hget
          have h₁ : some row = some c := hget.1.symm.trans hrow
          rw [Option.some.inj h₁]
          exact hexp
      split
      · exact hsame
      · cases hp : pushPersist persist with
        | ok => exact ⟨hr.pruned, hl.pruned⟩
        | error => exact ⟨Pruned.of_get_eq hr.restore, Pruned.of_get_eq hl.restore⟩

end Qid.Push
