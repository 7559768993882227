/-
A budget of failures for each key.

The map of a `FailureBudget` is bounded: a failure under a new key evicts the oldest windows, live
or not. A poisoned lock is left out.
-/
import Qid.RateLimit.Limiter

namespace Qid.Throttle

open Lib
open Dpop (saturatingAdd)

def maxBudgetEntries : Nat := 1024

structure WindowEntry where
  count : Nat
  windowStart : Nat
  deriving DecidableEq

abbrev Budget : Type := KeyMap String WindowEntry

def exhausted (m : Budget) (key : String) (limit window now : Nat) : Bool :=
  (m.lookup key).any fun entry =>
    now < saturatingAdd entry.windowStart window && limit ≤ entry.count

/-- The map is visited in the order of the ranks, which the hash function gives. -/
def evictOldest (rank : String → Nat) (m : Budget) : Budget :=
  let oldest := (m.entries.map fun e => (e.2.windowStart, e.1)).mergeSort fun a b =>
    a.1 < b.1 || a.1 = b.1 && rank a.2 ≤ rank b.2
  (oldest.take (m.size - maxBudgetEntries)).foldl (fun m p => m.erase p.2) m

def counted (m : Budget) (key : String) (window now : Nat) : WindowEntry :=
  let entry := (m.lookup key).getD ⟨0, now⟩
  let entry := if saturatingAdd entry.windowStart window ≤ now then ⟨0, now⟩ else entry
  { entry with count := min (entry.count + 1) RateLimit.u32Max }

def recordFailure (rank : String → Nat) (m : Budget) (key : String) (limit window now : Nat) :
    Bool × Budget :=
  let entry := counted m key window now
  (limit ≤ entry.count, evictOldest rank (m.insert key entry))

/-- The limit and the window that the callers state for a key. -/
structure Policy where
  limit : String → RateLimit.U32
  window : String → Nat

inductive Op where
  | exhausted
  | recordFailure (rank : String → Nat)

structure Call where
  key : String
  now : Nat
  op : Op

def step (policy : Policy) (m : Budget) (c : Call) : Bool × Budget :=
  match c.op with
  | .exhausted => (exhausted m c.key (policy.limit c.key).val (policy.window c.key) c.now, m)
  | .recordFailure rank =>
    recordFailure rank m c.key (policy.limit c.key).val (policy.window c.key) c.now

/-- A failure under a new key, while the map is full, finds a window older than that of the key. -/
def Spares (key : String) (m : Budget) (c : Call) : Prop :=
  ∀ rank, c.op = .recordFailure rank → c.key ∉ m → maxBudgetEntries ≤ m.size →
    ∃ k entry, m.lookup k = some entry ∧
      entry.windowStart < ((m.lookup key).map (·.windowStart)).getD c.now

theorem step_recordFailure {rank : String → Nat} {c : Call} (policy : Policy) (m : Budget)
    (hop : c.op = .recordFailure rank) :
    step policy m c = (decide ((policy.limit c.key).val ≤
        (counted m c.key (policy.window c.key) c.now).count),
      evictOldest rank (m.insert c.key (counted m c.key (policy.window c.key) c.now))) := by
  rw [step, hop]
  rfl

variable {policy : Policy} {m : Budget} {c : Call} {key : String} {entry : WindowEntry}
  {rank : String → Nat} {start : Nat}

theorem size_erase (h : key ∈ m) : KeyMap.size (m.erase key) + 1 = m.size := by
  have hlen := congrArg List.length (AList.keys_erase key m)
  rw [List.length_erase_of_mem h] at hlen
  have hpos := List.length_pos_of_mem h
  simp only [AList.keys, List.keys, List.length_map] at hlen hpos
  simp only [KeyMap.size]; omega

theorem evictOldest_cases (rank : String → Nat) (h : m.size ≤ maxBudgetEntries + 1) :
    (m.size ≤ maxBudgetEntries ∧ evictOldest rank m = m) ∨
      maxBudgetEntries < m.size ∧ ∃ key entry, m.lookup key = some entry ∧
        evictOldest rank m = m.erase key ∧
        ∀ k e, m.lookup k = some e → entry.windowStart ≤ e.windowStart := by
  rw [evictOldest]
  by_cases hfits : m.size ≤ maxBudgetEntries
  · rw [Nat.sub_eq_zero_of_le hfits]
    exact Or.inl ⟨hfits, rfl⟩
  · rw [show m.size - maxBudgetEntries = 1 by omega]
    refine Or.inr ⟨by omega, ?_⟩
    have hsorted := @List.pairwise_mergeSort _ (fun a b : Nat × String =>
      a.1 < b.1 || a.1 = b.1 && rank a.2 ≤ rank b.2) (by simp; omega) (by simp; omega)
      (m.entries.map fun e => (e.2.windowStart, e.1))
    have hperm := List.mergeSort_perm (m.entries.map fun e => (e.2.windowStart, e.1))
      fun a b => a.1 < b.1 || a.1 = b.1 && rank a.2 ≤ rank b.2
    generalize List.mergeSort _ _ = oldest at hsorted hperm
    cases oldest with
    | nil => simp [List.map_eq_nil_iff.mp hperm.nil_eq.symm, KeyMap.size] at hfits
    | cons p rest =>
      obtain ⟨e, he, rfl⟩ := List.mem_map.mp (hperm.mem_iff.mp List.mem_cons_self)
      refine ⟨e.1, e.2, AList.mem_lookup_iff.mpr he, rfl, fun k e' he' => ?_⟩
      have hmem := hperm.mem_iff.mpr (List.mem_map_of_mem (AList.mem_lookup_iff.mp he'))
      rcases List.mem_cons.mp hmem with heq | hrest
      · exact Nat.le_of_eq (congrArg Prod.fst heq).symm
      · have hle := (List.pairwise_cons.mp hsorted).1 _ hrest
        simp only [Bool.or_eq_true, Bool.and_eq_true, decide_eq_true_eq] at hle
        omega

theorem size_step (h : m.size ≤ maxBudgetEntries) :
    (step policy m c).2.size ≤ maxBudgetEntries := by
  cases hop : c.op with
  | exhausted => rw [step, hop]; exact h
  | recordFailure rank =>
    have hinsert := KeyMap.size_insert_le m c.key (counted m c.key (policy.window c.key) c.now)
    rw [step_recordFailure policy m hop]
    rcases evictOldest_cases rank (Nat.le_trans hinsert (Nat.succ_le_succ h)) with
      ⟨hfits, hsame⟩ | ⟨-, key, entry, hfound, hsame, -⟩
    · rw [hsame]
      exact hfits
    · have herase := size_erase (AList.lookup_isSome.mp (Option.isSome_of_eq_some hfound))
      simp only [hsame]; omega

/-- An entry that has an older one beside it, whenever one is evicted, stays. -/
theorem lookup_evictOldest {k : String} {new : WindowEntry} (hsize : m.size ≤ maxBudgetEntries)
    (hkey : (m.insert k new).lookup key = some entry) (holder : k ∉ m → maxBudgetEntries ≤ m.size →
      ∃ k' e, m.lookup k' = some e ∧ e.windowStart < entry.windowStart) :
    (evictOldest rank (m.insert k new)).lookup key = some entry := by
  have hinsert := KeyMap.size_insert_le m k new
  rcases evictOldest_cases rank (Nat.le_trans hinsert (Nat.succ_le_succ hsize)) with
    ⟨-, hsame⟩ | ⟨hfull, oldest, e, hfound, hsame, hle⟩
  · rw [hsame, hkey]
  · have hnew : k ∉ m := by
      intro hmem
      rw [KeyMap.size_insert_of_mem hmem] at hfull
      omega
    obtain ⟨k', e', hfound', hlt⟩ := holder hnew (by omega)
    have hne : k' ≠ k := fun heq =>
      hnew (heq ▸ AList.lookup_isSome.mp (Option.isSome_of_eq_some hfound'))
    have hle := hle k' e' ((AList.lookup_insert_ne hne).trans hfound')
    rw [hsame, AList.lookup_erase_ne, hkey]
    rintro rfl
    rw [hkey, Option.some.injEq] at hfound
    rw [← hfound] at hle
    omega

theorem size_final (policy : Policy) (calls : List Call) :
    (final (step policy) (∅ : Budget) calls).size ≤ maxBudgetEntries :=
  final_invariant (step policy) (I := fun m => m.size ≤ maxBudgetEntries) (fun _ _ => size_step)
    (Nat.zero_le _) calls

/-- No window starts after the last call. -/
theorem windowStart_le (policy : Policy) {calls : List Call} {T : Nat}
    (h : ∀ c ∈ calls, c.now ≤ T) :
    ∀ k e, (final (step policy) (∅ : Budget) calls).lookup k = some e → e.windowStart ≤ T := by
  induction calls using List.reverseRecOn with
  | nil => exact fun k e hk => nomatch hk
  | append_singleton calls c ih =>
    have hm := ih fun c hc => h c (List.mem_append_left _ hc)
    have hsize := size_final policy calls
    rw [final_append, final_cons, final_nil]
    generalize final (step policy) (∅ : Budget) calls = m at hm hsize
    intro k e hk
    cases hop : c.op with
    | exhausted =>
      rw [step, hop] at hk
      exact hm k e hk
    | recordFailure rank =>
      have hnow := h c List.mem_append_cons_self
      have hcounted : (counted m c.key (policy.window c.key) c.now).windowStart ≤ T := by
        simp only [counted]
        split
        · exact hnow
        · cases hold : m.lookup c.key with
          | none => exact hnow
          | some old => exact hm c.key old hold
      simp only [step_recordFailure policy m hop] at hk
      generalize counted m c.key (policy.window c.key) c.now = new at hk hcounted
      have hinsert := KeyMap.size_insert_le m c.key new
      have hbefore : (m.insert c.key new).lookup k = some e := by
        rcases evictOldest_cases rank (Nat.le_trans hinsert (Nat.succ_le_succ hsize)) with
          ⟨-, hsame⟩ | ⟨-, oldest, e, -, hsame, -⟩
        · exact (congrArg (AList.lookup k) hsame).symm.trans hk
        · rw [hsame, KeyMap.lookup_erase_eq] at hk
          exact (Option.ite_none_left_eq_some.mp hk).2
      rcases HashMap.of_lookup_insert hbefore with ⟨-, rfl⟩ | ⟨-, hold⟩
      · exact hcounted
      · exact hm k e hold

/-- Of more keys than the map has room for, one is not tracked. -/
theorem exists_untracked (policy : Policy) {calls : List Call}
    (hnodup : (calls.map Call.key).Nodup) (hmany : maxBudgetEntries < calls.length) :
    ∃ c ∈ calls, c.key ∉ final (step policy) (∅ : Budget) calls := by
  by_contra hall
  push Not at hall
  have hsize := size_final policy calls
  generalize final (step policy) (∅ : Budget) calls = m at hall hsize
  have hkeys : calls.map Call.key ⊆ m.keys := by
    intro key hkey
    obtain ⟨c, hc, rfl⟩ := List.mem_map.mp hkey
    exact hall c hc
  have hle := (List.subperm_of_subset hnodup hkeys).length_le
  simp only [List.length_map, AList.keys, List.keys] at hle
  exact absurd (Nat.le_trans hle hsize) (Nat.not_le.mpr hmany)

def Spent (policy : Policy) (key : String) (start : Nat) (m : Budget) : Prop :=
  ∃ entry, m.lookup key = some entry ∧ (policy.limit key).val ≤ entry.count ∧
    entry.windowStart = start

theorem spent_recordFailure (hsize : m.size ≤ maxBudgetEntries)
    (hop : c.op = .recordFailure rank) (hreply : (step policy m c).1 = true)
    (hspares : Spares c.key m c) :
    Spent policy c.key (counted m c.key (policy.window c.key) c.now).windowStart
      (step policy m c).2 := by
  simp only [step_recordFailure policy m hop] at hreply ⊢
  refine ⟨_, lookup_evictOldest hsize (AList.lookup_insert m) fun hnew hfull => ?_,
    of_decide_eq_true hreply, rfl⟩
  obtain ⟨k, e, hfound, hlt⟩ := hspares rank hop hnew hfull
  have hnone := AList.lookup_eq_none.mpr hnew
  simp only [hnone, Option.map_none] at hlt
  simp only [counted, hnone]
  exact ⟨k, e, hfound, by split <;> exact hlt⟩

theorem Spent.step (h : Spent policy key start m) (hsize : m.size ≤ maxBudgetEntries)
    (hspares : Spares key m c) (hnow : c.now < saturatingAdd start (policy.window key)) :
    Spent policy key start (step policy m c).2 := by
  obtain ⟨entry, hfound, hlimit, rfl⟩ := h
  cases hop : c.op with
  | exhausted => rw [Throttle.step, hop]; exact ⟨entry, hfound, hlimit, rfl⟩
  | recordFailure rank =>
    simp only [step_recordFailure policy m hop]
    by_cases hkey : c.key = key
    · subst hkey
      have hmax : (policy.limit c.key).val ≤ RateLimit.u32Max :=
        Nat.le_pred_of_lt (policy.limit c.key).isLt
      refine ⟨_, lookup_evictOldest hsize (AList.lookup_insert m) fun hnew => ?_, ?_⟩
      · exact absurd (AList.lookup_isSome.mp (Option.isSome_of_eq_some hfound)) hnew
      · -- in a window that runs, the count only grows
        simp only [counted, hfound, Option.getD_some, if_neg (Nat.not_le.mpr hnow)]
        exact ⟨by omega, trivial⟩
    · refine ⟨entry, lookup_evictOldest hsize ?_ fun hnew hfull => ?_, hlimit, rfl⟩
      · rw [AList.lookup_insert_ne (Ne.symm hkey), hfound]
      · obtain ⟨k, e, hk, hlt⟩ := hspares rank hop hnew hfull
        rw [hfound] at hlt
        exact ⟨k, e, hk, hlt⟩

/-- Up to the end of its window, a spent budget is exhausted. -/
theorem Spent.exhausted {calls : List Call} (h : Spent policy key start m)
    (hsize : m.size ≤ maxBudgetEntries) (hclock : calls.Pairwise (·.now ≤ ·.now))
    (hspares : ∀ e ∈ run (Throttle.step policy) m calls, Spares key e.before e.call) :
    ∀ e ∈ run (Throttle.step policy) m calls, e.call.key = key → e.call.op = .exhausted →
      e.call.now < saturatingAdd start (policy.window key) → e.reply = true := by
  induction calls generalizing m with
  | nil => simp
  | cons c calls ih =>
    rw [List.pairwise_cons] at hclock
    rw [run_cons, List.forall_mem_cons] at hspares ⊢
    refine ⟨fun hkey hop hnow => ?_, fun e he hkey hop hnow => ?_⟩
    · obtain ⟨entry, hfound, hlimit, rfl⟩ := h
      subst hkey
      simp only [eventOf] at hop hfound hlimit hnow
      simp [eventOf, Throttle.step, hop, Throttle.exhausted, hfound, hlimit, hnow]
    · have hle := hclock.1 _ (call_mem_of_mem_run _ he)
      have hkept : Spent policy key start (Throttle.step policy m c).2 :=
        h.step hsize hspares.1 (Nat.lt_of_le_of_lt hle hnow)
      exact ih hkept (size_step hsize) hclock.2 hspares.2 e he hkey hop hnow

/-- Where an older window is evicted in its place, a spent budget stays spent up to the end of
the window in which it was spent. -/
theorem spent_budget_stays_spent (policy : Policy) {calls : List Call}
    {xs ys : List (Event Budget Call Bool)} {e : Event Budget Call Bool}
    (hclock : calls.Pairwise (·.now ≤ ·.now)) (hrun : run (step policy) ∅ calls = xs ++ e :: ys)
    {rank : String → Nat} (hop : e.call.op = .recordFailure rank) (hspent : e.reply = true)
    (hspares : ∀ e' ∈ e :: ys, Spares e.call.key e'.before e'.call) :
    ∀ e' ∈ ys, e'.call.key = e.call.key → e'.call.op = .exhausted → e'.call.now < saturatingAdd
      (counted e.before e.call.key (policy.window e.call.key) e.call.now).windowStart
        (policy.window e.call.key) → e'.reply = true := by
  obtain ⟨before, c, after, rfl, -, rfl, rfl⟩ := run_eq_append_cons (step policy) hrun
  have hsize := size_final policy before
  rw [List.forall_mem_cons] at hspares
  rw [List.pairwise_append, List.pairwise_cons] at hclock
  exact (spent_recordFailure hsize hop hspent hspares.1).exhausted (size_step hsize)
    hclock.2.1.2 hspares.2

def samplePolicy : Policy := ⟨fun _ => 1, fun _ => 60⟩

def sampleCall (key : String) (now : Nat) : Call := ⟨key, now, .recordFailure fun _ => 0⟩

theorem sampleCall_spends (m : Budget) (key : String) (now : Nat) :
    (step samplePolicy m (sampleCall key now)).1 = true := by
  have hlimit : (samplePolicy.limit key).val = 1 := rfl
  have hpos : 0 < RateLimit.u32Max := by decide
  have hcount : 1 ≤ (counted m key (samplePolicy.window key) now).count := by
    simp only [counted]
    omega
  simp only [step, sampleCall, recordFailure, hlimit, hcount, decide_true]

def fill (n : Nat) : List Call :=
  (List.range n).map fun i => sampleCall (String.ofList (List.replicate i 'x')) 0

theorem nodup_fill (n : Nat) : ((fill n).map Call.key).Nodup := by
  rw [fill, List.map_map]
  refine List.nodup_range.map fun i j hij => ?_
  simpa using congrArg List.length (String.ofList_injective hij)

/-- The last failure meets a full map and evicts an older window, and the budget that it spends
stays spent. -/
theorem spent_budget_stays_spent_sample :
    (∃ c ∈ fill maxBudgetEntries ++ [sampleCall "a" 1],
      c.key ∉ final (step samplePolicy) ∅ (fill maxBudgetEntries ++ [sampleCall "a" 1])) ∧
    (step samplePolicy (final (step samplePolicy) ∅
      (fill maxBudgetEntries ++ [sampleCall "a" 1])) ⟨"a", 59, .exhausted⟩).1 = true := by
  have hfill : ∀ c ∈ fill maxBudgetEntries, c.now ≤ 0 ∧ c.key ≠ "a" := by
    intro c hc
    obtain ⟨i, -, rfl⟩ := List.mem_map.mp hc
    refine ⟨Nat.le_refl 0, fun hkey => ?_⟩
    have hmem : 'a' ∈ List.replicate i 'x' := by
      rw [← String.toList_ofList (l := List.replicate i 'x'), show String.ofList _ = _ from hkey]
      decide
    exact absurd (List.eq_of_mem_replicate hmem) (by decide)
  constructor
  · refine exists_untracked samplePolicy ?_ (by simp [fill])
    rw [List.map_append, List.map_singleton, ← List.concat_eq_append]
    refine (nodup_fill _).concat fun hmem => ?_
    obtain ⟨c, hc, hkey⟩ := List.mem_map.mp hmem
    exact (hfill c hc).2 hkey
  have hclock : (fill maxBudgetEntries ++ [sampleCall "a" 1, ⟨"a", 59, .exhausted⟩]).Pairwise
      (·.now ≤ ·.now) := by
    refine List.pairwise_append.mpr ⟨?_, by simp [sampleCall], fun c hc d _ => ?_⟩
    · exact List.pairwise_map.mpr (List.pairwise_of_forall fun _ _ => Nat.le_refl 0)
    · exact Nat.le_trans (hfill c hc).1 (Nat.zero_le _)
  have hrun := run_append (step samplePolicy) ∅ (fill maxBudgetEntries)
    [sampleCall "a" 1, ⟨"a", 59, .exhausted⟩]
  have hold := windowStart_le samplePolicy fun c hc => (hfill c hc).1
  rw [final_append, final_cons, final_nil]
  generalize final (step samplePolicy) ∅ (fill maxBudgetEntries) = m at hrun hold
  rw [run_cons] at hrun
  have hspares : Spares "a" m (sampleCall "a" 1) := by
    intro rank hop hnew hfull
    obtain ⟨⟨k, e⟩, he⟩ := List.exists_mem_of_length_pos (Nat.lt_of_lt_of_le (by decide) hfull)
    have hlookup := AList.mem_lookup_iff.mpr he
    refine ⟨k, e, hlookup, ?_⟩
    have hnone : m.lookup "a" = none := AList.lookup_eq_none.mpr hnew
    rw [hnone]
    exact Nat.lt_succ_of_le (hold k e hlookup)
  have hspent := spent_budget_stays_spent samplePolicy hclock hrun rfl
    (by simp only [eventOf, sampleCall_spends])
  simp only [run_cons, run_nil, List.forall_mem_cons, eventOf] at hspent
  have hwindow (start : Nat) : 59 < saturatingAdd start 60 := by
    have hmax : 59 < Dpop.u64Max := by decide
    rw [saturatingAdd]
    omega
  exact (hspent ⟨hspares, fun _ hop => (nomatch hop), fun e he => (nomatch he)⟩).1 rfl trivial
    (hwindow _)

/-- Each of 1025 failures spends the budget of its key, and the map has not room for all: within the
window, some key is not exhausted. -/
theorem spent_budget_forgotten :
    (∀ e ∈ run (step samplePolicy) ∅ (fill (maxBudgetEntries + 1)), e.reply = true) ∧
      ∃ c ∈ fill (maxBudgetEntries + 1), (step samplePolicy (final (step samplePolicy) ∅
        (fill (maxBudgetEntries + 1))) ⟨c.key, 1, .exhausted⟩).1 = false := by
  constructor
  · intro e he
    obtain ⟨calls, c, hcalls, rfl⟩ := of_mem_run _ he
    obtain ⟨i, -, rfl⟩ := List.mem_map.mp (hcalls.subset List.mem_append_cons_self)
    simp only [eventOf, sampleCall_spends]
  · obtain ⟨c, hc, hnone⟩ := exists_untracked samplePolicy (nodup_fill (maxBudgetEntries + 1))
      (by simp [fill])
    refine ⟨c, hc, ?_⟩
    rw [step, exhausted, AList.lookup_eq_none.mpr hnone]
    rfl

end Qid.Throttle
