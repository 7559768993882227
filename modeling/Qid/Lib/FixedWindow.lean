/-
Fixed windows.

A counter counts what is admitted in a window of `W` instants that begins with the first admission.
A `Ledger` keeps what was admitted and is not settled yet, and `Move` is what may happen to the two.
If nothing is given back, windows do not overlap (`Separate`).
-/
import Mathlib.Logic.Relation
import Qid.Lib.Window

namespace Lib
namespace FixedWindow

structure Counter where
  start : Nat
  count : Nat
  deriving DecidableEq

/-- A counter, and the admissions that are not settled. -/
structure Ledger (α : Type) where
  counter : Option Counter
  pending : List α

variable {α κ : Type} (M W : Nat) (time : α → Nat)

/-- An admission at an instant, or the end of a window. -/
inductive Advance (now : Nat) : Ledger α → Ledger α → Prop
  | drop (c : Counter) (p : List α) (hended : c.start + W ≤ now) : Advance now ⟨some c, p⟩ ⟨none, p⟩
  | count (c : Counter) (p : List α) (a : α) (ha : time a = now) (hlive : now < c.start + W)
      (hroom : c.count < M) :
      Advance now ⟨some c, p⟩ ⟨some { c with count := c.count + 1 }, p ++ [a]⟩
  | restart (o : Option Counter) (p : List α) (a : α) (ha : time a = now)
      (hended : ∀ c ∈ o, c.start + W ≤ now) (hroom : 0 < M) :
      Advance now ⟨o, p⟩ ⟨some ⟨now, 1⟩, p ++ [a]⟩

inductive Move [DecidableEq α] (now : Nat) : Ledger α → Ledger α → Prop
  | advance {l l' : Ledger α} (h : Advance M W time now l l') : Move now l l'
  | giveBack (c : Counter) (p : List α) (a : α) (ha : a ∈ p) (hin : c.start ≤ time a) :
      Move now ⟨some c, p⟩
        ⟨if c.count ≤ 1 then none else some { c with count := c.count - 1 },
          p.filter fun b => b ≠ a⟩
  | settle (o : Option Counter) (p : List α) (a : α) : Move now ⟨o, p⟩ ⟨o, p.filter fun b => b ≠ a⟩

/-- The open admissions of the window that begins at `w`. -/
def inWindow (w : Nat) (p : List α) : Nat := p.countP fun a => w ≤ time a && time a < w + W

/-- The invariant of the moves, where `ws` are the beginnings of the windows so far. -/
structure Kept (ws : List Nat) (now : Nat) (l : Ledger α) : Prop where
  past : ∀ a ∈ l.pending, time a ≤ now
  begun : ∀ w ∈ ws, w ≤ now
  covered : ∀ a ∈ l.pending, ∃ w ∈ ws, w ≤ time a ∧ time a < w + W
  current : ∀ c ∈ l.counter, c.start ∈ ws ∧ (∀ w ∈ ws, w ≤ c.start) ∧ c.count ≤ M ∧
    (l.pending.countP fun a => c.start ≤ time a) ≤ c.count
  bounded : ∀ w ∈ ws, inWindow W time w l.pending ≤ M
  /-- What is open in a running window is counted in the current one. -/
  running : ∀ w ∈ ws, now < w + W → ∀ a ∈ l.pending, w ≤ time a → ∃ c ∈ l.counter, c.start ≤ time a

variable {M W time} {ws : List Nat} {now now' : Nat} {l l' : Ledger α} {c : Counter}
  {o : Option Counter} {p : List α} {a : α}

theorem Kept.mono (h : Kept M W time ws now l) (hnow : now ≤ now') : Kept M W time ws now' l where
  past a ha := Nat.le_trans (h.past a ha) hnow
  begun w hw := Nat.le_trans (h.begun w hw) hnow
  covered := h.covered
  current := h.current
  bounded := h.bounded
  running w hw hlive := h.running w hw (Nat.lt_of_le_of_lt hnow hlive)

/-- When the current window has ended, nothing is open in a running one. -/
theorem Kept.not_running (h : Kept M W time ws now l)
    (hended : ∀ c ∈ l.counter, c.start + W ≤ now) {w : Nat} (hw : w ∈ ws) (hlive : now < w + W)
    (ha : a ∈ l.pending) : time a < w := by
  by_contra hle
  obtain ⟨c, hc, -⟩ := h.running w hw hlive a ha (by omega)
  have := (h.current c hc).2.1 w hw
  have := hended c hc
  omega

theorem Kept.before (h : Kept M W time ws now l) (hended : ∀ c ∈ l.counter, c.start + W ≤ now)
    (ha : a ∈ l.pending) : time a < now := by
  by_contra hge
  obtain ⟨w, hw, hle, hlt⟩ := h.covered a ha
  have := h.not_running hended hw (by omega) ha
  omega

theorem countP_le_add {q r t : α → Bool} (h : ∀ a ∈ p, q a = true → r a = true ∨ t a = true) :
    p.countP q ≤ p.countP r + p.countP t := by
  rw [List.countP_eq_countP_filter_add p q r, List.countP_filter, List.countP_filter]
  refine Nat.add_le_add (List.countP_mono_left fun a _ ha => ?_)
    (List.countP_mono_left fun a hmem ha => ?_)
  · exact (Bool.and_eq_true _ _ ▸ ha).2
  · rw [Bool.and_eq_true, Bool.not_eq_true'] at ha
    exact (h a hmem ha.1).resolve_left (by rw [ha.2]; decide)

theorem inWindow_append (w : Nat) (p : List α) (a : α) :
    inWindow W time w (p ++ [a]) =
      inWindow W time w p + if w ≤ time a ∧ time a < w + W then 1 else 0 := by
  rw [inWindow, inWindow, List.countP_append]
  simp

theorem Kept.drop (h : Kept M W time ws now ⟨some c, p⟩) (hended : c.start + W ≤ now) :
    Kept M W time ws now ⟨none, p⟩ where
  past := h.past
  begun := h.begun
  covered := h.covered
  current _ hc := nomatch hc
  bounded := h.bounded
  running w hw hlive a ha hle := by
    have hlt := h.not_running (fun d hd => by cases hd; exact hended) hw hlive ha
    omega

/-- What holds of the open admissions and of a new one. -/
theorem forall_mem_snoc {P : α → Prop} (hp : ∀ b ∈ p, P b) (ha : P a) : ∀ b ∈ p ++ [a], P b :=
  List.forall_mem_append.mpr ⟨hp, List.forall_mem_singleton.mpr ha⟩

theorem Kept.count (h : Kept M W time ws now ⟨some c, p⟩) (ha : time a = now)
    (hlive : now < c.start + W) (hroom : c.count < M) :
    Kept M W time ws now ⟨some { c with count := c.count + 1 }, p ++ [a]⟩ := by
  obtain ⟨hstart, hlatest, -, hcounted⟩ := h.current c rfl
  change (p.countP fun b => c.start ≤ time b) ≤ c.count at hcounted
  have hle := h.begun c.start hstart
  refine ⟨forall_mem_snoc h.past (Nat.le_of_eq ha), h.begun,
    forall_mem_snoc h.covered ⟨c.start, hstart, ha ▸ hle, ha ▸ hlive⟩, ?_, ?_, ?_⟩
  · intro d hd
    cases hd
    refine ⟨hstart, hlatest, hroom, ?_⟩
    rw [List.countP_append, List.countP_singleton]
    exact Nat.add_le_add hcounted (by split <;> decide)
  · intro w hw
    rw [inWindow_append, ha]
    have hbound : inWindow W time w p ≤ M := h.bounded w hw
    split
    · rename_i hin
      -- The window runs, so what is open in it is counted by `c`, which has room.
      have hsub : inWindow W time w p ≤ p.countP fun b => c.start ≤ time b := by
        refine List.countP_mono_left fun b hb hw' => ?_
        rw [Bool.and_eq_true, decide_eq_true_eq] at hw'
        obtain ⟨d, hd, hle'⟩ := h.running w hw hin.2 b hb hw'.1
        cases hd
        exact decide_eq_true hle'
      omega
    · omega
  · intro w hw hlive'
    refine forall_mem_snoc (fun b hb hle' => ?_) fun _ => ⟨_, rfl, ha ▸ hle⟩
    obtain ⟨d, hd, hd'⟩ := h.running w hw hlive' b hb hle'
    cases hd
    exact ⟨_, rfl, hd'⟩

theorem Kept.restart (h : Kept M W time ws now ⟨o, p⟩) (hW : 0 < W) (ha : time a = now)
    (hended : ∀ c ∈ o, c.start + W ≤ now) (hroom : 0 < M) :
    Kept M W time (now :: ws) now ⟨some ⟨now, 1⟩, p ++ [a]⟩ := by
  have hbefore : ∀ b ∈ p, time b < now := fun b hb => h.before hended hb
  -- Whatever is open in a window that contains this instant is the new admission.
  have hnew : ∀ w ∈ now :: ws, now < w + W → ∀ b ∈ p, time b < w :=
    List.forall_mem_cons.mpr ⟨fun _ => hbefore, fun w hw hlive b => h.not_running hended hw hlive⟩
  have hbegun : ∀ w ∈ now :: ws, w ≤ now := List.forall_mem_cons.mpr ⟨Nat.le_refl now, h.begun⟩
  refine ⟨forall_mem_snoc h.past (Nat.le_of_eq ha), hbegun,
    forall_mem_snoc (fun b hb => ?_) ⟨now, List.mem_cons_self, by omega, by omega⟩, ?_, ?_, ?_⟩
  · obtain ⟨w, hw, hin⟩ := h.covered b hb
    exact ⟨w, List.mem_cons_of_mem now hw, hin⟩
  · intro c hc
    cases hc
    refine ⟨List.mem_cons_self, hbegun, hroom, ?_⟩
    have hzero : (p.countP fun b => now ≤ time b) = 0 := by
      rw [List.countP_eq_zero]
      intro b hb
      have := hbefore b hb
      simp only [decide_eq_true_eq]
      omega
    rw [List.countP_append, List.countP_singleton, hzero]
    split <;> simp
  · intro w hw
    rw [inWindow_append, ha]
    split
    · rename_i hin
      have hzero : inWindow W time w p = 0 := by
        rw [inWindow, List.countP_eq_zero]
        intro b hb
        have := hnew w hw hin.2 b hb
        simp only [Bool.and_eq_true, decide_eq_true_eq]
        omega
      omega
    · rcases List.mem_cons.mp hw with rfl | hw
      · omega
      · exact h.bounded w hw
  · intro w hw hlive
    refine forall_mem_snoc (fun b hb hle => ?_) fun _ => ⟨_, rfl, Nat.le_of_eq ha.symm⟩
    have := hnew w hw hlive b hb
    omega

theorem Kept.advance (h : Kept M W time ws now l) (hW : 0 < W)
    (hadvance : Advance M W time now l l') : ∃ ws', ws ⊆ ws' ∧ Kept M W time ws' now l' := by
  cases hadvance with
  | drop c p hended => exact ⟨ws, List.Subset.refl ws, h.drop hended⟩
  | count c p a ha hlive hroom => exact ⟨ws, List.Subset.refl ws, h.count ha hlive hroom⟩
  | restart o p a ha hended hroom =>
    exact ⟨now :: ws, List.subset_cons_self now ws, h.restart hW ha hended hroom⟩

section

variable [DecidableEq α]

theorem Kept.settled (h : Kept M W time ws now ⟨o, p⟩) (a : α) :
    Kept M W time ws now ⟨o, p.filter fun b => b ≠ a⟩ where
  past b hb := h.past b (List.mem_of_mem_filter hb)
  begun := h.begun
  covered b hb := h.covered b (List.mem_of_mem_filter hb)
  current c hc := by
    obtain ⟨hstart, hlatest, hroom, hcounted⟩ := h.current c hc
    refine ⟨hstart, hlatest, hroom, Nat.le_trans ?_ hcounted⟩
    rw [List.countP_filter]
    exact List.countP_mono_left fun b _ hb => (Bool.and_eq_true _ _ ▸ hb).1
  bounded w hw := by
    refine Nat.le_trans ?_ (h.bounded w hw)
    rw [inWindow, List.countP_filter]
    exact List.countP_mono_left fun b _ hb => (Bool.and_eq_true _ _ ▸ hb).1
  running w hw hlive b hb := h.running w hw hlive b (List.mem_of_mem_filter hb)

/-- One open admission less, if the settled one is counted. -/
theorem countP_filter_ne_lt {q : α → Bool} (ha : a ∈ p) (hq : q a = true) :
    (p.filter fun b => b ≠ a).countP q < p.countP q := by
  have hsplit := List.countP_eq_countP_filter_add p q fun b => decide (b ≠ a)
  have hpos : 0 < (p.filter fun b => !decide (b ≠ a)).countP q := by
    refine List.countP_pos_iff.mpr ⟨a, ?_, hq⟩
    simpa using ha
  omega

theorem Kept.giveBack (h : Kept M W time ws now ⟨some c, p⟩) (ha : a ∈ p)
    (hin : c.start ≤ time a) :
    Kept M W time ws now
      ⟨if c.count ≤ 1 then none else some { c with count := c.count - 1 },
        p.filter fun b => b ≠ a⟩ := by
  have hsettled := h.settled a
  obtain ⟨hstart, hlatest, hroom, hcounted⟩ := h.current c rfl
  have hless := Nat.lt_of_lt_of_le (countP_filter_ne_lt ha (decide_eq_true hin)) hcounted
  have hcounts : ∀ w ∈ ws, now < w + W → ∀ b ∈ p.filter fun b => b ≠ a, w ≤ time b →
      c.start ≤ time b := by
    intro w hw hlive b hb hle
    obtain ⟨d, hd, hle'⟩ := hsettled.running w hw hlive b hb hle
    cases hd
    exact hle'
  split_ifs with hone
  · refine ⟨hsettled.past, hsettled.begun, hsettled.covered, nofun, hsettled.bounded, ?_⟩
    intro w hw hlive b hb hle
    -- The counter said that `a` was the only one.
    have hpos : 0 < (p.filter fun b => b ≠ a).countP fun b => c.start ≤ time b :=
      List.countP_pos_iff.mpr ⟨b, hb, decide_eq_true (hcounts w hw hlive b hb hle)⟩
    omega
  · refine ⟨hsettled.past, hsettled.begun, hsettled.covered, ?_, hsettled.bounded,
      fun w hw hlive b hb hle => ⟨_, rfl, hcounts w hw hlive b hb hle⟩⟩
    intro d hd
    cases hd
    refine ⟨hstart, hlatest, Nat.le_trans (Nat.sub_le _ _) hroom, ?_⟩
    show ((p.filter fun b => b ≠ a).countP fun b => c.start ≤ time b) ≤ c.count - 1
    omega

theorem Kept.move (h : Kept M W time ws now l) (hW : 0 < W) (hmove : Move M W time now l l') :
    ∃ ws', ws ⊆ ws' ∧ Kept M W time ws' now l' := by
  cases hmove with
  | advance hadvance => exact h.advance hW hadvance
  | giveBack c p a ha hin => exact ⟨ws, List.Subset.refl ws, h.giveBack ha hin⟩
  | settle o p a => exact ⟨ws, List.Subset.refl ws, h.settled a⟩

end

/-- The invariant of the advances: the windows are apart, and the only one that may still run
is the current one. -/
structure Separate (W : Nat) (ws : List Nat) (now : Nat) (l : Ledger α) : Prop where
  apart : ∀ w ∈ ws, ∀ w' ∈ ws, w < w' → w + W ≤ w'
  ended : ∀ w ∈ ws, now < w + W → ∃ c ∈ l.counter, c.start = w

section

variable (h : Separate W ws now l)
include h

theorem Separate.mono (hnow : now ≤ now') : Separate W ws now' l where
  apart := h.apart
  ended w hw hlive := h.ended w hw (Nat.lt_of_le_of_lt hnow hlive)

/-- When the current window has ended, every window has. -/
theorem Separate.all_ended (hended : ∀ c ∈ l.counter, c.start + W ≤ now) {w : Nat} (hw : w ∈ ws) :
    w + W ≤ now := by
  by_contra hlive
  obtain ⟨c, hc, hstart⟩ := h.ended w hw (by omega)
  have := hended c hc
  omega

variable (hkept : Kept M W time ws now l)
include hkept

theorem Separate.advance (hW : 0 < W) (hadvance : Advance M W time now l l') :
    ∃ ws', ws ⊆ ws' ∧ Kept M W time ws' now l' ∧ Separate W ws' now l' := by
  cases hadvance with
  | drop c p hended =>
    refine ⟨ws, List.Subset.refl ws, hkept.drop hended, h.apart, fun w hw hlive => ?_⟩
    have := h.all_ended (fun d hd => by cases hd; exact hended) hw
    omega
  | count c p a ha hlive hroom =>
    refine ⟨ws, List.Subset.refl ws, hkept.count ha hlive hroom, h.apart, fun w hw hlive' => ?_⟩
    obtain ⟨d, hd, hstart⟩ := h.ended w hw hlive'
    cases hd
    exact ⟨_, rfl, hstart⟩
  | restart o p a ha hended hroom =>
    have hall : ∀ w ∈ ws, w + W ≤ now := fun w hw => h.all_ended hended hw
    have hkept' := hkept.restart hW ha hended hroom
    refine ⟨now :: ws, List.subset_cons_self now ws, hkept', ?_, ?_⟩
    · intro w hw w' hw' hlt
      have := hkept'.begun w' hw'
      rcases List.mem_cons.mp hw with rfl | hw
      · omega
      · rcases List.mem_cons.mp hw' with hnow | hw'
        · exact hnow ▸ hall w hw
        · exact h.apart w hw w' hw' hlt
    · intro w hw hlive
      rcases List.mem_cons.mp hw with rfl | hw
      · exact ⟨_, rfl, rfl⟩
      · have := hall w hw
        omega

/-- Windows that lie closer than `W` are one, so their admissions are at most `M`. -/
theorem Separate.countP_le (Q : Nat → Prop) [DecidablePred Q]
    (hclose : ∀ w w', Q w → Q w' → w' < w + W) :
    l.pending.countP (fun a => ∃ w ∈ ws, Q w ∧ w ≤ time a ∧ time a < w + W) ≤ M := by
  by_cases hex : ∃ w ∈ ws, Q w
  · obtain ⟨w, hw, hQ⟩ := hex
    refine Nat.le_trans (List.countP_mono_left fun a _ ha => ?_) (hkept.bounded w hw)
    obtain ⟨w', hw', hQ', hin⟩ := of_decide_eq_true ha
    have hle : ¬ w < w' := fun hlt => Nat.not_lt.mpr (h.apart w hw w' hw' hlt) (hclose w w' hQ hQ')
    have hge : ¬ w' < w := fun hlt => Nat.not_lt.mpr (h.apart w' hw' w hw hlt) (hclose w' w hQ' hQ)
    rw [show w = w' by omega, Bool.and_eq_true, decide_eq_true_eq, decide_eq_true_eq]
    exact hin
  · rw [List.countP_eq_zero.mpr fun a _ ha => ?_]
    · exact Nat.zero_le M
    · obtain ⟨w, hw, hQ, -⟩ := of_decide_eq_true ha
      exact hex ⟨w, hw, hQ⟩

/-- `W` instants in a row meet at most two windows. -/
theorem Separate.windowBound : WindowBound (2 * M) W (l.pending.map time) := by
  intro t
  rw [List.countP_map]
  -- The window that contains `t`, and the one that begins after it.
  have hfirst := h.countP_le hkept (fun w => w ≤ t ∧ t < w + W) fun w w' hQ hQ' => by omega
  have hsecond := h.countP_le hkept (fun w => t < w ∧ w < t + W) fun w w' hQ hQ' => by omega
  refine Nat.le_trans (countP_le_add fun a ha hin => ?_)
    (Nat.two_mul M ▸ Nat.add_le_add hfirst hsecond)
  rw [Function.comp_apply, Bool.and_eq_true, decide_eq_true_eq, decide_eq_true_eq] at hin
  obtain ⟨w, hw, hle, hlt⟩ := hkept.covered a ha
  by_cases hwt : w ≤ t
  · exact Or.inl (decide_eq_true ⟨w, hw, ⟨hwt, by omega⟩, hle, hlt⟩)
  · exact Or.inr (decide_eq_true ⟨w, hw, ⟨by omega, by omega⟩, hle, hlt⟩)

end

abbrev Steps (R : Nat → Ledger α → Ledger α → Prop) (now : Nat) : Ledger α → Ledger α → Prop :=
  Relation.ReflTransGen (R now)

structure Follows (R : Nat → Ledger α → Ledger α → Prop) (clock : κ → Nat)
    (L : List κ → Ledger α) (ks : List κ) : Prop where
  opened : L [] = ⟨none, []⟩
  ordered : (ks.map clock).Pairwise (· ≤ ·)
  steps : ∀ xs k, xs ++ [k] <+: ks → Steps R (clock k) (L xs) (L (xs ++ [k]))

variable {R : Nat → Ledger α → Ledger α → Prop} {clock : κ → Nat} {L : List κ → Ledger α}
  {ks : List κ}

theorem Follows.init {k : κ} (h : Follows R clock L (ks ++ [k])) :
    Follows R clock L ks ∧ (∀ k' ∈ ks, clock k' ≤ clock k) ∧
      Steps R (clock k) (L ks) (L (ks ++ [k])) := by
  have hordered := h.ordered
  rw [List.map_append, List.pairwise_append] at hordered
  refine ⟨⟨h.opened, hordered.1, fun xs k' hp => ?_⟩, fun k' hk' => ?_, h.steps ks k ?_⟩
  · exact h.steps xs k' (hp.trans (List.prefix_append ks [k]))
  · exact hordered.2.2 _ (List.mem_map_of_mem hk') _ List.mem_cons_self
  · exact List.prefix_rfl

/-- An invariant of ledger and windows that time and the steps keep holds after every run. -/
theorem Follows.invariant {I : List Nat → Nat → Ledger α → Prop} (h : Follows R clock L ks)
    (hstart : ∀ now, I [] now ⟨none, []⟩)
    (hmono : ∀ {ws now now' l}, I ws now l → now ≤ now' → I ws now' l)
    (hstep : ∀ {ws now l l'}, I ws now l → R now l l' → ∃ ws', ws ⊆ ws' ∧ I ws' now l')
    (hcurrent : ∀ {ws now l}, I ws now l → ∀ c ∈ l.counter, c.start ∈ ws)
    (now : Nat) (hnow : ∀ k ∈ ks, clock k ≤ now) :
    ∃ ws, I ws now (L ks) ∧ ∀ xs, xs <+: ks → ∀ c ∈ (L xs).counter, c.start ∈ ws := by
  have hsteps : ∀ {ws now l l'}, I ws now l → Steps R now l l' →
      ∃ ws', ws ⊆ ws' ∧ I ws' now l' := by
    intro ws now l l' hI hsteps
    induction hsteps with
    | refl => exact ⟨ws, List.Subset.refl ws, hI⟩
    | tail _ hmove ih =>
      obtain ⟨ws₁, hsub₁, h₁⟩ := ih
      obtain ⟨ws₂, hsub₂, h₂⟩ := hstep h₁ hmove
      exact ⟨ws₂, List.Subset.trans hsub₁ hsub₂, h₂⟩
  induction ks using List.reverseRecOn generalizing now with
  | nil =>
    refine ⟨[], ?_, fun xs hxs c hc => ?_⟩
    · rw [h.opened]
      exact hstart now
    · rw [List.prefix_nil.mp hxs, h.opened] at hc
      cases hc
  | append_singleton ks k ih =>
    obtain ⟨hinit, hle, hlast⟩ := h.init
    obtain ⟨ws, hI, hstarts⟩ := ih hinit (clock k) hle
    obtain ⟨ws', hsub, hI'⟩ := hsteps hI hlast
    have hk : clock k ≤ now := hnow k (List.mem_append_right ks List.mem_cons_self)
    refine ⟨ws', hmono hI' hk, fun xs hxs c hc => ?_⟩
    rcases List.prefix_concat_iff.mp hxs with rfl | hxs
    · exact hcurrent hI' c hc
    · exact hsub (hstarts xs hxs c hc)

theorem kept_empty (M W : Nat) (time : α → Nat) (now : Nat) : Kept M W time [] now ⟨none, []⟩ :=
  ⟨nofun, nofun, nofun, nofun, nofun, nofun⟩

/-- After every run of moves, no window holds more than `M` open admissions, and the current one no
more than it has counted. -/
theorem kept_of_moves [DecidableEq α] (hW : 0 < W) (h : Follows (Move M W time) clock L ks)
    (now : Nat) (hnow : ∀ k ∈ ks, clock k ≤ now) :
    ∃ ws, Kept M W time ws now (L ks) ∧ ∀ xs, xs <+: ks → ∀ c ∈ (L xs).counter, c.start ∈ ws :=
  h.invariant (kept_empty M W time) Kept.mono (fun hkept hmove => hkept.move hW hmove)
    (fun hkept c hc => (hkept.current c hc).1) now hnow

theorem separate_of_advances (hW : 0 < W) (h : Follows (Advance M W time) clock L ks)
    (now : Nat) (hnow : ∀ k ∈ ks, clock k ≤ now) :
    ∃ ws, (Kept M W time ws now (L ks) ∧ Separate W ws now (L ks)) ∧
      ∀ xs, xs <+: ks → ∀ c ∈ (L xs).counter, c.start ∈ ws :=
  h.invariant (I := fun ws now l => Kept M W time ws now l ∧ Separate W ws now l)
    (fun now => ⟨kept_empty M W time now, nofun, nofun⟩)
    (fun hI hle => ⟨hI.1.mono hle, hI.2.mono hle⟩)
    (fun hI hadvance => hI.2.advance hI.1 hW hadvance)
    (fun hI c hc => (hI.1.current c hc).1) now hnow

end FixedWindow
end Lib
