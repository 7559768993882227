/-
Chains of nodes that name their predecessor by its hash.

A chain is listed newest first. Where the hash of a node determines what it says, and with that the
hash it names, a chain is determined by the hash of its newest node.
-/
import Mathlib.Data.List.Chain
import Mathlib.Data.List.Nodup
import Mathlib.Data.List.Perm.Subperm

namespace Lib
namespace Chain

variable {α β H : Type}

section

variable {prev : α → Option H} {hash : α → H} {f : α → β}

variable (prev hash) in
/-- The first node names none, every other the one before it. -/
def Linked : List α → Prop
  | [] => True
  | a :: l => prev a = l.head?.map hash ∧ Linked l

theorem Linked.suffix {A B : List α} (h : Linked prev hash A) (hB : B <:+ A) :
    Linked prev hash B := by
  induction A with
  | nil =>
    rw [List.suffix_nil.mp hB]
    trivial
  | cons a l ih =>
    rcases List.suffix_cons_iff.mp hB with rfl | hl
    · exact h
    · exact ih h.2 hl

/-- A node that is not the newest is named by another one. -/
theorem Linked.named {a b : α} {l : List α} (h : Linked prev hash (a :: l)) (hb : b ∈ l) :
    ∃ c ∈ a :: l, prev c = some (hash b) := by
  induction l generalizing a with
  | nil => cases hb
  | cons d l ih =>
    rcases List.mem_cons.mp hb with rfl | hb
    · exact ⟨a, List.mem_cons_self, h.1⟩
    · obtain ⟨c, hc, hprev⟩ := ih h.2 hb
      exact ⟨c, List.mem_cons_of_mem a hc, hprev⟩

variable (hprev : ∀ a b, f a = f b → prev a = prev b)
include hprev

/-- Two chains with the same newest hash say the same. -/
theorem Linked.map_eq {A B : List α} (hA : Linked prev hash A) (hB : Linked prev hash B)
    (hf : ∀ a ∈ A, ∀ b ∈ B, hash a = hash b → f a = f b)
    (hlast : A.head?.map hash = B.head?.map hash) : A.map f = B.map f := by
  induction A generalizing B with
  | nil =>
    cases B with
    | nil => rfl
    | cons => cases hlast
  | cons a A ih =>
    cases B with
    | nil => cases hlast
    | cons b B =>
      have hab : f a = f b := hf a List.mem_cons_self b List.mem_cons_self (Option.some.inj hlast)
      have hheads : A.head?.map hash = B.head?.map hash := by
        rw [← hA.1, ← hB.1]
        exact hprev a b hab
      have htails := ih hA.2 hB.2
        (fun x hx y hy => hf x (List.mem_cons_of_mem a hx) y (List.mem_cons_of_mem b hy)) hheads
      rw [List.map_cons, List.map_cons, hab, htails]

variable {A : List α} (hf : ∀ a ∈ A, ∀ b ∈ A, hash a = hash b → f a = f b)
include hf

theorem Linked.prev_ne (h : Linked prev hash A) {b : α} (hb : b ∈ A) :
    prev b ≠ A.head?.map hash := by
  intro hnewest
  obtain ⟨pre, post, rfl⟩ := List.append_of_mem hb
  have hsuffix : b :: post <:+ pre ++ b :: post := List.suffix_append _ _
  have hpost : post <:+ pre ++ b :: post := (List.suffix_cons b post).trans hsuffix
  -- what comes before `b` would be as long as the whole chain
  have hsame := Linked.map_eq hprev (h.suffix hpost) h
    (fun x hx y hy => hf x (hpost.mem hx) y hy) ((h.suffix hsuffix).1.symm.trans hnewest)
  have hlength := congrArg List.length hsame
  simp only [List.length_map, List.length_append, List.length_cons] at hlength
  omega

theorem Linked.nodup_prev (h : Linked prev hash A) : (A.map prev).Nodup := by
  induction A with
  | nil => exact List.nodup_nil
  | cons a l ih =>
    have hfl : ∀ x ∈ l, ∀ y ∈ l, hash x = hash y → f x = f y := fun x hx y hy =>
      hf x (List.mem_cons_of_mem a hx) y (List.mem_cons_of_mem a hy)
    refine List.nodup_cons.mpr ⟨fun hmem => ?_, ih hfl h.2⟩
    obtain ⟨b, hb, heq⟩ := List.mem_map.mp hmem
    exact Linked.prev_ne hprev hfl h.2 hb (heq.trans h.1)

theorem Linked.head?_eq {B : List α} (hA : Linked prev hash A) (hB : Linked prev hash B)
    (hmem : ∀ a, a ∈ A ↔ a ∈ B) : A.head? = B.head? := by
  cases A with
  | nil =>
    cases B with
    | nil => rfl
    | cons b B => cases (hmem b).mpr List.mem_cons_self
  | cons a A =>
    cases B with
    | nil => cases (hmem a).mp List.mem_cons_self
    | cons b B =>
      rcases List.mem_cons.mp ((hmem a).mp List.mem_cons_self) with rfl | hold
      · rfl
      · obtain ⟨c, hc, hnames⟩ := hB.named hold
        exact absurd hnames (Linked.prev_ne hprev hf hA ((hmem c).mpr hc))

theorem Linked.subperm {t : List α} (h : Linked prev hash t) (ht : ∀ a ∈ t, a ∈ A) :
    t.Subperm A := by
  have hnodup := Linked.nodup_prev hprev (fun a ha b hb => hf a (ht a ha) b (ht b hb)) h
  exact List.subperm_of_subset (List.Nodup.of_map _ hnodup) ht

end

variable (next : α → Option α)

/-- Follow `next` and count; nothing if the fuel runs out. -/
def walk : Nat → α → Nat → Option (α × Nat)
  | 0, _, _ => none
  | fuel + 1, a, n =>
    match next a with
    | none => some (a, n)
    | some b => walk fuel b (n + 1)

variable {next} {fuel n : Nat}

/-- What a walk has been through: its nodes, newest first, and their number. -/
theorem of_walk {I : List α → Prop}
    (hstep : ∀ a b t, I (a :: t) → next a = some b → I (b :: a :: t)) {a : α}
    {t : List α} (hI : I (a :: t)) (hn : n = (a :: t).length) :
    (∀ b m, walk next fuel a n = some (b, m) →
      next b = none ∧ ∃ t', I (b :: t') ∧ m = (b :: t').length) ∧
    (walk next fuel a n = none → ∃ t', I t' ∧ fuel + n ≤ t'.length) := by
  induction fuel generalizing a n t with
  | zero =>
    refine ⟨fun b m h => ?_, fun _ => ⟨a :: t, hI, by omega⟩⟩
    cases h
  | succ fuel ih =>
    rw [walk]
    cases hnext : next a with
    | none =>
      refine ⟨fun b m h => ?_, fun h => by cases h⟩
      cases h
      exact ⟨hnext, t, hI, hn⟩
    | some b =>
      obtain ⟨hsome, hnone⟩ := ih (hstep a b t hI hnext) (congrArg Nat.succ hn)
      refine ⟨hsome, fun h => ?_⟩
      obtain ⟨t', hI', hlength⟩ := hnone h
      exact ⟨t', hI', by omega⟩

/-- A node that is its own successor is never left. -/
theorem walk_self {a : α} (h : next a = some a) : walk next fuel a n = none := by
  induction fuel generalizing n with
  | zero => rfl
  | succ fuel ih =>
    rw [walk, h]
    exact ih

section

open Relation

variable (next) in
def Follows (a b : α) : Prop := next a = some b

theorem walk_not_cyclic {a : α} {r : α × Nat} (h : walk next fuel a n = some r) :
    ¬TransGen (Follows next) a a := by
  induction fuel generalizing a n with
  | zero => cases h
  | succ fuel ih =>
    intro hcycle
    obtain ⟨b, hab, hba⟩ := TransGen.head'_iff.mp hcycle
    rw [walk, show next a = some b from hab] at h
    exact ih h (TransGen.tail' hba hab)

theorem walk_reached {a b : α} {r : α × Nat} (h : walk next fuel a n = some r)
    (hab : ReflTransGen (Follows next) a b) : ∃ fuel n, walk next fuel b n = some r := by
  induction hab with
  | refl => exact ⟨fuel, n, h⟩
  | tail _ hstep ih =>
    obtain ⟨fuel, n, h⟩ := ih
    cases fuel with
    | zero => cases h
    | succ fuel =>
      rw [walk, show next _ = some _ from hstep] at h
      exact ⟨fuel, n + 1, h⟩

variable (next) in
/-- Nodes that a walk from `first` has been through, newest first. -/
def Visited (first : α) (t : List α) : Prop :=
  (∀ a ∈ t, ReflTransGen (Follows next) first a) ∧ t.Pairwise fun b a => TransGen (Follows next) a b

theorem Visited.cons {first a b : α} {t : List α} (h : Visited next first (a :: t))
    (hstep : next a = some b) : Visited next first (b :: a :: t) := by
  have hreached := h.1 a List.mem_cons_self
  refine ⟨List.forall_mem_cons.mpr ⟨hreached.tail hstep, h.1⟩,
    List.pairwise_cons.mpr ⟨List.forall_mem_cons.mpr ⟨.single hstep, fun x hx => ?_⟩, h.2⟩⟩
  exact ((List.pairwise_cons.mp h.2).1 x hx).tail hstep

/-- A walk through finitely many nodes, where the key of a node tells its successor, ends exactly if
the keys of the nodes it comes to are distinct. -/
theorem walk_ends_iff {key : α → β} (hkey : ∀ a b, key a = key b → next a = next b)
    {A : List α} {first : α} (hA : ∀ a ∈ A, ∀ b, next a = some b → b ∈ A) (hfirst : first ∈ A) :
    (∃ fuel r, walk next fuel first 1 = some r) ↔
      ∀ a b, ReflTransGen (Follows next) first a → TransGen (Follows next) a b → key a ≠ key b := by
  constructor
  · rintro ⟨fuel, r, h⟩ a b hreached hab hsame
    obtain ⟨c, hac, hcb⟩ := TransGen.head'_iff.mp hab
    obtain ⟨fuel, n, h⟩ := walk_reached h (hreached.tail hac)
    exact walk_not_cyclic h (TransGen.tail' hcb ((hkey a b hsame).symm.trans hac))
  · intro hdistinct
    cases hwalk : walk next A.length first 1 with
    | some r => exact ⟨_, r, hwalk⟩
    | none =>
      have hstart : Visited next first [first] :=
        ⟨List.forall_mem_singleton.mpr .refl, List.pairwise_singleton _ _⟩
      obtain ⟨t, ht, hlength⟩ := (of_walk (n := 1) (fun _ _ _ => Visited.cons) hstart rfl).2 hwalk
      -- every node that was visited is new, and there are not so many
      have hnodup : t.Nodup := ht.2.imp_of_mem fun _ ha hab heq =>
        hdistinct _ _ (ht.1 _ ha) hab (congrArg key heq.symm)
      have hmem : ∀ a, ReflTransGen (Follows next) first a → a ∈ A := fun a hreached => by
        induction hreached with
        | refl => exact hfirst
        | tail _ hstep ih => exact hA _ ih _ hstep
      have hle := (List.subperm_of_subset hnodup fun a ha => hmem a (ht.1 a ha)).length_le
      omega

end

variable {prev : α → Option H} {hash : α → H} {A : List α} {first : α}
  (hnext : ∀ a ∈ A, ∀ b, next a = some b → b ∈ A ∧ prev b = some (hash a))
  (hfirst : first ∈ A ∧ prev first = none)
include hnext hfirst

/-- A walk along the names, from a node that names none, goes through a chain. -/
theorem linked_of_walk :
    (∀ last n, walk next fuel first 1 = some (last, n) → next last = none ∧
      ∃ t, (Linked prev hash (last :: t) ∧ ∀ a ∈ last :: t, a ∈ A) ∧ n = (last :: t).length) ∧
    (walk next fuel first 1 = none →
      ∃ t, (Linked prev hash t ∧ ∀ a ∈ t, a ∈ A) ∧ fuel + 1 ≤ t.length) := by
  refine of_walk (I := fun t => Linked prev hash t ∧ ∀ a ∈ t, a ∈ A) (fun a b t ht hstep => ?_)
    (t := []) ⟨⟨hfirst.2, trivial⟩, List.forall_mem_singleton.mpr hfirst.1⟩ rfl
  obtain ⟨hb, hnames⟩ := hnext a (ht.2 a List.mem_cons_self) b hstep
  exact ⟨⟨hnames, ht.1⟩, List.forall_mem_cons.mpr ⟨hb, ht.2⟩⟩

/-- Where hashes tell the nodes apart, the walk meets no node twice and ends. -/
theorem walk_ends {f : α → β} (hprev : ∀ a b, f a = f b → prev a = prev b)
    (hf : ∀ a ∈ A, ∀ b ∈ A, hash a = hash b → f a = f b) (hfuel : A.length ≤ fuel) :
    ∃ r, walk next fuel first 1 = some r := by
  cases hwalk : walk next fuel first 1 with
  | some r => exact ⟨r, rfl⟩
  | none =>
    obtain ⟨t, ⟨hlinked, ht⟩, hlength⟩ := (linked_of_walk hnext hfirst).2 hwalk
    have hle := (Linked.subperm hprev hf hlinked ht).length_le
    omega

end Chain
end Lib
