/-
Computations that may fail.

A chain of checks is a chain of binds in `Except`. `bind_eq_ok` takes a successful chain apart one
check at a time, and `Ensures` follows a chain to what it ends with.
-/
import Mathlib.Algebra.BigOperators.Group.List.Basic
import Mathlib.Algebra.GroupWithZero.Nat

namespace Lib

variable {ε α β : Type} {a b : α} {e : ε} {l : List α} {x : Except ε α} {f : α → Except ε β}
  {c : Prop}

theorem bind_eq_ok {b : β} : x >>= f = .ok b ↔ ∃ a, x = .ok a ∧ f a = .ok b := by
  cases x with
  | error =>
    constructor
    · intro h
      cases h
    · rintro ⟨a, h, -⟩
      cases h
  | ok a =>
    constructor
    · intro h
      exact ⟨a, rfl, h⟩
    · rintro ⟨a', h, hf⟩
      cases h
      exact hf

theorem pure_eq_ok : (pure a : Except ε α) = .ok b ↔ a = b := by
  constructor
  · intro h
    cases h
    rfl
  · rintro rfl
    rfl

theorem throw_ne_ok : (throw e : Except ε α) ≠ .ok b := by
  intro h
  cases h

/-- A check that passes is one whose condition for failing does not hold. -/
theorem guard_eq_ok [Decidable c] : (if c then throw e else x) = .ok b ↔ ¬c ∧ x = .ok b := by
  by_cases h : c
  · rw [if_pos h]
    exact ⟨fun hx => absurd hx throw_ne_ok, fun hx => absurd h hx.1⟩
  · rw [if_neg h]
    exact ⟨fun hx => ⟨h, hx⟩, fun hx => hx.2⟩

structure Ensures (Q : α → Prop) (x : Except ε α) : Prop where
  of_ok : ∀ a, x = .ok a → Q a

section

variable {Q : β → Prop} {y : Except ε β}

theorem ensures_pure {b : β} (h : Q b) : Ensures Q (pure b : Except ε β) :=
  ⟨fun _ hb => pure_eq_ok.mp hb ▸ h⟩

theorem ensures_bind (h : ∀ a, x = .ok a → Ensures Q (f a)) : Ensures Q (x >>= f) := by
  refine ⟨fun b hb => ?_⟩
  obtain ⟨a, ha, hf⟩ := bind_eq_ok.mp hb
  exact (h a ha).of_ok b hf

theorem ensures_guard [Decidable c] (h : ¬c → Ensures Q y) : Ensures Q (if c then throw e else y) :=
  ⟨fun b hb => (h (guard_eq_ok.mp hb).1).of_ok b (guard_eq_ok.mp hb).2⟩

end

def ensure (c : Prop) [Decidable c] (e : ε) : Except ε Unit := if c then .ok () else .error e

@[simp] theorem ensure_eq_ok [Decidable c] {a : Unit} : ensure c e = .ok a ↔ c := by
  rw [ensure]
  split_ifs with h
  · exact ⟨fun _ => h, fun _ => rfl⟩
  · exact ⟨nofun, fun hc => absurd hc h⟩

def okOr (x : Option α) (e : ε) : Except ε α :=
  match x with
  | some a => .ok a
  | none => .error e

@[simp] theorem okOr_eq_ok {x : Option α} : okOr x e = .ok a ↔ x = some a := by
  cases x with
  | none => exact ⟨nofun, nofun⟩
  | some => rw [okOr, Except.ok.injEq, Option.some.injEq]

/-- A counting loop whose every iteration passes its checks. -/
theorem foldlM_eq_ok {step : Nat → α → Except ε Nat} {f : α → Nat} {n : Nat}
    (h : ∀ a ∈ l, ∀ m, step m a = .ok (m + f a)) : l.foldlM step n = .ok (n + (l.map f).sum) := by
  induction l generalizing n with
  | nil => rfl
  | cons a l ih =>
    rw [List.foldlM_cons, h a List.mem_cons_self n]
    show l.foldlM step (n + f a) = _
    rw [ih (fun b hb => h b (List.mem_cons_of_mem a hb)), List.map_cons, List.sum_cons,
      Nat.add_assoc]

theorem foldlM_isOk {step : β → α → Except ε β}
    (h : ∀ a ∈ l, ∀ b, ∃ b', step b a = .ok b') (b : β) :
    ∃ b', l.foldlM step b = .ok b' := by
  induction l generalizing b with
  | nil => exact ⟨b, rfl⟩
  | cons a l ih =>
    obtain ⟨b', hb'⟩ := h a List.mem_cons_self b
    rw [List.foldlM_cons, hb']
    exact ih (fun c hc => h c (List.mem_cons_of_mem a hc)) b'

theorem forM_eq_ok {check : α → Except ε Unit} {u : Unit} :
    forM l check = .ok u ↔ ∀ a ∈ l, check a = .ok () := by
  induction l with
  | nil => exact ⟨fun _ => List.forall_mem_nil _, fun _ => rfl⟩
  | cons a l ih =>
    rw [List.forM_cons, bind_eq_ok, List.forall_mem_cons, ← ih]
    constructor
    · rintro ⟨⟨⟩, ha, hl⟩
      exact ⟨ha, hl⟩
    · exact fun h => ⟨(), h⟩

theorem mem_of_mapM_eq_ok {l' : List β} (h : l.mapM f = .ok l') :
    (∀ a ∈ l, ∃ b ∈ l', f a = .ok b) ∧ ∀ b ∈ l', ∃ a ∈ l, f a = .ok b := by
  induction l generalizing l' with
  | nil =>
    cases h
    exact ⟨List.forall_mem_nil _, List.forall_mem_nil _⟩
  | cons x l ih =>
    simp only [List.mapM_cons, bind_eq_ok, pure_eq_ok] at h
    obtain ⟨y, hy, ys, hys, rfl⟩ := h
    obtain ⟨hto, hof⟩ := ih hys
    simp only [List.mem_cons, exists_eq_or_imp, forall_eq_or_imp]
    exact ⟨⟨Or.inl hy, fun a ha => Or.inr (hto a ha)⟩, Or.inl hy, fun b hb => Or.inr (hof b hb)⟩

/-- The keys of a list are new and distinct if that of its head is new, and the rest has neither
that nor one that was seen. -/
theorem nodup_cons_new {κ : Type} {key : α → κ} {seen : List κ} :
    ((a :: l).map key).Nodup ∧ (∀ b ∈ a :: l, key b ∉ seen) ↔
      key a ∉ seen ∧ (l.map key).Nodup ∧ ∀ b ∈ l, key b ∉ key a :: seen := by
  rw [List.map_cons, List.nodup_cons, List.forall_mem_cons]
  simp only [List.mem_cons, not_or, List.mem_map, not_exists, not_and]
  constructor
  · rintro ⟨⟨hne, hnodup⟩, hnew, hseen⟩
    exact ⟨hnew, hnodup, fun b hb => ⟨hne b hb, hseen b hb⟩⟩
  · rintro ⟨hnew, hnodup, hseen⟩
    exact ⟨⟨fun b hb => (hseen b hb).1, hnodup⟩, hnew, fun b hb => (hseen b hb).2⟩

/-- A loop that refuses a key it has seen passes if each element is valid and no two of them, nor
one of them and the start, share a key. -/
theorem foldlM_distinct {κ : Type} {f : List κ → α → Except ε (List κ)} {key : α → κ}
    {valid : α → Prop} (hf : ∀ seen a seen', f seen a = .ok seen' ↔
      valid a ∧ key a ∉ seen ∧ seen' = key a :: seen) {seen : List κ} :
    (∃ seen', l.foldlM f seen = .ok seen') ↔
      (∀ a ∈ l, valid a) ∧ (l.map key).Nodup ∧ ∀ a ∈ l, key a ∉ seen := by
  induction l generalizing seen with
  | nil =>
    exact ⟨fun _ => ⟨List.forall_mem_nil _, List.nodup_nil, List.forall_mem_nil _⟩,
      fun _ => ⟨seen, rfl⟩⟩
  | cons a l ih =>
    have hcons : (∃ seen', (a :: l).foldlM f seen = .ok seen') ↔
        (valid a ∧ key a ∉ seen) ∧ ∃ seen', l.foldlM f (key a :: seen) = .ok seen' := by
      simp only [List.foldlM_cons, bind_eq_ok, hf]
      constructor
      · rintro ⟨seen', next, ⟨hvalid, hnew, rfl⟩, hrest⟩
        exact ⟨⟨hvalid, hnew⟩, seen', hrest⟩
      · rintro ⟨⟨hvalid, hnew⟩, seen', hrest⟩
        exact ⟨seen', _, ⟨hvalid, hnew, rfl⟩, hrest⟩
    rw [hcons, ih, List.forall_mem_cons, nodup_cons_new]
    exact and_and_and_comm

end Lib
