/-
Breadth-first search to a bounded depth.

`popStep` looks for a goal and marks a node when it takes it from the queue, `pushStep` collects
every node it meets and marks it when it puts it into the queue. In both the queue holds at most two
consecutive depths, in order, so that a node is first taken at its least depth.
-/
import Qid.Lib.Graph
import Qid.Lib.Loop

namespace Lib
namespace Bfs

variable {α : Type} {x : α} {d : Nat} {queue : List (α × Nat)} {dep : α → Nat} {ε : Type}
  {cost : List α → Nat} {ys : List α} {fuel : Nat}

def Edge (succ : α → List α) (a b : α) : Prop := b ∈ succ a

def Levels (p q : α × Nat) : Prop := p.2 ≤ q.2 ∧ q.2 ≤ p.2 + 1

/-- `dep` records the depth at which a node was visited. -/
structure Inv (succ : α → List α) (bound : Nat) (a : α) (dep : α → Nat) (visited : List α)
    (queue : List (α × Nat)) : Prop where
  root : (a ∈ visited ∧ dep a = 0) ∨ (a, 0) ∈ queue
  sound : ∀ p ∈ queue, Walk (Edge succ) a p.2 p.1
  levels : queue.Pairwise Levels
  behind : ∀ x ∈ visited, ∀ p ∈ queue, dep x ≤ p.2
  closed : ∀ x ∈ visited, dep x < bound → ∀ y ∈ succ x,
    (y ∈ visited ∧ dep y ≤ dep x + 1) ∨ ∃ d, d ≤ dep x + 1 ∧ (y, d) ∈ queue

variable {bound : Nat}

section

variable {succ : α → List α} {a : α} {visited : List α}

theorem inv_start : Inv succ bound a (fun _ => 0) [] [(a, 0)] where
  root := Or.inr (List.mem_singleton_self _)
  sound := fun p hp => by
    rw [List.mem_singleton.mp hp]
    exact Walk.nil
  levels := List.pairwise_singleton _ _
  behind := fun x hx => nomatch hx
  closed := fun x hx => nomatch hx

section

variable (h : Inv succ bound a dep visited ((x, d) :: queue))
include h

/-- An entry may be dropped when it is too deep, or when its node was visited. -/
theorem Inv.drop (hx : bound < d ∨ x ∈ visited) : Inv succ bound a dep visited queue := by
  -- An entry that still counts for `y` is another one, or `y` is visited by now.
  have hkeep : ∀ y e, e ≤ bound → (y, e) ∈ (x, d) :: queue →
      (y ∈ visited ∧ dep y ≤ e) ∨ (y, e) ∈ queue := by
    intro y e he hmem
    rcases List.mem_cons.mp hmem with heq | hmem
    · rw [Prod.mk.injEq] at heq
      obtain ⟨rfl, rfl⟩ := heq
      rcases hx with hx | hx
      · omega
      · exact Or.inl ⟨hx, h.behind y hx _ List.mem_cons_self⟩
    · exact Or.inr hmem
  refine ⟨?_, ?_, ?_, ?_, ?_⟩
  · rcases h.root with hroot | hroot
    · exact Or.inl hroot
    · rcases hkeep a 0 (Nat.zero_le _) hroot with ⟨hv, hd⟩ | hq
      · exact Or.inl ⟨hv, Nat.le_zero.mp hd⟩
      · exact Or.inr hq
  · exact fun p hp => h.sound p (List.mem_cons_of_mem _ hp)
  · exact (List.pairwise_cons.mp h.levels).2
  · exact fun y hy p hp => h.behind y hy p (List.mem_cons_of_mem _ hp)
  · intro v hv hlt y hy
    rcases h.closed v hv hlt y hy with hyv | ⟨e, he, hmem⟩
    · exact Or.inl hyv
    · rcases hkeep y e (by omega) hmem with ⟨hyv, hdep⟩ | hq
      · exact Or.inl ⟨hyv, Nat.le_trans hdep he⟩
      · exact Or.inr ⟨e, he, hq⟩

/-- A visited node records its depth, which no visited node exceeds. Its successors that are put
into the queue are the ones that are not visited or there. -/
theorem Inv.visit [DecidableEq α] {visited' : List α} (hys : ∀ y ∈ ys, y ∈ succ x)
    (hvisited : ∀ y, y ∈ visited' ↔ y = x ∨ y ∈ visited)
    (hnew : d < bound → ∀ y ∈ succ x, y ∈ ys ∨ y ∈ visited ∨ ∃ e, (y, e) ∈ (x, d) :: queue) :
    Inv succ bound a (fun y => if y ∈ visited then dep y else d) visited'
      (queue ++ ys.map fun y => (y, d + 1)) := by
  obtain ⟨hhead, hlevels⟩ := List.pairwise_cons.mp h.levels
  have hold : ∀ y ∈ visited, (if y ∈ visited then dep y else d) = dep y := fun y hy => if_pos hy
  have hle : ∀ y, (if y ∈ visited then dep y else d) ≤ d := by
    intro y
    split
    · rename_i hy
      exact h.behind y hy _ List.mem_cons_self
    · exact Nat.le_refl d
  have hpush : ∀ y e, (y, e) ∈ (x, d) :: queue →
      (y ∈ visited' ∧ d = e) ∨ (y, e) ∈ queue ++ ys.map fun y => (y, d + 1) := by
    intro y e hmem
    rcases List.mem_cons.mp hmem with heq | hmem
    · rw [Prod.mk.injEq] at heq
      exact Or.inl ⟨(hvisited y).mpr (Or.inl heq.1), heq.2.symm⟩
    · exact Or.inr (List.mem_append_left _ hmem)
  refine ⟨?_, ?_, ?_, ?_, ?_⟩
  · rcases h.root with ⟨hroot, hdep⟩ | hroot
    · exact Or.inl ⟨(hvisited a).mpr (Or.inr hroot), (hold a hroot).trans hdep⟩
    · rcases hpush a 0 hroot with ⟨hv, hd⟩ | hq
      · exact Or.inl ⟨hv, Nat.le_zero.mp (hd ▸ hle a)⟩
      · exact Or.inr hq
  · intro p hp
    rcases List.mem_append.mp hp with hp | hp
    · exact h.sound p (List.mem_cons_of_mem _ hp)
    · obtain ⟨y, hy, rfl⟩ := List.mem_map.mp hp
      exact (h.sound (x, d) List.mem_cons_self).snoc (hys y hy)
  · -- entries one level below the first one may be put at the end
    rw [List.pairwise_append, List.pairwise_map]
    refine ⟨hlevels, List.pairwise_of_forall fun y z => ⟨Nat.le_refl _, Nat.le_succ _⟩, ?_⟩
    intro p hp q hq
    obtain ⟨y, -, rfl⟩ := List.mem_map.mp hq
    exact ⟨(hhead p hp).2, Nat.succ_le_succ (hhead p hp).1⟩
  · intro y _ p hp
    rcases List.mem_append.mp hp with hp | hp
    · exact Nat.le_trans (hle y) (hhead p hp).1
    · obtain ⟨z, -, rfl⟩ := List.mem_map.mp hp
      exact Nat.le_succ_of_le (hle y)
  · intro v hv hlt y hy
    by_cases hvold : v ∈ visited
    · rw [hold v hvold] at hlt ⊢
      rcases h.closed v hvold hlt y hy with ⟨hyv, hdep⟩ | ⟨e, he, hmem⟩
      · exact Or.inl ⟨(hvisited y).mpr (Or.inr hyv), (hold y hyv).symm ▸ hdep⟩
      · rcases hpush y e hmem with ⟨hyv, rfl⟩ | hq
        · exact Or.inl ⟨hyv, Nat.le_trans (hle y) he⟩
        · exact Or.inr ⟨e, he, hq⟩
    · obtain rfl := ((hvisited v).mp hv).resolve_right hvold
      rw [if_neg hvold] at hlt ⊢
      rcases hnew hlt y hy with hy | hy | ⟨e, hmem⟩
      · exact Or.inr ⟨d + 1, Nat.le_refl _, List.mem_append_right _ (List.mem_map_of_mem hy)⟩
      · exact Or.inl ⟨(hvisited y).mpr (Or.inr hy), Nat.le_succ_of_le (hle y)⟩
      · rcases hpush y e hmem with ⟨hyv, -⟩ | hq
        · exact Or.inl ⟨hyv, Nat.le_succ_of_le (hle y)⟩
        · refine Or.inr ⟨e, ?_, hq⟩
          rcases List.mem_cons.mp hmem with heq | hmem
          · exact Nat.le_succ_of_le (Nat.le_of_eq (Prod.mk.inj heq).2)
          · exact (hhead _ hmem).2

end

/-- When the queue is empty every node within the bound was visited. -/
theorem Inv.visited_of_walk (h : Inv succ bound a dep visited []) {n : Nat}
    (hw : Walk (Edge succ) a n x) (hn : n ≤ bound) : x ∈ visited ∧ dep x ≤ n := by
  induction hw with
  | nil =>
    rcases h.root with ⟨hroot, hdep⟩ | hroot
    · exact ⟨hroot, Nat.le_of_eq hdep⟩
    · cases hroot
  | @snoc n b c hw he ih =>
    obtain ⟨hb, hdep⟩ := ih (by omega)
    rcases h.closed b hb (by omega) c he with ⟨hc, hdc⟩ | ⟨e, -, hmem⟩
    · exact ⟨hc, by omega⟩
    · cases hmem

end

structure PopState (α : Type) where
  visited : List α
  queue : List (α × Nat)

/-- Take an entry, drop it if it is too deep or already visited, stop at a goal and otherwise put
its successors at the end. -/
def popStep [DecidableEq α] (succ : α → List α) (goal : α → Bool) (bound : Nat) (s : PopState α) :
    Iter (PopState α) Bool :=
  match s.queue with
  | [] => .done false
  | (x, d) :: queue =>
    if d > bound then .next { s with queue := queue }
    else if x ∈ s.visited then .next { s with queue := queue }
    else if goal x then .done true
    else .next
      { visited := x :: s.visited, queue := queue ++ (succ x).map fun y => (y, d + 1) }

section

variable {succ : α → List α} {goal : α → Bool} {a : α}
  {step : PopState α → Except ε (Iter (PopState α) Bool)}

/-- The search ends, and finds a goal exactly when there is one within the bound. `cost` bounds the
entries that unvisited nodes can still add. -/
theorem popSearch [DecidableEq α] (hstep : ∀ s, step s = .ok (popStep succ goal bound s))
    (hcost : ∀ visited x, x ∉ visited →
      cost (x :: visited) + (succ x).length ≤ cost visited) (hfuel : cost [] + 1 < fuel) :
    ∃ b, whileLoop step fuel { visited := [], queue := [(a, 0)] } = some (.ok b) ∧
      (b = true ↔ ∃ x, Within (Edge succ) bound a x ∧ goal x = true) := by
  refine whileLoop_rule
    (I := fun s => (∃ dep, Inv succ bound a dep s.visited s.queue) ∧
      ∀ x ∈ s.visited, goal x = false)
    (m := fun s => s.queue.length + cost s.visited) ?_ ⟨⟨_, inv_start⟩, fun x hx => nomatch hx⟩ ?_
  · rintro ⟨visited, queue⟩ ⟨⟨dep, h⟩, hmissed⟩
    rw [hstep]
    cases queue with
    | nil =>
      refine Or.inl ⟨false, rfl, ?_⟩
      constructor
      · intro hb
        cases hb
      · rintro ⟨x, ⟨n, hn, hw⟩, hgoal⟩
        rw [hmissed x (h.visited_of_walk hw hn).1] at hgoal
        exact hgoal
    | cons p =>
      obtain ⟨x, d⟩ := p
      dsimp only [popStep]
      by_cases hd : d > bound
      · rw [if_pos hd]
        refine Or.inr ⟨_, rfl, ⟨⟨dep, h.drop (Or.inl hd)⟩, hmissed⟩, ?_⟩
        simp
      · rw [if_neg hd]
        by_cases hx : x ∈ visited
        · rw [if_pos hx]
          refine Or.inr ⟨_, rfl, ⟨⟨dep, h.drop (Or.inr hx)⟩, hmissed⟩, ?_⟩
          simp
        · rw [if_neg hx]
          cases hg : goal x with
          | true =>
            refine Or.inl ⟨true, rfl, fun _ => ⟨x, ⟨d, ?_, ?_⟩, hg⟩, fun _ => rfl⟩
            · omega
            · exact h.sound (x, d) List.mem_cons_self
          | false =>
            refine Or.inr ⟨_, rfl, ⟨⟨_, h.visit (fun _ hy => hy) (fun _ => List.mem_cons)
              fun _ _ => Or.inl⟩, List.forall_mem_cons.mpr ⟨hg, hmissed⟩⟩, ?_⟩
            have hc := hcost visited x hx
            simp only [List.length_append, List.length_map, List.length_cons]
            omega
  · simp only [List.length_singleton]
    omega

end

structure PushState (α γ : Type) where
  seen : List α
  queue : List (α × Nat)
  acc : γ

/-- Put a node that is new at the end of the queue, and mark it. -/
def enqueue [DecidableEq α] (d : Nat) (r : List α × List (α × Nat)) (y : α) :
    List α × List (α × Nat) :=
  if y ∈ r.1 then r else (y :: r.1, r.2 ++ [(y, d)])

/-- Take an entry, enqueue its new successors unless it lies at the bound, and
collect it. -/
def pushStep {γ : Type} [DecidableEq α] (succ : α → List α) (collect : γ → α → γ) (bound : Nat)
    (s : PushState α γ) : Iter (PushState α γ) γ :=
  match s.queue with
  | [] => .done s.acc
  | (x, d) :: queue =>
    let r := if d < bound then (succ x).foldl (enqueue (d + 1)) (s.seen, queue)
      else (s.seen, queue)
    .next { seen := r.1, queue := r.2, acc := collect s.acc x }

variable {γ : Type} {succ : α → List α} {collect : γ → α → γ} {a : α} {init : γ}
  {order seen : List α} {acc : γ} {y : α}

/-- The successors of an entry that lies above the bound. -/
def below (succ : α → List α) (bound : Nat) (x : α) (d : Nat) : List α :=
  if d < bound then succ x else []

theorem mem_below : y ∈ below succ bound x d ↔ d < bound ∧ y ∈ succ x := by
  rw [below]
  split <;> simp [*]

theorem pushStep_cons [DecidableEq α] :
    pushStep succ collect bound { seen := seen, queue := (x, d) :: queue, acc := acc } =
      .next { seen := ((below succ bound x d).foldl (enqueue (d + 1)) (seen, queue)).1
              queue := ((below succ bound x d).foldl (enqueue (d + 1)) (seen, queue)).2
              acc := collect acc x } := by
  by_cases hd : d < bound <;> simp only [pushStep, below, hd, if_true, if_false, List.foldl_nil]

theorem enqueue_foldl [DecidableEq α] (d : Nat) (ys seen : List α) (queue : List (α × Nat)) :
    ∃ new : List α,
      (ys.foldl (enqueue d) (seen, queue)).2 = queue ++ new.map (fun y => (y, d)) ∧
      (∀ y ∈ new, y ∈ ys) ∧ (∀ y ∈ ys, y ∈ seen ∨ y ∈ new) ∧
      ∀ y ∈ (ys.foldl (enqueue d) (seen, queue)).1, y ∈ seen ∨ y ∈ new := by
  induction ys generalizing seen queue with
  | nil => exact ⟨[], by simp, by simp, by simp, by simp⟩
  | cons z ys ih =>
    rw [List.foldl_cons, enqueue]
    split_ifs with hz
    · obtain ⟨new, hqueue, hnew, hys, hseen⟩ := ih seen queue
      exact ⟨new, hqueue, fun y hy => List.mem_cons_of_mem z (hnew y hy),
        List.forall_mem_cons.mpr ⟨Or.inl hz, hys⟩, hseen⟩
    · obtain ⟨new, hqueue, hnew, hys, hseen⟩ := ih (z :: seen) (queue ++ [(z, d)])
      have hcons : ∀ y, y ∈ z :: seen ∨ y ∈ new → y ∈ seen ∨ y ∈ z :: new := by
        intro y hy
        rw [List.mem_cons] at hy ⊢
        tauto
      refine ⟨z :: new, ?_, ?_, ?_, fun y hy => hcons y (hseen y hy)⟩
      · rw [hqueue, List.append_assoc, List.map_cons, List.singleton_append]
      · exact List.forall_mem_cons.mpr
          ⟨List.mem_cons_self, fun y hy => List.mem_cons_of_mem z (hnew y hy)⟩
      · exact List.forall_mem_cons.mpr ⟨Or.inr List.mem_cons_self, fun y hy => hcons y (hys y hy)⟩

/-- Every entry that is added marks a node. -/
theorem enqueue_cost [DecidableEq α]
    (hcost : ∀ seen, ∀ y ∈ ys, y ∉ seen → cost (y :: seen) + 1 ≤ cost seen) (d : Nat)
    (r : List α × List (α × Nat)) :
    (ys.foldl (enqueue d) r).2.length + cost (ys.foldl (enqueue d) r).1 ≤
      r.2.length + cost r.1 := by
  induction ys generalizing r with
  | nil => exact Nat.le_refl _
  | cons z ys ih =>
    refine Nat.le_trans (ih (fun seen y hy => hcost seen y (List.mem_cons_of_mem z hy)) _) ?_
    rw [enqueue]
    by_cases hz : z ∈ r.1
    · simp only [if_pos hz, Nat.le_refl]
    · rw [if_neg hz]
      have hc := hcost r.1 z List.mem_cons_self hz
      simp only [List.length_append, List.length_singleton]
      omega

/-- `order` lists the nodes collected so far. -/
structure PushInv (succ : α → List α) (collect : γ → α → γ) (bound : Nat) (a : α) (init : γ)
    (order : List α) (s : PushState α γ) : Prop where
  acc : s.acc = order.foldl collect init
  search : ∃ dep, Inv succ bound a dep order s.queue
  bounded : ∀ p ∈ s.queue, p.2 ≤ bound
  collected : ∀ x ∈ order, Within (Edge succ) bound a x
  marked : ∀ x ∈ s.seen, x ∈ order ∨ ∃ d, (x, d) ∈ s.queue

/-- Taking an entry collects it and marks its new successors one level below, of which there are
none at the bound. -/
theorem PushInv.expand [DecidableEq α] (h : PushInv succ collect bound a init order
      { seen := seen, queue := (x, d) :: queue, acc := acc }) :
    PushInv succ collect bound a init (order ++ [x])
      { seen := ((below succ bound x d).foldl (enqueue (d + 1)) (seen, queue)).1
        queue := ((below succ bound x d).foldl (enqueue (d + 1)) (seen, queue)).2
        acc := collect acc x } := by
  obtain ⟨new, hqueue, hnew, hbelow, hseen⟩ :=
    enqueue_foldl (d + 1) (below succ bound x d) seen queue
  obtain ⟨dep, hinv⟩ := h.search
  have hbounded := List.forall_mem_cons.mp h.bounded
  have hmem : ∀ y, y ∈ order ++ [x] ↔ y = x ∨ y ∈ order := by
    intro y
    rw [List.mem_append, List.mem_singleton, or_comm]
  have hvisit := hinv.visit (fun y hy => (mem_below.mp (hnew y hy)).2) hmem fun hd y hy =>
    (hbelow y (mem_below.mpr ⟨hd, hy⟩)).symm.imp_right (h.marked y)
  refine ⟨?_, ⟨_, hqueue ▸ hvisit⟩, ?_, ?_, ?_⟩
  · rw [List.foldl_append]
    exact congrArg (collect · x) h.acc
  · rw [hqueue, List.forall_mem_append]
    refine ⟨hbounded.2, fun p hp => ?_⟩
    obtain ⟨y, hy, rfl⟩ := List.mem_map.mp hp
    exact (mem_below.mp (hnew y hy)).1
  · intro y hy
    rcases (hmem y).mp hy with rfl | hy
    · exact ⟨d, hbounded.1, hinv.sound (y, d) List.mem_cons_self⟩
    · exact h.collected y hy
  · rw [hqueue]
    intro y hy
    rcases hseen y hy with hy | hy
    · rcases h.marked y hy with hy | ⟨e, hy⟩
      · exact Or.inl (List.mem_append_left _ hy)
      · rcases List.mem_cons.mp hy with heq | hy
        · exact Or.inl ((hmem y).mpr (Or.inl (Prod.mk.inj heq).1))
        · exact Or.inr ⟨e, List.mem_append_left _ hy⟩
    · exact Or.inr ⟨d + 1, List.mem_append_right _ (List.mem_map_of_mem hy)⟩

/-- The collection ends, and collects exactly the nodes within the bound. `cost`
bounds the nodes that can still be marked. -/
theorem pushSearch [DecidableEq α] (init : γ)
    {step : PushState α γ → Except ε (Iter (PushState α γ) γ)}
    (hstep : ∀ s, step s = .ok (pushStep succ collect bound s))
    (hcost : ∀ seen x, ∀ y ∈ succ x, y ∉ seen → cost (y :: seen) + 1 ≤ cost seen)
    (hfuel : cost [a] + 1 < fuel) :
    ∃ g, whileLoop step fuel { seen := [a], queue := [(a, 0)], acc := init } = some (.ok g) ∧
      ∃ order : List α, g = order.foldl collect init ∧
        ∀ x, x ∈ order ↔ Within (Edge succ) bound a x := by
  refine whileLoop_rule
    (I := fun s => ∃ order, PushInv succ collect bound a init order s)
    (m := fun s => s.queue.length + cost s.seen) ?_ ⟨[], rfl, ⟨_, inv_start⟩, ?_, nofun, ?_⟩ ?_
  · rintro ⟨seen, queue, acc⟩ ⟨order, h⟩
    rw [hstep]
    cases queue with
    | nil =>
      obtain ⟨dep, hinv⟩ := h.search
      refine Or.inl ⟨acc, rfl, order, h.acc, fun x => ⟨h.collected x, ?_⟩⟩
      rintro ⟨n, hn, hw⟩
      exact (hinv.visited_of_walk hw hn).1
    | cons p queue =>
      obtain ⟨x, d⟩ := p
      rw [pushStep_cons]
      refine Or.inr ⟨_, rfl, ⟨_, h.expand⟩, ?_⟩
      have hc := enqueue_cost (fun seen y (hy : y ∈ below succ bound x d) =>
        hcost seen x y (mem_below.mp hy).2) (d + 1) (seen, queue)
      simp only [List.length_cons] at hc ⊢
      omega
  · intro p hp
    rw [List.mem_singleton.mp hp]
    exact Nat.zero_le bound
  · intro x hx
    exact Or.inr ⟨0, by rw [List.mem_singleton.mp hx]; exact List.mem_singleton_self _⟩
  · simp only [List.length_singleton]
    omega

end Bfs
end Lib
