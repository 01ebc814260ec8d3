import Mathlib.Algebra.GroupWithZero.Nat
import Mathlib.Data.Finset.Card
import Mathlib.Order.Interval.Finset.Nat

/-! # Lists of intervals of natural numbers

What allocators keep: half-open intervals in order, with a gap between any two.
An interval can be given back, which joins it with the ones it touches, and the
front of one can be taken away. Both are described by the points that the list
covers.
-/

namespace Intervals

structure Interval where
  start : Nat
  length : Nat
  deriving DecidableEq

namespace Interval

def stop (i : Interval) : Nat :=
  i.start + i.length

def points (i : Interval) : Finset Nat :=
  Finset.Ico i.start i.stop

@[simp] theorem mem_points {i : Interval} {x : Nat} : x ∈ i.points ↔ i.start ≤ x ∧ x < i.stop :=
  Finset.mem_Ico

@[simp] theorem card_points (i : Interval) : i.points.card = i.length := by
  simp [points, stop]

theorem disjoint_points {i j : Interval} (nonempty : 0 < i.length) (nonempty' : 0 < j.length) :
    Disjoint i.points j.points ↔ i.stop ≤ j.start ∨ j.stop ≤ i.start := by
  simp only [Finset.disjoint_left, mem_points, stop]
  constructor
  · intro apart
    by_contra overlap
    have first := apart (a := max i.start j.start)
    omega
  · intro apart x
    omega

end Interval

/-- The points of all intervals of a list. -/
def cover : List Interval → Finset Nat
  | [] => ∅
  | i :: rest => i.points ∪ cover rest

def total (l : List Interval) : Nat :=
  (l.map Interval.length).sum

section

variable {l : List Interval} {i : Interval} {x : Nat}

@[simp] theorem cover_nil : cover [] = ∅ :=
  rfl

@[simp] theorem cover_cons : cover (i :: l) = i.points ∪ cover l :=
  rfl

theorem mem_cover : x ∈ cover l ↔ ∃ i ∈ l, x ∈ i.points := by
  induction l with
  | nil => simp
  | cons i rest ih => simp [ih]

@[simp] theorem cover_append (l l' : List Interval) : cover (l ++ l') = cover l ∪ cover l' := by
  induction l with
  | nil => simp
  | cons i rest ih => simp [ih, Finset.union_assoc]

theorem points_subset_cover (mem : i ∈ l) : i.points ⊆ cover l :=
  fun _ inside => mem_cover.mpr ⟨i, mem, inside⟩

theorem disjoint_cover :
    Disjoint points (cover l) ↔ ∀ i ∈ l, Disjoint points i.points := by
  induction l with
  | nil => simp
  | cons i rest ih => simp [ih]

@[simp] theorem total_nil : total [] = 0 :=
  rfl

@[simp] theorem total_cons : total (i :: l) = i.length + total l :=
  rfl

@[simp] theorem total_append (l l' : List Interval) : total (l ++ l') = total l + total l' := by
  simp [total]

theorem mul_length_le_total (large : ∀ i ∈ l, n ≤ i.length) : n * l.length ≤ total l := by
  induction l with
  | nil => simp
  | cons i rest ih =>
    have head := large i (by simp)
    have tail := ih fun j mem => large j (by simp [mem])
    rw [List.length_cons, Nat.mul_succ, total_cons]
    omega

/-- Disjoint intervals cover as many points as they have together. -/
theorem card_cover (disjoint : l.Pairwise fun i j => Disjoint i.points j.points) :
    (cover l).card = total l := by
  induction l with
  | nil => rfl
  | cons i rest ih =>
    obtain ⟨head, tail⟩ := List.pairwise_cons.mp disjoint
    rw [cover_cons, total_cons, Finset.card_union_of_disjoint (disjoint_cover.mpr head), ih tail,
      Interval.card_points]

end

/-- Non-empty intervals in order, each ending before the next begins: no two touch. -/
structure Separated (l : List Interval) : Prop where
  nonempty : ∀ i ∈ l, 0 < i.length
  apart : l.Pairwise fun i j => i.stop < j.start

section

variable {l l' : List Interval} {i j : Interval}

theorem separated_nil : Separated [] :=
  ⟨nofun, .nil⟩

theorem separated_cons :
    Separated (i :: l) ↔ 0 < i.length ∧ (∀ j ∈ l, i.stop < j.start) ∧ Separated l := by
  constructor
  · rintro ⟨nonempty, apart⟩
    obtain ⟨head, tail⟩ := List.pairwise_cons.mp apart
    exact ⟨nonempty i (by simp), head, fun j mem => nonempty j (by simp [mem]), tail⟩
  · rintro ⟨positive, head, nonempty, tail⟩
    refine ⟨fun j mem => ?_, List.pairwise_cons.mpr ⟨head, tail⟩⟩
    obtain rfl | mem := List.mem_cons.mp mem
    · exact positive
    · exact nonempty j mem

theorem separated_append :
    Separated (l ++ l') ↔ Separated l ∧ Separated l' ∧ ∀ i ∈ l, ∀ j ∈ l', i.stop < j.start := by
  constructor
  · rintro ⟨nonempty, apart⟩
    obtain ⟨first, second, between⟩ := List.pairwise_append.mp apart
    exact ⟨⟨fun i mem => nonempty i (by simp [mem]), first⟩,
      ⟨fun i mem => nonempty i (by simp [mem]), second⟩, between⟩
  · rintro ⟨first, second, between⟩
    refine ⟨fun i mem => ?_, List.pairwise_append.mpr ⟨first.apart, second.apart, between⟩⟩
    obtain mem | mem := List.mem_append.mp mem
    · exact first.nonempty i mem
    · exact second.nonempty i mem

theorem Separated.disjoint (h : Separated l) :
    l.Pairwise fun i j => Disjoint i.points j.points := by
  refine h.apart.imp fun {i j} less => ?_
  simp only [Finset.disjoint_left, Interval.mem_points]
  intro x
  omega

theorem Separated.card (h : Separated l) : (cover l).card = total l :=
  card_cover h.disjoint

theorem Separated.start_mem (h : Separated l) (mem : i ∈ l) : i.start ∈ cover l := by
  refine points_subset_cover mem (Interval.mem_points.mpr ⟨le_rfl, ?_⟩)
  have := h.nonempty i mem
  simp only [Interval.stop]
  omega

theorem Separated.lt_start (h : Separated l) (above : ∀ x ∈ cover l, bound < x) (mem : i ∈ l) :
    bound < i.start :=
  above _ (h.start_mem mem)

end

/-- Put an interval in its place, joined with the ones it touches. -/
def join (i : Interval) : List Interval → List Interval
  | [] => [i]
  | j :: rest =>
    if i.stop < j.start then i :: j :: rest
    else if i.stop = j.start then { start := i.start, length := i.length + j.length } :: rest
    else if j.stop = i.start then join { start := j.start, length := j.length + i.length } rest
    else j :: join i rest

section

variable {l : List Interval} {i j : Interval}

theorem join_of_lt (before : i.stop < j.start) : join i (j :: l) = i :: j :: l :=
  if_pos before

theorem join_of_touch (touch : i.stop = j.start) :
    join i (j :: l) = { start := i.start, length := i.length + j.length } :: l := by
  rw [join, if_neg (by omega), if_pos touch]

theorem join_of_touched (touch : j.stop = i.start) (nonempty : 0 < i.length) :
    join i (j :: l) = join { start := j.start, length := j.length + i.length } l := by
  have order : j.start ≤ j.stop ∧ i.start < i.stop := by
    simp only [Interval.stop]
    omega
  rw [join, if_neg (by omega), if_neg (by omega), if_pos touch]

theorem points_of_touch (touch : i.stop = j.start) :
    (Interval.mk i.start (i.length + j.length)).points = i.points ∪ j.points := by
  ext x
  simp only [Finset.mem_union, Interval.mem_points, Interval.stop] at touch ⊢
  omega

theorem cover_join (i : Interval) (l : List Interval) : cover (join i l) = i.points ∪ cover l := by
  induction l generalizing i with
  | nil => rfl
  | cons j rest ih =>
    simp only [join]
    split
    · rfl
    split
    · rename_i touch
      rw [cover_cons, cover_cons, points_of_touch touch, Finset.union_assoc]
    split
    · rename_i touch
      rw [ih, points_of_touch touch, cover_cons, Finset.union_comm j.points, Finset.union_assoc]
    · rw [cover_cons, ih, cover_cons, Finset.union_left_comm]

theorem total_join (i : Interval) (l : List Interval) : total (join i l) = i.length + total l := by
  induction l generalizing i with
  | nil => rfl
  | cons j rest ih =>
    simp only [join]
    split
    · rfl
    split
    · simp only [total_cons, Nat.add_assoc]
    split
    · rw [ih, total_cons]
      simp only
      omega
    · rw [total_cons, ih, total_cons]
      omega

theorem Separated.join (h : Separated l) (nonempty : 0 < i.length)
    (new : Disjoint i.points (cover l)) : Separated (join i l) := by
  induction l generalizing i with
  | nil => exact separated_cons.mpr ⟨nonempty, nofun, separated_nil⟩
  | cons j rest ih =>
    obtain ⟨positive, gap, tail⟩ := separated_cons.mp h
    obtain ⟨apart, new⟩ := Finset.disjoint_union_right.mp new
    rw [Interval.disjoint_points nonempty positive] at apart
    simp only [Intervals.join]
    split
    · rename_i before
      refine separated_cons.mpr ⟨nonempty, fun k mem => ?_, h⟩
      obtain rfl | mem := List.mem_cons.mp mem
      · exact before
      · have := gap k mem
        simp only [Interval.stop] at *
        omega
    split
    · rename_i touch
      refine separated_cons.mpr ⟨?_, fun k mem => ?_, tail⟩
      · simp only
        omega
      · have := gap k mem
        simp only [Interval.stop] at *
        omega
    split
    · rename_i touch
      refine ih tail ?_ ?_
      · simp only
        omega
      · rw [points_of_touch touch, Finset.disjoint_union_left]
        exact ⟨disjoint_cover.mpr (List.pairwise_cons.mp h.disjoint).1, new⟩
    · rename_i noTouch noTouch'
      have kept := ih tail nonempty new
      refine separated_cons.mpr ⟨positive, fun k mem => ?_, kept⟩
      refine kept.lt_start (fun x inside => ?_) mem
      rw [cover_join, Finset.mem_union, mem_cover] at inside
      obtain inside | ⟨k, mem, inside⟩ := inside
      · rw [Interval.mem_points] at inside
        omega
      · have := gap k mem
        rw [Interval.mem_points] at inside
        omega

theorem forall_mem_join {P : Interval → Prop}
    (merge : ∀ i j, P i → P j → i.stop = j.start → P { start := i.start, length := i.length + j.length })
    (new : P i) (all : ∀ j ∈ l, P j) : ∀ k ∈ Intervals.join i l, P k := by
  induction l generalizing i with
  | nil => simpa [Intervals.join] using new
  | cons j rest ih =>
    obtain ⟨head, tail⟩ := List.forall_mem_cons.mp all
    simp only [Intervals.join]
    split
    · exact List.forall_mem_cons.mpr ⟨new, all⟩
    split
    · rename_i touch
      exact List.forall_mem_cons.mpr ⟨merge i j new head touch, tail⟩
    split
    · rename_i touch
      exact ih (merge j i head new touch) tail
    · exact List.forall_mem_cons.mpr ⟨head, ih new tail⟩

theorem start_of_mem_join (mem : k ∈ Intervals.join i l) :
    k.start = i.start ∨ ∃ j ∈ l, k.start = j.start := by
  induction l generalizing i with
  | nil =>
    cases List.mem_singleton.mp mem
    exact .inl rfl
  | cons j rest ih =>
    simp only [Intervals.join] at mem
    split at mem
    · obtain rfl | mem := List.mem_cons.mp mem
      · exact .inl rfl
      · exact .inr ⟨k, mem, rfl⟩
    split at mem
    · obtain rfl | mem := List.mem_cons.mp mem
      · exact .inl rfl
      · exact .inr ⟨k, by simp [mem], rfl⟩
    split at mem
    · obtain same | ⟨m, mem, same⟩ := ih mem
      · exact .inr ⟨j, by simp, same⟩
      · exact .inr ⟨m, by simp [mem], same⟩
    · obtain rfl | mem := List.mem_cons.mp mem
      · exact .inr ⟨k, by simp, rfl⟩
      · obtain same | ⟨m, mem, same⟩ := ih mem
        · exact .inl same
        · exact .inr ⟨m, by simp [mem], same⟩

/-- Intervals that end before `i` begins stay as they are. -/
theorem join_append (ends : ∀ j ∈ before, j.stop < i.start) (l : List Interval) :
    Intervals.join i (before ++ l) = before ++ Intervals.join i l := by
  induction before with
  | nil => rfl
  | cons j rest ih =>
    have less := ends j (by simp)
    have le : j.start ≤ j.stop ∧ i.start ≤ i.stop := by simp [Interval.stop]
    rw [List.cons_append, Intervals.join, if_neg (by omega), if_neg (by omega),
      if_neg (by omega), ih fun k mem => ends k (by simp [mem])]
    rfl

/-- Where an interval that misses the list belongs. -/
theorem Separated.exists_place (h : Separated l) (nonempty : 0 < i.length)
    (new : Disjoint i.points (cover l)) :
    ∃ before after, l = before ++ after ∧ (∀ j ∈ before, j.stop ≤ i.start) ∧
      ∀ j ∈ after, i.stop ≤ j.start := by
  induction l with
  | nil => exact ⟨[], [], rfl, nofun, nofun⟩
  | cons j rest ih =>
    obtain ⟨positive, gap, tail⟩ := separated_cons.mp h
    obtain ⟨first, others⟩ := Finset.disjoint_union_right.mp new
    rw [Interval.disjoint_points nonempty positive] at first
    obtain right | left := first
    · refine ⟨[], j :: rest, rfl, nofun, List.forall_mem_cons.mpr ⟨right, fun k mem => ?_⟩⟩
      have less := gap k mem
      have order : j.start ≤ j.stop := Nat.le_add_right _ _
      omega
    · obtain ⟨before, after, rfl, lefts, rights⟩ := ih tail others
      exact ⟨j :: before, after, rfl, List.forall_mem_cons.mpr ⟨left, lefts⟩, rights⟩

/-- An interval with the one behind it, if they touch, and what follows. -/
def absorb (i : Interval) : List Interval → Interval × List Interval
  | [] => (i, [])
  | j :: rest =>
    if i.stop = j.start then ({ start := i.start, length := i.length + j.length }, rest)
    else (i, j :: rest)

theorem join_of_le (right : ∀ j ∈ after, i.stop ≤ j.start) :
    Intervals.join i after = (absorb i after).1 :: (absorb i after).2 := by
  cases after with
  | nil => rfl
  | cons j rest =>
    have le := right j (by simp)
    simp only [absorb]
    split
    · rename_i touch
      exact join_of_touch touch
    · exact join_of_lt (by omega)

theorem absorb_grow (touch : j.stop = i.start) :
    absorb { start := j.start, length := j.length + i.length } after =
      ({ start := j.start, length := j.length + (absorb i after).1.length }, (absorb i after).2) := by
  have stop : (Interval.mk j.start (j.length + i.length)).stop = i.stop := by
    simp only [Interval.stop] at *
    omega
  cases after with
  | nil => rfl
  | cons k rest =>
    simp only [absorb, stop]
    split
    · simp [Nat.add_assoc]
    · rfl

end

/-- What is left of an interval when `n` points are taken from its front. -/
def Interval.rest (i : Interval) (n : Nat) : List Interval :=
  if n < i.length then [{ start := i.start + n, length := i.length - n }] else []

section

variable {before after : List Interval} {i : Interval} {n : Nat}

theorem cover_rest (enough : n ≤ i.length) :
    cover (i.rest n) = i.points \ (Interval.mk i.start n).points := by
  ext x
  unfold Interval.rest
  split <;> simp [Interval.stop] <;> omega

theorem total_rest (enough : n ≤ i.length) : total (i.rest n) + n = i.length := by
  unfold Interval.rest
  split <;> simp <;> omega

theorem of_mem_rest (mem : k ∈ i.rest n) :
    i.start ≤ k.start ∧ k.stop = i.stop ∧ 0 < k.length := by
  unfold Interval.rest at mem
  split at mem
  · cases List.mem_singleton.mp mem
    simp only [Interval.stop]
    omega
  · cases mem

theorem start_of_mem_rest (mem : k ∈ i.rest n) : k.start = i.start + n := by
  unfold Interval.rest at mem
  split at mem
  · cases List.mem_singleton.mp mem
    rfl
  · cases mem

theorem Separated.carve (h : Separated (before ++ i :: after)) (n : Nat) :
    Separated (before ++ i.rest n ++ after) := by
  obtain ⟨first, rest, between⟩ := separated_append.mp h
  obtain ⟨-, gap, second⟩ := separated_cons.mp rest
  have middle : Separated (i.rest n) := by
    refine ⟨fun k mem => (of_mem_rest mem).2.2, ?_⟩
    unfold Interval.rest
    split <;> simp
  refine separated_append.mpr ⟨separated_append.mpr ⟨first, middle, ?_⟩, second, ?_⟩
  · intro j mem k mem'
    exact (between j mem i (by simp)).trans_le (of_mem_rest mem').1
  · intro j mem k mem'
    obtain mem | mem := List.mem_append.mp mem
    · exact between j mem k (by simp [mem'])
    · exact (of_mem_rest mem).2.1 ▸ gap k mem'

theorem cover_carve (h : Separated (before ++ i :: after)) (enough : n ≤ i.length) :
    cover (before ++ i.rest n ++ after) =
      cover (before ++ i :: after) \ (Interval.mk i.start n).points := by
  have inside : (Interval.mk i.start n).points ⊆ i.points := by
    intro x
    simp only [Interval.mem_points, Interval.stop]
    omega
  obtain ⟨-, rest, between⟩ := List.pairwise_append.mp h.disjoint
  have first : Disjoint (cover before) (Interval.mk i.start n).points :=
    (disjoint_cover.mpr fun j mem => ((between j mem i (by simp)).symm.mono_left inside)).symm
  have second : Disjoint (cover after) (Interval.mk i.start n).points :=
    (disjoint_cover.mpr fun j mem => ((List.pairwise_cons.mp rest).1 j mem).mono_left inside).symm
  rw [cover_append, cover_append, cover_append, cover_cons, cover_rest enough,
    Finset.union_sdiff_distrib, Finset.union_sdiff_distrib, Finset.sdiff_eq_self_of_disjoint first,
    Finset.sdiff_eq_self_of_disjoint second, Finset.union_assoc]

theorem total_carve (enough : n ≤ i.length) :
    total (before ++ i.rest n ++ after) + n = total (before ++ i :: after) := by
  have := total_rest enough
  simp only [total_append, total_cons]
  omega

end

/-- The intervals lie side by side and fill everything below `n`. -/
structure Tiles (l : List Interval) (n : Nat) : Prop where
  disjoint : l.Pairwise fun i j => Disjoint i.points j.points
  covers : cover l = Finset.range n

section

variable {l : List Interval} {n : Nat}

theorem card_cover_le (l : List Interval) : (cover l).card ≤ total l := by
  induction l with
  | nil => rfl
  | cons i rest ih =>
    have union := Finset.card_union_le i.points (cover rest)
    rw [Interval.card_points] at union
    rw [cover_cons, total_cons]
    omega

theorem pairwise_disjoint_of_total_le (enough : total l ≤ (cover l).card) :
    l.Pairwise fun i j => Disjoint i.points j.points := by
  induction l with
  | nil => exact .nil
  | cons i rest ih =>
    have tail := card_cover_le rest
    have both := Finset.card_union_add_card_inter i.points (cover rest)
    rw [Interval.card_points] at both
    rw [cover_cons, total_cons] at enough
    have apart : (i.points ∩ cover rest).card = 0 := by omega
    rw [Finset.card_eq_zero, ← Finset.disjoint_iff_inter_eq_empty] at apart
    exact List.pairwise_cons.mpr ⟨disjoint_cover.mp apart, ih (by omega)⟩

/-- To tile is to cover the right points with the right number of them. -/
theorem tiles_iff : Tiles l n ↔ cover l = Finset.range n ∧ total l = n := by
  constructor
  · rintro ⟨disjoint, covers⟩
    exact ⟨covers, by rw [← card_cover disjoint, covers, Finset.card_range]⟩
  · rintro ⟨covers, total⟩
    exact ⟨pairwise_disjoint_of_total_le (by rw [covers, total, Finset.card_range]), covers⟩

theorem Separated.eq_singleton (h : Separated l) (covers : cover l = Finset.range n)
    (positive : 0 < n) : l = [{ start := 0, length := n }] := by
  have below {x : Nat} : x ∈ cover l ↔ x < n := by rw [covers, Finset.mem_range]
  cases l with
  | nil => exact absurd (below.mpr positive) (by simp)
  | cons i rest =>
    obtain ⟨nonempty, gap, tail⟩ := separated_cons.mp h
    have behind {x : Nat} (mem : x ∈ cover rest) : i.stop < x := by
      obtain ⟨j, mem, inside⟩ := mem_cover.mp mem
      exact (gap j mem).trans_le (Interval.mem_points.mp inside).1
    have member {x : Nat} : x ∈ cover (i :: rest) ↔ (i.start ≤ x ∧ x < i.stop) ∨ x ∈ cover rest := by
      rw [cover_cons, Finset.mem_union, Interval.mem_points]
    -- nothing covers the point right behind the first interval
    have ends : n ≤ i.stop := by
      by_contra less
      rcases member.mp (below.mpr (Nat.lt_of_not_le less)) with inside | mem
      · omega
      · exact absurd (behind mem) (lt_irrefl _)
    have starts : i.start = 0 := by
      rcases member.mp (below.mpr positive) with inside | mem
      · omega
      · exact absurd (behind mem) (by omega)
    have last := below.mp (member.mpr (.inl ⟨show i.start ≤ i.stop - 1 by
      simp only [Interval.stop]; omega, by simp only [Interval.stop]; omega⟩))
    have none : rest = [] := by
      refine List.eq_nil_iff_forall_not_mem.mpr fun j mem => ?_
      have start := tail.start_mem mem
      have := below.mp (member.mpr (.inr start))
      have := behind start
      omega
    obtain ⟨start, length⟩ := i
    simp only [Interval.stop] at *
    rw [none]
    congr 2
    omega

end

/-- What is left of an interval outside another one. -/
def Interval.minus (i r : Interval) : List Interval :=
  [{ start := i.start, length := min i.stop r.start - i.start },
   { start := max i.start r.stop, length := i.stop - max i.start r.stop }].filter fun part =>
    0 < part.length

/-- The parts of all intervals outside `r`. -/
def without (l : List Interval) (r : Interval) : List Interval :=
  l.flatMap (·.minus r)

section

variable {l : List Interval} {i r : Interval}

theorem of_mem_minus (mem : k ∈ i.minus r) :
    0 < k.length ∧ i.start ≤ k.start ∧ k.stop ≤ i.stop ∧ (k.stop ≤ r.start ∨ r.stop ≤ k.start) := by
  simp only [Interval.minus, List.mem_filter, List.mem_cons, List.not_mem_nil, or_false,
    decide_eq_true_eq] at mem
  obtain ⟨rfl | rfl, positive⟩ := mem
  · simp only [Interval.stop] at positive ⊢
    omega
  · simp only [Interval.stop] at positive ⊢
    omega

theorem ends_of_mem_minus (mem : k ∈ i.minus r) :
    (k.start = i.start ∨ k.start = r.stop) ∧ (k.stop = i.stop ∨ k.stop = r.start) := by
  simp only [Interval.minus, List.mem_filter, List.mem_cons, List.not_mem_nil, or_false,
    decide_eq_true_eq] at mem
  obtain ⟨rfl | rfl, positive⟩ := mem
  · refine ⟨.inl rfl, ?_⟩
    rcases Nat.le_total i.stop r.start with le | le
    · rw [Nat.min_eq_left le] at positive ⊢
      exact .inl (by simp only [Interval.stop] at *; omega)
    · rw [Nat.min_eq_right le] at positive ⊢
      exact .inr (by simp only [Interval.stop] at *; omega)
  · refine ⟨?_, .inl ?_⟩
    · rcases Nat.le_total i.start r.stop with le | le
      · exact .inr (Nat.max_eq_right le)
      · exact .inl (Nat.max_eq_left le)
    · simp only [Interval.stop] at *
      omega

theorem cover_minus : cover (i.minus r) = i.points \ r.points := by
  ext x
  simp only [mem_cover, Interval.minus, List.mem_filter, List.mem_cons, List.not_mem_nil, or_false,
    decide_eq_true_eq, Finset.mem_sdiff, Interval.mem_points, Interval.stop]
  constructor
  · rintro ⟨k, ⟨rfl | rfl, positive⟩, inside⟩
    · simp only at positive inside
      omega
    · simp only at positive inside
      omega
  · intro inside
    by_cases left : x < r.start
    · exact ⟨_, ⟨.inl rfl, by simp only; omega⟩, by simp only; omega⟩
    · exact ⟨_, ⟨.inr rfl, by simp only; omega⟩, by simp only; omega⟩

theorem cover_without (l : List Interval) (r : Interval) :
    cover (without l r) = cover l \ r.points := by
  induction l with
  | nil => simp [without]
  | cons i rest ih =>
    change cover (i.minus r ++ without rest r) = _
    rw [cover_append, cover_minus, ih, cover_cons, Finset.union_sdiff_distrib]

theorem mem_without_of_disjoint (mem : i ∈ l) (nonempty : 0 < i.length) (nonempty' : 0 < r.length)
    (apart : Disjoint i.points r.points) : i ∈ without l r := by
  refine List.mem_flatMap.mpr ⟨i, mem, ?_⟩
  rw [Interval.disjoint_points nonempty nonempty'] at apart
  obtain ⟨start, length⟩ := i
  simp only [Interval.minus, List.mem_filter, List.mem_cons, List.not_mem_nil, or_false,
    decide_eq_true_eq, Interval.mk.injEq, Interval.stop] at *
  refine ⟨?_, nonempty⟩
  obtain before | after := apart
  · exact .inl ⟨trivial, by omega⟩
  · exact .inr ⟨(Nat.max_eq_left after).symm, by rw [Nat.max_eq_left after]; omega⟩

theorem pairwise_without (disjoint : l.Pairwise fun i j => Disjoint i.points j.points) :
    (without l r).Pairwise fun i j => Disjoint i.points j.points := by
  have within {i k : Interval} (mem : k ∈ i.minus r) : k.points ⊆ i.points := by
    have bounds := of_mem_minus mem
    intro x
    simp only [Interval.mem_points]
    omega
  refine List.pairwise_flatMap.mpr ⟨fun i _ => ?_, disjoint.imp fun apart k mem k' mem' => ?_⟩
  · refine List.Pairwise.filter _ (List.pairwise_pair.mpr ?_)
    simp only [Finset.disjoint_left, Interval.mem_points, Interval.stop]
    intro x
    omega
  · exact (apart.mono_left (within mem)).mono_right (within mem')

end

end Intervals
