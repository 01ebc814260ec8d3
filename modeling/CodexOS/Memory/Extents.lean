import CodexOS.Memory.PageAllocator
import CodexOS.Lib.Intervals

/-! # The table of free extents

On a table whose extents are in order and do not touch, giving pages back is
`Intervals.join`, and handing out the front of an extent leaves its
`Interval.rest`.
-/

namespace CodexOS.Memory

open Word64 Intervals

def FreeExtent.interval (extent : FreeExtent) : Interval where
  start := extent.start
  length := extent.pageCount * pageSize

def freePages (extents : List FreeExtent) : Nat :=
  (extents.map FreeExtent.pageCount).sum

theorem total_intervals (extents : List FreeExtent) :
    total (extents.map FreeExtent.interval) = freePages extents * pageSize := by
  induction extents with
  | nil => rfl
  | cons extent rest ih =>
    simp only [List.map_cons, total_cons, freePages, List.sum_cons, Nat.add_mul] at ih ⊢
    rw [ih]
    rfl

theorem FreeExtent.stop_eq {extent : FreeExtent} (small : extent.interval.stop < size) :
    extent.stop = extent.interval.stop := by
  have product : extent.pageCount * pageSize < size := by
    simp only [Interval.stop, FreeExtent.interval] at small
    omega
  rw [FreeExtent.stop, saturatingMul_of_lt product]
  exact saturatingAdd_of_lt small

/-- The table is in order, without gaps to close, and below the top of memory. -/
structure ExtentsOk (extents : List FreeExtent) : Prop where
  separated : Separated (extents.map FreeExtent.interval)
  bounded : ∀ extent ∈ extents, extent.interval.stop < size

theorem extentsOk_append (ok : ExtentsOk (before ++ after)) :
    ExtentsOk before ∧ ExtentsOk after ∧
      ∀ extent ∈ before, ∀ extent' ∈ after, extent.interval.stop < extent'.interval.start := by
  have separated := ok.separated
  rw [List.map_append, separated_append] at separated
  refine ⟨⟨separated.1, fun extent mem => ok.bounded extent (by simp [mem])⟩,
    ⟨separated.2.1, fun extent mem => ok.bounded extent (by simp [mem])⟩, ?_⟩
  intro extent mem extent' mem'
  exact separated.2.2 _ (List.mem_map_of_mem mem) _ (List.mem_map_of_mem mem')

theorem coalesceFreeExtents_eq {extents : List FreeExtent} (ok : ExtentsOk extents) :
    coalesceFreeExtents extents = extents := by
  have loop (current : FreeExtent) (rest : List FreeExtent) (ok : ExtentsOk (current :: rest)) :
      coalesceFrom current rest = current :: rest := by
    induction rest generalizing current with
    | nil => rfl
    | cons next rest ih =>
      obtain ⟨-, tail, gap⟩ :=
        extentsOk_append (show ExtentsOk ([current] ++ next :: rest) from ok)
      have less := gap current (by simp) next (by simp)
      have stop := FreeExtent.stop_eq (ok.bounded current (by simp))
      have start : next.interval.start = next.start := rfl
      rw [coalesceFrom, if_neg (by omega), ih next tail]
  cases extents with
  | nil => rfl
  | cons current rest => exact loop current rest ok

section

variable {extents before after init rest : List FreeExtent} {extent prev next : FreeExtent}
  {start stop pageCount : Nat}

theorem exists_split (ok : ExtentsOk extents) {range : Interval} (nonempty : 0 < range.length)
    (apart : Disjoint range.points (cover (extents.map FreeExtent.interval))) :
    ∃ before after, extents = before ++ after ∧
      (∀ extent ∈ before, extent.interval.stop ≤ range.start) ∧
      ∀ extent ∈ after, range.stop ≤ extent.start := by
  obtain ⟨before, after, same, left, right⟩ := ok.separated.exists_place nonempty apart
  obtain ⟨before, after, rfl, rfl, rfl⟩ := List.map_eq_append_iff.mp same
  exact ⟨before, after, rfl, fun extent mem => left _ (List.mem_map_of_mem mem),
    fun extent mem => right _ (List.mem_map_of_mem mem)⟩

theorem insertion_eq (left : ∀ extent ∈ before, extent.interval.stop ≤ start)
    (right : ∀ extent ∈ after, start < extent.start) :
    (before ++ after).findIdx (fun extent => start < extent.start) = before.length := by
  induction before with
  | nil =>
    cases after with
    | nil => rfl
    | cons next rest => simp [List.findIdx_cons, right next (by simp)]
  | cons extent rest ih =>
    have le : extent.start ≤ start := (Nat.le_add_right _ _).trans (left extent (by simp))
    rw [List.cons_append, List.findIdx_cons, ih fun extent mem => left extent (by simp [mem])]
    simp [Nat.not_lt.mpr le]

theorem set_middle (value : FreeExtent) :
    (init ++ extent :: rest).set init.length value = init ++ value :: rest := by
  rw [List.set_append_right _ _ (Nat.le_refl _), Nat.sub_self, List.set_cons_zero]

theorem insertIdx_middle (value : FreeExtent) :
    (before ++ after).insertIdx before.length value = before ++ value :: after := by
  induction before with
  | nil => rfl
  | cons extent rest ih => simp [ih]

theorem getD_middle : (init ++ extent :: rest).getD init.length .empty = extent := by
  simp

theorem join_extents {range : Interval}
    (left : ∀ extent ∈ before, extent.interval.stop < range.start) :
    join range ((before ++ after).map FreeExtent.interval) =
      before.map FreeExtent.interval ++ join range (after.map FreeExtent.interval) := by
  rw [List.map_append, join_append]
  exact List.forall_mem_map.mpr left

/-- The range touches the extent before it, and perhaps the one behind it too. -/
theorem insertFreeExtent_previous (ok : ExtentsOk (init ++ prev :: after))
    (nonempty : 0 < pageCount) (isStop : start + pageCount * pageSize = stop) (small : stop < size)
    (touch : prev.interval.stop = start) (left : ∀ extent ∈ init ++ [prev], extent.interval.stop ≤ start)
    (right : ∀ extent ∈ after, stop ≤ extent.start)
    (inserted : insertFreeExtent (init ++ prev :: after) start stop pageCount = some extents) :
    extents.map FreeExtent.interval =
      join { start, length := pageCount * pageSize }
        ((init ++ prev :: after).map FreeExtent.interval) := by
  obtain ⟨-, -, gap⟩ := extentsOk_append ok
  have prevStop := FreeExtent.stop_eq (ok.bounded prev (by simp))
  have span : prev.start + prev.pageCount * pageSize = start := touch
  have room : 0 < pageCount * pageSize := Nat.mul_pos nonempty (by decide)
  have insertion : (init ++ prev :: after).findIdx (fun extent => start < extent.start) =
      init.length + 1 := by
    rw [List.append_cons, insertion_eq left fun extent mem => by have := right extent mem; omega]
    simp
  have grown : saturatingAdd prev.pageCount pageCount = prev.pageCount + pageCount := by
    refine saturatingAdd_of_lt ?_
    simp only [pageSize] at span isStop
    omega
  have grownStop : ({ prev with pageCount := prev.pageCount + pageCount } : FreeExtent).stop = stop := by
    have whole : ({ prev with pageCount := prev.pageCount + pageCount } : FreeExtent).interval.stop =
        stop := by
      simp only [FreeExtent.interval, Interval.stop, Nat.add_mul]
      omega
    rw [FreeExtent.stop_eq (by omega), whole]
  have joined : join { start, length := pageCount * pageSize }
      ((init ++ prev :: after).map FreeExtent.interval) =
      init.map FreeExtent.interval ++
        join { start := prev.start, length := (prev.pageCount + pageCount) * pageSize }
          (after.map FreeExtent.interval) := by
    rw [join_extents fun extent mem => (gap extent mem prev (by simp)).trans_le
      ((Nat.le_add_right _ _).trans_eq touch), List.map_cons, join_of_touched touch room, Nat.add_mul]
    rfl
  simp only [insertFreeExtent, insertion, Nat.add_sub_cancel, getD_middle, grown, grownStop, prevStop]
    at inserted
  rw [if_pos ⟨by omega, touch⟩] at inserted
  rw [joined]
  cases after with
  | nil =>
    rw [if_neg (by simp), set_middle] at inserted
    cases inserted
    simp [join, FreeExtent.interval]
  | cons next rest =>
    have nextCount : saturatingAdd (prev.pageCount + pageCount) next.pageCount =
        prev.pageCount + pageCount + next.pageCount := by
      have bound := ok.bounded next (by simp)
      have le := right next (by simp)
      refine saturatingAdd_of_lt ?_
      simp only [FreeExtent.interval, Interval.stop, pageSize] at bound span isStop
      omega
    have nextMiddle : (init ++ prev :: next :: rest).getD (init.length + 1) .empty = next := by
      simp
    have whole : (Interval.mk prev.start ((prev.pageCount + pageCount) * pageSize)).stop = stop := by
      simp only [Interval.stop, Nat.add_mul]
      omega
    rw [nextMiddle] at inserted
    by_cases same : stop = next.start
    · rw [if_pos ⟨by simp, same⟩, set_middle, nextCount] at inserted
      cases inserted
      rw [List.map_cons, join_of_touch (whole.trans same), removeFreeExtent, List.append_cons,
        List.eraseIdx_append_of_length_le (by simp)]
      simp [FreeExtent.interval, Nat.add_mul]
    · rw [if_neg fun both => same both.2, set_middle] at inserted
      cases inserted
      have less : stop < next.start := lt_of_le_of_ne (right next (by simp)) same
      rw [List.map_cons, join_of_lt (whole ▸ less)]
      simp [FreeExtent.interval]

/-- The range touches no extent before it. -/
theorem insertFreeExtent_apart (ok : ExtentsOk (before ++ after)) (nonempty : 0 < pageCount)
    (isStop : start + pageCount * pageSize = stop) (small : stop < size)
    (left : ∀ extent ∈ before, extent.interval.stop < start)
    (right : ∀ extent ∈ after, stop ≤ extent.start)
    (apart : Disjoint (Interval.mk start (pageCount * pageSize)).points
      (cover ((before ++ after).map FreeExtent.interval)))
    (inserted : insertFreeExtent (before ++ after) start stop pageCount = some extents) :
    extents.map FreeExtent.interval =
      join { start, length := pageCount * pageSize } ((before ++ after).map FreeExtent.interval) := by
  have room : 0 < pageCount * pageSize := Nat.mul_pos nonempty (by decide)
  have insertion : (before ++ after).findIdx (fun extent => start < extent.start) =
      before.length :=
    insertion_eq (fun extent mem => (left extent mem).le) fun extent mem => by
      have := right extent mem
      omega
  have noTouch : ¬(0 < before.length ∧ ((before ++ after).getD (before.length - 1) .empty).stop = start) := by
    rintro ⟨positive, touch⟩
    have mem : (before ++ after).getD (before.length - 1) .empty ∈ before := by
      rw [List.getD_eq_getElem?_getD, List.getElem?_append_left (by omega),
        List.getElem?_eq_getElem (by omega)]
      exact List.getElem_mem _
    rw [FreeExtent.stop_eq (ok.bounded _ (List.mem_append_left _ mem))] at touch
    exact absurd touch (left _ mem).ne
  have joined := @join_extents before after { start, length := pageCount * pageSize } left
  simp only [insertFreeExtent, insertion] at inserted
  rw [if_neg noTouch] at inserted
  rw [joined]
  by_cases touches : before.length < (before ++ after).length ∧
      stop = ((before ++ after).getD before.length .empty).start
  · rw [if_pos touches] at inserted
    cases after with
    | nil => simp at touches
    | cons next rest =>
      rw [getD_middle] at inserted touches
      have nextCount : saturatingAdd next.pageCount pageCount = next.pageCount + pageCount := by
        have bound := ok.bounded next (by simp)
        refine saturatingAdd_of_lt ?_
        simp only [FreeExtent.interval, Interval.stop, pageSize] at bound isStop
        omega
      rw [set_middle, nextCount] at inserted
      cases inserted
      have touch : (Interval.mk start (pageCount * pageSize)).stop = next.interval.start :=
        isStop.trans touches.2
      rw [List.map_cons, join_of_touch touch]
      simp [FreeExtent.interval, Nat.add_mul, Nat.add_comm]
  · rw [if_neg touches, Option.ite_none_left_eq_some, insertIdx_middle] at inserted
    have placed : join { start, length := pageCount * pageSize } (after.map FreeExtent.interval) =
        (FreeExtent.mk start pageCount :: after).map FreeExtent.interval := by
      cases after with
      | nil => rfl
      | cons next rest =>
        rw [getD_middle] at touches
        have less : stop < next.start :=
          lt_of_le_of_ne (right next (by simp)) fun same => touches ⟨by simp, same⟩
        have before : (Interval.mk start (pageCount * pageSize)).stop < next.interval.start :=
          isStop.trans_lt less
        exact join_of_lt before
    rw [placed, ← List.map_append] at joined ⊢
    rw [coalesceFreeExtents_eq] at inserted
    · cases inserted.2
      rfl
    · refine ⟨joined ▸ ok.separated.join room apart, fun extent mem => ?_⟩
      obtain mem | mem := List.mem_append.mp mem
      · exact ok.bounded extent (by simp [mem])
      obtain rfl | mem := List.mem_cons.mp mem
      · exact isStop.trans_lt small
      · exact ok.bounded extent (by simp [mem])

theorem insertFreeExtent_spec (ok : ExtentsOk extents) (nonempty : 0 < pageCount)
    (isStop : start + pageCount * pageSize = stop) (small : stop < size)
    (apart : Disjoint (Interval.mk start (pageCount * pageSize)).points
      (cover (extents.map FreeExtent.interval))) {extents' : List FreeExtent}
    (inserted : insertFreeExtent extents start stop pageCount = some extents') :
    extents'.map FreeExtent.interval =
      join { start, length := pageCount * pageSize } (extents.map FreeExtent.interval) := by
  have room : 0 < pageCount * pageSize := Nat.mul_pos nonempty (by decide)
  obtain ⟨before, after, rfl, left, right⟩ := exists_split ok room apart
  simp only [show (Interval.mk start (pageCount * pageSize)).stop = stop from isStop] at left right
  obtain rfl | ⟨init, prev, rfl⟩ := before.eq_nil_or_concat
  · exact insertFreeExtent_apart ok nonempty isStop small nofun right apart inserted
  · rw [List.concat_eq_append] at *
    by_cases touch : prev.interval.stop = start
    · rw [← List.append_cons] at *
      exact insertFreeExtent_previous ok nonempty isStop small touch left right inserted
    · refine insertFreeExtent_apart ok nonempty isStop small (fun extent mem => ?_) right apart inserted
      obtain inInit | isPrev := List.mem_append.mp mem
      · obtain ⟨-, -, gap⟩ := extentsOk_append (extentsOk_append ok).1
        have less := gap extent inInit prev (by simp)
        have order : prev.interval.start ≤ prev.interval.stop := Nat.le_add_right _ _
        have le := left prev (by simp)
        omega
      · cases List.mem_singleton.mp isPrev
        exact lt_of_le_of_ne (left prev mem) touch

theorem isSome_insertFreeExtent (room : extents.length < maxFreeExtents) :
    ∃ extents', insertFreeExtent extents start stop pageCount = some extents' := by
  unfold insertFreeExtent
  simp only
  split
  · split <;> exact ⟨_, rfl⟩
  split
  · exact ⟨_, rfl⟩
  rw [if_neg (by omega)]
  exact ⟨_, rfl⟩

end

section

variable {extents : List FreeExtent} {pageCount index : Nat}

theorem of_findIdx_extent
    (found : extents.findIdx? (fun extent => pageCount ≤ extent.pageCount) = some index) :
    ∃ before extent after, extents = before ++ extent :: after ∧ before.length = index ∧
      pageCount ≤ extent.pageCount := by
  obtain ⟨bound, enough, -⟩ := List.findIdx?_eq_some_iff_getElem.mp found
  refine ⟨extents.take index, extents[index], extents.drop (index + 1), ?_, ?_, by simpa using enough⟩
  · rw [List.getElem_cons_drop, List.take_append_drop]
  · simp only [List.length_take]
    omega

theorem takeFromExtent_eq (enough : pageCount ≤ extent.pageCount)
    (small : extent.interval.stop < size) :
    (takeFromExtent (before ++ extent :: after) before.length pageCount).map FreeExtent.interval =
      before.map FreeExtent.interval ++ extent.interval.rest (pageCount * pageSize) ++
        after.map FreeExtent.interval := by
  have product : pageCount * pageSize ≤ extent.pageCount * pageSize := Nat.mul_le_mul_right _ enough
  have bound : extent.start + extent.pageCount * pageSize < size := small
  have address : saturatingAdd extent.start (saturatingMul pageCount pageSize) =
      extent.start + pageCount * pageSize := by
    rw [saturatingMul_of_lt (by omega), saturatingAdd_of_lt (by omega)]
  simp only [takeFromExtent, getD_middle, set_middle, address, Interval.rest]
  by_cases whole : extent.pageCount - pageCount = 0
  · have same : extent.pageCount = pageCount := by omega
    rw [if_pos whole, if_neg (by simp [FreeExtent.interval, same]), removeFreeExtent,
      List.eraseIdx_append_of_length_le (by simp)]
    simp
  · have less : pageCount * pageSize < extent.interval.length :=
      Nat.mul_lt_mul_of_pos_right (by omega) (by decide)
    rw [if_neg whole, if_pos less]
    simp [FreeExtent.interval, Nat.sub_mul]

end

end CodexOS.Memory
