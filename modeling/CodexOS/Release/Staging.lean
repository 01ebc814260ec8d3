import CodexOS.Release.KernelImage
import CodexOS.Lib.Effect
import Mathlib.Data.List.TakeWhile

/-! # Where staging writes

The firmware gives the loader the pages from the lowest page of a segment to the highest
rounded end of one. The loader clears them, copies what the file has of each segment, as
long as the file has it, and applies the relocations.
-/

namespace CodexOS.Release

open Effect Bytes Word64

section

variable {segment : KernelImageSegment} {segments : List KernelImageSegment} {bytes : Bytes}

/-- The segment takes part in the image. -/
def occupies (segment : KernelImageSegment) : Bool :=
  segment.memorySize ≠ 0

/-- The rounded end of a segment. -/
def segmentEnd (segment : KernelImageSegment) : Nat :=
  alignUp (saturatingAdd segment.virtualAddress segment.memorySize)

structure Spans (segments : List KernelImageSegment) (before span : Nat × Nat) : Prop where
  lower : span.1 ≤ before.1
  upper : before.2 ≤ span.2
  base_le : ∀ segment ∈ segments, occupies segment = true →
    span.1 ≤ alignDown segment.virtualAddress
  le_end : ∀ segment ∈ segments, occupies segment = true → segmentEnd segment ≤ span.2
  base_of : span.1 = before.1 ∨
    ∃ segment ∈ segments, occupies segment = true ∧ span.1 = alignDown segment.virtualAddress
  end_of : span.2 = before.2 ∨
    ∃ segment ∈ segments, occupies segment = true ∧ span.2 = segmentEnd segment

theorem spans_imageSpan (segments : List KernelImageSegment) :
    Spans segments (maxValue, 0) (imageSpan segments) := by
  unfold imageSpan
  generalize (maxValue, 0) = before
  induction segments generalizing before with
  | nil => exact ⟨Nat.le_refl _, Nat.le_refl _, nofun, nofun, .inl rfl, .inl rfl⟩
  | cons segment segments ih =>
    obtain ⟨base, stop⟩ := before
    rw [List.foldl_cons]
    dsimp only
    by_cases empty : segment.memorySize = 0
    · rw [if_pos empty]
      have rest := ih (base, stop)
      have skipped : occupies segment = false := by simp [occupies, empty]
      constructor
      case lower => exact rest.lower
      case upper => exact rest.upper
      case base_le => simpa [skipped] using rest.base_le
      case le_end => simpa [skipped] using rest.le_end
      case base_of => simpa [skipped] using rest.base_of
      case end_of => simpa [skipped] using rest.end_of
    · rw [if_neg empty]
      have counted : occupies segment = true := by simp [occupies, empty]
      obtain ⟨lower, upper, base_le, le_end, base_of, end_of⟩ :=
        ih (min base (alignDown segment.virtualAddress), max stop (segmentEnd segment))
      constructor
      case lower => exact lower.trans (Nat.min_le_left _ _)
      case upper => exact (Nat.le_max_left _ _).trans upper
      case base_le =>
        intro other mem occupied
        rcases List.mem_cons.mp mem with rfl | mem
        · exact lower.trans (Nat.min_le_right _ _)
        · exact base_le other mem occupied
      case le_end =>
        intro other mem occupied
        rcases List.mem_cons.mp mem with rfl | mem
        · exact (Nat.le_max_right _ _).trans upper
        · exact le_end other mem occupied
      case base_of =>
        obtain same | ⟨other, mem, occupied, same⟩ := base_of
        · rcases Nat.le_total base (alignDown segment.virtualAddress) with le | le
          · exact .inl (same.trans (Nat.min_eq_left le))
          · exact .inr ⟨segment, by simp, counted, same.trans (Nat.min_eq_right le)⟩
        · exact .inr ⟨other, by simp [mem], occupied, same⟩
      case end_of =>
        obtain same | ⟨other, mem, occupied, same⟩ := end_of
        · rcases Nat.le_total (segmentEnd segment) stop with le | le
          · exact .inl (same.trans (Nat.max_eq_left le))
          · exact .inr ⟨segment, by simp, counted, same.trans (Nat.max_eq_right le)⟩
        · exact .inr ⟨other, by simp [mem], occupied, same⟩

theorem alignDown_mod_page (value : Nat) : alignDown value % pageSize = 0 := by
  simp only [alignDown, pageSize]
  omega

theorem alignDown_le (value : Nat) : alignDown value ≤ value :=
  Nat.sub_le _ _

/-- The end of a segment is rounded up, but never beyond the last page. -/
theorem segmentEnd_cases (segment : KernelImageSegment) :
    (segment.virtualAddress + segment.memorySize ≤ size - pageSize →
        segment.virtualAddress + segment.memorySize ≤ segmentEnd segment) ∧
      (size - pageSize < segment.virtualAddress + segment.memorySize →
        segmentEnd segment = size - pageSize) ∧ segmentEnd segment ≤ size - pageSize := by
  simp only [segmentEnd, alignUp, alignDown, saturatingAdd, maxValue, size, pageSize]
  omega

def imagePages (segments : List KernelImageSegment) : Nat :=
  ((imageSpan segments).2 - (imageSpan segments).1) / pageSize

/-- The span is not empty. -/
def HasSpan (segments : List KernelImageSegment) : Prop :=
  (imageSpan segments).1 ≠ maxValue ∧ (imageSpan segments).1 < (imageSpan segments).2

theorem hasSpan_iff (bounded : ∀ segment ∈ segments, segment.virtualAddress < size) :
    HasSpan segments ↔
      ∃ segment ∈ segments, occupies segment = true ∧ segment.virtualAddress < size - pageSize := by
  have spans := spans_imageSpan segments
  constructor
  · intro ⟨notMax, nonempty⟩
    obtain same | ⟨segment, mem, occupied, isBase⟩ := spans.base_of
    · exact absurd same notMax
    · refine ⟨segment, mem, occupied, ?_⟩
      obtain same | ⟨other, -, -, isEnd⟩ := spans.end_of
      · rw [same] at nonempty
        exact absurd nonempty (Nat.not_lt_zero _)
      · have below := (segmentEnd_cases other).2.2
        have small := bounded segment mem
        rw [← isEnd] at below
        have low : alignDown segment.virtualAddress < size - pageSize := by
          rw [← isBase]
          omega
        simp only [alignDown, size, pageSize] at *
        omega
  · intro ⟨segment, mem, occupied, low⟩
    have above := spans.base_le segment mem occupied
    have below := spans.le_end segment mem occupied
    have down := alignDown_le segment.virtualAddress
    have ends := segmentEnd_cases segment
    have positive : segment.memorySize ≠ 0 := by simpa [occupies] using occupied
    refine ⟨?_, ?_⟩
    · simp only [maxValue, size, pageSize] at *
      omega
    · by_cases short : segment.virtualAddress + segment.memorySize ≤ size - pageSize
      · have := ends.1 short
        omega
      · rw [ends.2.1 (Nat.lt_of_not_le short)] at below
        omega

theorem imageSpan_aligned (nonempty : HasSpan segments) : (imageSpan segments).1 % pageSize = 0 := by
  obtain same | ⟨segment, -, -, isBase⟩ := (spans_imageSpan segments).base_of
  · exact absurd same nonempty.1
  · rw [isBase, alignDown_mod_page]

theorem imagePages_mul (nonempty : HasSpan segments) :
    imagePages segments * pageSize = (imageSpan segments).2 - (imageSpan segments).1 := by
  have spans := spans_imageSpan segments
  have baseAligned := imageSpan_aligned nonempty
  have endAligned : (imageSpan segments).2 % pageSize = 0 := by
    obtain same | ⟨segment, -, -, isEnd⟩ := spans.end_of
    · rw [same, Nat.zero_mod]
    · rw [isEnd]
      exact alignDown_mod_page _
  simp only [imagePages, pageSize] at *
  omega

end

section

variable {α : Type} {segments : List KernelImageSegment} {bytes : Bytes} {write : MemoryWrite}
  {imageBase allocationPhys spanBytes start length : Nat} {writes writes' : List MemoryWrite}

/-- Every byte of the write lies in these pages. -/
def MemoryWrite.Within (write : MemoryWrite) (start length : Nat) : Prop :=
  ∀ place, write.address ≤ place → place < write.address + write.bytes.length →
    start ≤ place ∧ place < start + length

/-- What was written since lies in these pages. -/
def AddsWithin (start length : Nat) (writes writes' : List MemoryWrite) : Prop :=
  ∃ added, writes' = writes ++ added ∧ ∀ write ∈ added, write.Within start length

theorem AddsWithin.refl (writes : List MemoryWrite) : AddsWithin start length writes writes :=
  ⟨[], (List.append_nil _).symm, nofun⟩

instance : Std.Refl (AddsWithin start length) where
  refl := .refl

instance : IsTrans (List MemoryWrite) (AddsWithin start length) where
  trans := by
    rintro writes _ _ ⟨first, rfl, firstWithin⟩ ⟨second, rfl, secondWithin⟩
    refine ⟨first ++ second, List.append_assoc _ _ _, fun write mem => ?_⟩
    rcases List.mem_append.mp mem with mem | mem
    · exact firstWithin write mem
    · exact secondWithin write mem

theorem Staging.write_run (address : Nat) (bytes : Bytes) (writes : List MemoryWrite) :
    (Staging.write address bytes).run writes = .ok () (writes ++ [⟨address, bytes⟩]) :=
  rfl

theorem Staging.ofOption_some (a : α) : Staging.ofOption (some a) = pure a :=
  rfl

theorem Staging.moves_ofOption (value : Option α) :
    Moves (AddsWithin start length) (Staging.ofOption value) := by
  cases value with
  | none => exact .throw ()
  | some value => exact .pure value

theorem Staging.of_ofOption (run : (Staging.ofOption value).run writes = .ok a writes') :
    value = some a ∧ writes' = writes := by
  cases value with
  | none => cases run
  | some value =>
    cases run
    exact ⟨rfl, rfl⟩

/-- Where a relocation is applied. -/
def Relocation.Fits (relocation : Relocation) (imageBase spanBytes : Nat) : Prop :=
  imageBase ≤ relocation.offset.toNat ∧
    relocation.offset.toNat + 8 ≤ imageBase + spanBytes

def relocationWrite (imageBase allocationPhys : Nat) (relocation : Relocation) : MemoryWrite where
  address := allocationPhys + (relocation.offset.toNat - imageBase)
  bytes := le 8 relocation.addend.toNat

theorem applyRelocations_cons (relocation : Relocation) (relocations : List Relocation)
    (writes : List MemoryWrite) :
    (applyRelocations imageBase allocationPhys spanBytes (relocation :: relocations)).run writes =
        .error () writes ∨
      relocation.Fits imageBase spanBytes ∧
        (applyRelocations imageBase allocationPhys spanBytes
          (relocation :: relocations)).run writes =
          (do
            let applied ← applyRelocations imageBase allocationPhys spanBytes relocations
            pure (applied + 1)).run
            (writes ++ [relocationWrite imageBase allocationPhys relocation]) := by
  rw [applyRelocations]
  by_cases foreign : relocation.type ≠ 8 ∨ relocation.symbolTableIndex ≠ 0
  · rw [if_pos foreign]
    exact .inl rfl
  rw [if_neg foreign]
  cases isOffset : checkedSub relocation.offset.toNat imageBase with
  | none => exact .inl rfl
  | some targetOffset =>
    obtain ⟨above, rfl⟩ := checkedSub_eq_some.mp isOffset
    rw [Staging.ofOption_some, pure_bind]
    cases isEnd : checkedAdd (relocation.offset.toNat - imageBase) 8 with
    | none => exact .inl rfl
    | some targetEnd =>
      obtain ⟨-, rfl⟩ := checkedAdd_eq_some.mp isEnd
      rw [Staging.ofOption_some, pure_bind]
      by_cases beyond : relocation.offset.toNat - imageBase + 8 > spanBytes
      · rw [if_pos beyond]
        exact .inl rfl
      rw [if_neg beyond]
      cases isAddress : checkedAdd allocationPhys (relocation.offset.toNat - imageBase) with
      | none => exact .inl rfl
      | some targetAddress =>
        obtain ⟨-, rfl⟩ := checkedAdd_eq_some.mp isAddress
        exact .inr ⟨⟨above, by omega⟩, rfl⟩

theorem Relocation.Fits.within (fits : relocation.Fits imageBase spanBytes) :
    (relocationWrite imageBase allocationPhys relocation).Within allocationPhys spanBytes := by
  intro place above below
  obtain ⟨low, high⟩ := fits
  simp only [relocationWrite, length_le] at above below
  omega

theorem moves_applyRelocations (relocations : List Relocation) :
    Moves (AddsWithin allocationPhys spanBytes)
      (applyRelocations imageBase allocationPhys spanBytes relocations) := by
  induction relocations with
  | nil => exact .pure 0
  | cons relocation relocations ih =>
    intro writes
    obtain failed | ⟨fits, applied⟩ := applyRelocations_cons relocation relocations writes
    · rw [after_error failed]
      exact .refl writes
    · have rest := ih.bind (fun applied => Moves.pure (applied + 1))
        (writes ++ [relocationWrite imageBase allocationPhys relocation])
      rw [after, ← applied, ← after] at rest
      have first : AddsWithin allocationPhys spanBytes writes
          (writes ++ [relocationWrite imageBase allocationPhys relocation]) :=
        ⟨_, rfl, by simpa using fits.within⟩
      exact IsTrans.trans _ _ _ first rest

theorem of_applyRelocations
    (run : (applyRelocations imageBase allocationPhys spanBytes relocations).run writes =
      .ok applied writes') :
    ∀ relocation ∈ relocations, relocation.Fits imageBase spanBytes := by
  induction relocations generalizing writes writes' applied with
  | nil => nofun
  | cons relocation relocations ih =>
    obtain failed | ⟨fits, first⟩ := applyRelocations_cons relocation relocations writes
    · rw [failed] at run
      cases run
    · rw [first] at run
      obtain ⟨_, _, rest, run⟩ := of_bind_ok run
      exact List.forall_mem_cons.mpr ⟨fits, ih rest⟩

theorem moves_relocateSections (sections : List (Option SectionData)) :
    Moves (AddsWithin allocationPhys spanBytes)
      (relocateSections imageBase allocationPhys spanBytes sections) := by
  induction sections with
  | nil => exact .pure 0
  | cons first sections ih =>
    match first with
    | none => exact .throw ()
    | some .rela32 => exact .throw ()
    | some .other => exact ih
    | some (.rela64 relocations) =>
      exact (moves_applyRelocations relocations).bind fun here =>
        ih.bind fun later => .pure (here + later)

theorem of_relocateSections
    (run : (relocateSections imageBase allocationPhys spanBytes sections).run writes =
      .ok applied writes') :
    ∀ relocations, some (.rela64 relocations) ∈ sections → ∀ relocation ∈ relocations,
      relocation.Fits imageBase spanBytes := by
  induction sections generalizing writes writes' applied with
  | nil => nofun
  | cons first sections ih =>
    match first with
    | none => cases run
    | some .rela32 => cases run
    | some .other =>
      intro relocations mem
      rcases List.mem_cons.mp mem with same | mem
      · cases same
      · exact ih run relocations mem
    | some (.rela64 relocations) =>
      obtain ⟨here, _, applied, run⟩ := of_bind_ok run
      obtain ⟨later, _, rest, -⟩ := of_bind_ok run
      intro others mem
      rcases List.mem_cons.mp mem with same | mem
      · cases same
        exact of_applyRelocations applied
      · exact ih rest others mem

end

section

variable {segments : List KernelImageSegment} {bytes : Bytes} {segment : KernelImageSegment}
  {imageBase allocationPhys : Nat} {writes : List MemoryWrite}

/-- The file has all that the segment takes from it. -/
def inFile (bytes : Bytes) (segment : KernelImageSegment) : Bool :=
  segment.fileOffset + segment.fileSize < size ∧
    segment.fileOffset + segment.fileSize ≤ bytes.length

/-- The segments that are copied: those before the first one that the file does not have. -/
def copiedSegments (bytes : Bytes) (segments : List KernelImageSegment) :
    List KernelImageSegment :=
  (segments.filter occupies).takeWhile (inFile bytes)

def segmentWrite (bytes : Bytes) (imageBase allocationPhys : Nat) (segment : KernelImageSegment) :
    MemoryWrite where
  address := allocationPhys + (segment.virtualAddress - imageBase)
  bytes := slice bytes segment.fileOffset segment.fileSize

theorem copySegments_run (segments : List KernelImageSegment) (writes : List MemoryWrite) :
    (copySegments bytes imageBase allocationPhys segments).run writes =
      if (segments.filter occupies).all (inFile bytes) then
        .ok () (writes ++ (copiedSegments bytes segments).map
          (segmentWrite bytes imageBase allocationPhys))
      else
        .error () (writes ++ (copiedSegments bytes segments).map
          (segmentWrite bytes imageBase allocationPhys)) := by
  induction segments generalizing writes with
  | nil =>
    rw [List.filter_nil, List.all_nil, if_pos rfl]
    exact congrArg _ (List.append_nil _).symm
  | cons segment segments ih =>
    rw [copySegments]
    by_cases empty : segment.memorySize = 0
    · have skipped : occupies segment = false := by simp [occupies, empty]
      rw [if_pos empty, ih, copiedSegments, copiedSegments, List.filter_cons, skipped]
      rfl
    have counted : occupies segment = true := by simp [occupies, empty]
    rw [if_neg empty, copiedSegments, List.filter_cons, if_pos counted, List.all_cons,
      List.takeWhile_cons]
    cases isEnd : checkedAdd segment.fileOffset segment.fileSize with
    | none =>
      have missing : inFile bytes segment = false := by
        simp only [checkedAdd, ite_eq_right_iff, reduceCtorEq, imp_false] at isEnd
        simp [inFile, isEnd]
      rw [missing]
      exact congrArg _ (List.append_nil _).symm
    | some fileEnd =>
      obtain ⟨small, rfl⟩ := checkedAdd_eq_some.mp isEnd
      rw [Staging.ofOption_some, pure_bind]
      by_cases beyond : segment.fileOffset + segment.fileSize > bytes.length
      · have missing : inFile bytes segment = false := by
          simpa [inFile] using fun _ => beyond
        rw [if_pos beyond, missing]
        exact congrArg _ (List.append_nil _).symm
      · have present : inFile bytes segment = true := by
          simpa [inFile] using ⟨small, Nat.le_of_not_lt beyond⟩
        rw [if_neg beyond, present, Bool.true_and, if_pos rfl, List.map_cons]
        have copied := ih (writes ++ [segmentWrite bytes imageBase allocationPhys segment])
        rw [List.append_assoc, List.singleton_append] at copied
        exact copied

end

section

variable {platform : Platform} {segments : List KernelImageSegment} {bytes : Bytes}
  {segment : KernelImageSegment} {pages : Nat} {span : StagedSpan} {writes : List MemoryWrite}

def spanBytes (segments : List KernelImageSegment) : Nat :=
  (imageSpan segments).2 - (imageSpan segments).1

/-- What staging does once it has its pages. -/
def fillPages (platform : Platform) (segments : List KernelImageSegment) (bytes : Bytes)
    (pages : Nat) : Staging StagedSpan := do
  Staging.write pages (zeros (spanBytes segments))
  copySegments bytes (imageSpan segments).1 pages segments
  let relocationCount ←
    applyKernelRelocations platform bytes (imageSpan segments).1 pages (spanBytes segments)
  pure
    { imageBase := (imageSpan segments).1
      pageCount := imagePages segments
      allocationPhys := pages
      relocationCount }

theorem stageKernelImageSpan_of_granted (nonempty : HasSpan segments)
    (granted : allocateKernelPages platform (imageSpan segments).1 (imagePages segments) =
      some pages) :
    stageKernelImageSpan platform segments bytes = fillPages platform segments bytes pages := by
  have proceeds : ¬((imageSpan segments).1 = maxValue ∨
      (imageSpan segments).2 ≤ (imageSpan segments).1) := by
    have := nonempty.2
    exact fun stops => stops.elim nonempty.1 fun le => by omega
  unfold stageKernelImageSpan
  dsimp only
  rw [if_neg proceeds]
  change (Staging.ofOption (allocateKernelPages platform (imageSpan segments).1
    (imagePages segments)) >>= _) = _
  rw [granted, Staging.ofOption_some, pure_bind]
  rfl

theorem stageKernelImageSpan_refused
    (refused : HasSpan segments →
      allocateKernelPages platform (imageSpan segments).1 (imagePages segments) = none) :
    (stageKernelImageSpan platform segments bytes).run [] = .error () [] := by
  unfold stageKernelImageSpan
  dsimp only
  by_cases stops : (imageSpan segments).1 = maxValue ∨
      (imageSpan segments).2 ≤ (imageSpan segments).1
  · rw [if_pos stops]
    rfl
  · have nonempty : HasSpan segments := by
      rw [not_or] at stops
      exact ⟨stops.1, Nat.lt_of_not_le stops.2⟩
    rw [if_neg stops]
    change (Staging.ofOption (allocateKernelPages platform (imageSpan segments).1
      (imagePages segments)) >>= _).run [] = _
    rw [refused nonempty]
    rfl

theorem moves_applyKernelRelocations :
    Moves (AddsWithin allocationPhys length)
      (applyKernelRelocations platform bytes imageBase allocationPhys length) :=
  (Staging.moves_ofOption _).bind fun elf => moves_relocateSections elf.sections

/-- The pages are cleared and the copies made; what follows stays inside the span. -/
theorem fillPages_writes (platform : Platform) (segments : List KernelImageSegment) (bytes : Bytes)
    (pages : Nat) :
    AddsWithin pages (spanBytes segments)
      ({ address := pages, bytes := zeros (spanBytes segments) } ::
        (copiedSegments bytes segments).map (segmentWrite bytes (imageSpan segments).1 pages))
      (after (fillPages platform segments bytes pages) []) := by
  have copies := @copySegments_run bytes (imageSpan segments).1 pages segments
    ([] ++ [{ address := pages, bytes := zeros (spanBytes segments) }])
  split at copies
  · rw [after, fillPages, bind_ok (Staging.write_run _ _ _), bind_ok copies, ← after]
    refine Moves.bind moves_applyKernelRelocations (fun count => ?_) _
    exact .pure _
  · rw [after, fillPages, bind_ok (Staging.write_run _ _ _), bind_error copies]
    exact .refl _

theorem of_fillPages (run : (fillPages platform segments bytes pages).run [] = .ok span writes) :
    (∀ segment ∈ segments, occupies segment = true → inFile bytes segment = true) ∧
      ∀ elf, platform.elfFile bytes = some elf → ∀ relocations,
        some (.rela64 relocations) ∈ elf.sections → ∀ relocation ∈ relocations,
          relocation.Fits (imageSpan segments).1 (spanBytes segments) := by
  obtain ⟨_, _, -, run⟩ := of_bind_ok run
  obtain ⟨_, _, copied, run⟩ := of_bind_ok run
  obtain ⟨_, _, relocated, -⟩ := of_bind_ok run
  obtain ⟨elf, _, isElf, relocated⟩ := of_bind_ok relocated
  refine ⟨fun segment mem occupied => ?_, fun other isOther => ?_⟩
  · rw [copySegments_run] at copied
    split at copied
    · rename_i all
      exact List.all_eq_true.mp all segment (List.mem_filter.mpr ⟨mem, occupied⟩)
    · cases copied
  · obtain ⟨isElf, -⟩ := Staging.of_ofOption isElf
    cases isElf.symm.trans isOther
    exact of_relocateSections relocated

/-- What the file has of the segment ends inside the span. -/
def CopyFits (segments : List KernelImageSegment) (segment : KernelImageSegment) : Prop :=
  segment.fileSize = 0 ∨ segment.virtualAddress + segment.fileSize ≤ (imageSpan segments).2

/-- Staging writes only to the pages it got, and it refuses an image of which a copy or a
    relocation does not fit there. -/
structure StagesInside (platform : Platform) (segments : List KernelImageSegment) (bytes : Bytes) :
    Prop where
  writes : ∀ write ∈ after (stageKernelImageSpan platform segments bytes) [], ∃ pages,
    allocateKernelPages platform (imageSpan segments).1 (imagePages segments) = some pages ∧
      write.Within pages (imagePages segments * pageSize)
  refuses : ∀ span, outcome (stageKernelImageSpan platform segments bytes) [] = .ok span →
    (∀ segment ∈ segments, occupies segment = true → CopyFits segments segment) ∧
      ∀ elf, platform.elfFile bytes = some elf → ∀ relocations,
        some (.rela64 relocations) ∈ elf.sections → ∀ relocation ∈ relocations,
          relocation.Fits (imageSpan segments).1 (spanBytes segments)

/-- Either every segment lies in the last page, and nothing is staged, or each copy ends before the
    rounded end of some segment. -/
def CopiesFit (bytes : Bytes) (segments : List KernelImageSegment) : Prop :=
  (∀ segment ∈ segments, occupies segment = true → size - pageSize ≤ segment.virtualAddress) ∨
    ∀ segment ∈ copiedSegments bytes segments, segment.fileSize = 0 ∨
      ∃ other ∈ segments, occupies other = true ∧
        segment.virtualAddress + segment.fileSize ≤ segmentEnd other

theorem of_mem_copiedSegments (mem : segment ∈ copiedSegments bytes segments) :
    segment ∈ segments ∧ occupies segment = true ∧ inFile bytes segment = true := by
  have kept := (List.takeWhile_sublist _).subset mem
  obtain ⟨mem', occupied⟩ := List.mem_filter.mp kept
  exact ⟨mem', occupied, List.mem_takeWhile_imp mem⟩

theorem mem_copiedSegments
    (all : ∀ segment ∈ segments, occupies segment = true → inFile bytes segment = true)
    (mem : segment ∈ segments) (occupied : occupies segment = true) :
    segment ∈ copiedSegments bytes segments := by
  have kept : copiedSegments bytes segments = segments.filter occupies := by
    refine List.takeWhile_eq_self_iff.mpr fun other otherMem => ?_
    obtain ⟨mem', occupied'⟩ := List.mem_filter.mp otherMem
    exact all other mem' occupied'
  rw [kept]
  exact List.mem_filter.mpr ⟨mem, occupied⟩

theorem segmentWrite_within_iff (nonempty : HasSpan segments)
    (copied : segment ∈ copiedSegments bytes segments) :
    (segmentWrite bytes (imageSpan segments).1 pages segment).Within pages (spanBytes segments) ↔
      CopyFits segments segment := by
  obtain ⟨mem, occupied, present⟩ := of_mem_copiedSegments copied
  have low : (imageSpan segments).1 ≤ segment.virtualAddress :=
    ((spans_imageSpan segments).base_le segment mem occupied).trans (alignDown_le _)
  have long : (slice bytes segment.fileOffset segment.fileSize).length = segment.fileSize := by
    rw [inFile, decide_eq_true_eq] at present
    exact length_slice present.2
  have := nonempty.2
  rw [MemoryWrite.Within, segmentWrite, long, CopyFits, spanBytes]
  dsimp only
  constructor
  · intro within
    by_contra outside
    have last := within (pages + (segment.virtualAddress - (imageSpan segments).1) +
      (segment.fileSize - 1)) (by omega) (by omega)
    omega
  · intro fits place above below
    omega

theorem copyFits_iff (segment : KernelImageSegment) :
    CopyFits segments segment ↔ segment.fileSize = 0 ∨ ∃ other ∈ segments, occupies other = true ∧
      segment.virtualAddress + segment.fileSize ≤ segmentEnd other := by
  have spans := spans_imageSpan segments
  constructor
  · rintro (empty | fits)
    · exact .inl empty
    · obtain same | ⟨other, mem, occupied, isEnd⟩ := spans.end_of
      · rw [same] at fits
        exact .inl (Nat.eq_zero_of_add_eq_zero_left (Nat.le_zero.mp fits))
      · exact .inr ⟨other, mem, occupied, isEnd ▸ fits⟩
  · rintro (empty | ⟨other, mem, occupied, fits⟩)
    · exact .inl empty
    · exact .inr (fits.trans (spans.le_end other mem occupied))

theorem stagesInside_of_refused
    (refused : HasSpan segments →
      allocateKernelPages platform (imageSpan segments).1 (imagePages segments) = none) :
    StagesInside platform segments bytes := by
  have run := @stageKernelImageSpan_refused platform segments bytes refused
  constructor
  · rw [after_error run]
    nofun
  · rw [outcome_error run]
    nofun

theorem stagesInside_iff_of_granted (nonempty : HasSpan segments)
    (granted : allocateKernelPages platform (imageSpan segments).1 (imagePages segments) =
      some pages) :
    StagesInside platform segments bytes ↔
      ∀ segment ∈ copiedSegments bytes segments, CopyFits segments segment := by
  obtain ⟨later, isAfter, laterWithin⟩ := fillPages_writes platform segments bytes pages
  rw [← stageKernelImageSpan_of_granted nonempty granted] at isAfter
  have room : imagePages segments * pageSize = spanBytes segments := imagePages_mul nonempty
  constructor
  · intro inside segment copied
    obtain ⟨pages', granted', within⟩ :=
      inside.writes (segmentWrite bytes (imageSpan segments).1 pages segment) (by
        rw [isAfter]
        exact List.mem_append_left _ (List.mem_cons_of_mem _ (List.mem_map_of_mem copied)))
    cases granted.symm.trans granted'
    rw [room] at within
    exact (segmentWrite_within_iff nonempty copied).mp within
  · intro fit
    constructor
    · intro write mem
      refine ⟨pages, granted, room.symm ▸ ?_⟩
      rw [isAfter] at mem
      rcases List.mem_append.mp mem with mem | mem
      · rcases List.mem_cons.mp mem with rfl | mem
        · intro place above below
          rw [length_zeros] at below
          exact ⟨above, below⟩
        · obtain ⟨segment, copied, rfl⟩ := List.mem_map.mp mem
          exact (segmentWrite_within_iff nonempty copied).mpr (fit segment copied)
      · exact laterWithin write mem
    · intro span staged
      rw [stageKernelImageSpan_of_granted nonempty granted] at staged
      obtain ⟨present, relocated⟩ := of_fillPages (run_of_outcome_ok staged)
      exact ⟨fun segment mem occupied => fit segment (mem_copiedSegments present mem occupied),
        relocated⟩

/-- A staged image has the pages of its span, and every segment its place in them. -/
theorem of_stageKernelSegments (staged : stageKernelSegments platform info bytes = some image) :
    HasSpan info.segments ∧ ∃ pages,
      allocateKernelPages platform (imageSpan info.segments).1 (imagePages info.segments) =
        some pages ∧
      image.loadBase = pages ∧ image.loadPageCount = imagePages info.segments ∧
      image.segments = info.segments.map (placeSegment (imageSpan info.segments).1 pages) := by
  unfold stageKernelSegments at staged
  split at staged
  · cases staged
  · rename_i span writes run
    cases staged
    have nonempty : HasSpan info.segments := by
      by_contra empty
      rw [stageKernelImageSpan_refused fun some => absurd some empty] at run
      cases run
    cases granted : allocateKernelPages platform (imageSpan info.segments).1
        (imagePages info.segments) with
    | none =>
      rw [stageKernelImageSpan_refused fun _ => granted] at run
      cases run
    | some pages =>
      rw [stageKernelImageSpan_of_granted nonempty granted] at run
      obtain ⟨_, _, -, run⟩ := of_bind_ok run
      obtain ⟨_, _, -, run⟩ := of_bind_ok run
      obtain ⟨_, _, -, run⟩ := of_bind_ok run
      cases run
      exact ⟨nonempty, pages, rfl, rfl, rfl, rfl⟩

theorem parseKernelImage_bounded (parsed : parseKernelImage platform bytes = some info) :
    ∀ segment ∈ info.segments, segment.virtualAddress < size := by
  unfold parseKernelImage at parsed
  split at parsed
  · cases parsed
  · cases parsed
    intro segment mem
    obtain ⟨header, -, rfl⟩ := List.mem_map.mp mem
    exact header.virtualAddr.toNat_lt

/-- Whatever the firmware answers, staging an ELF file keeps to its pages exactly when each copy
    ends before the rounded end of a segment, which nothing checks: the pages are counted from the
    sizes in memory, the copies from the sizes in the file. -/
theorem staging_inside_iff {info : KernelImageInfo}
    (parsed : parseKernelImage platform bytes = some info) :
    (∀ allocatePages, StagesInside { platform with allocatePages } info.segments bytes) ↔
      CopiesFit bytes info.segments := by
  have bounded := parseKernelImage_bounded parsed
  by_cases nonempty : HasSpan info.segments
  · have low := (hasSpan_iff bounded).mp nonempty
    have fits : CopiesFit bytes info.segments ↔
        ∀ segment ∈ copiedSegments bytes info.segments, CopyFits info.segments segment := by
      simp only [CopiesFit, copyFits_iff]
      refine ⟨fun fit => fit.resolve_left fun last => ?_, .inr⟩
      obtain ⟨segment, mem, occupied, below⟩ := low
      have := last segment mem occupied
      omega
    rw [fits]
    constructor
    · intro inside
      have granted : allocateKernelPages { platform with allocatePages := fun _ _ => some pageSize }
          (imageSpan info.segments).1 (imagePages info.segments) = some pageSize := by
        unfold allocateKernelPages
        split <;> rfl
      exact (stagesInside_iff_of_granted nonempty granted).mp (inside _)
    · intro fit allocatePages
      cases granted : allocateKernelPages { platform with allocatePages }
          (imageSpan info.segments).1 (imagePages info.segments) with
      | none => exact stagesInside_of_refused fun _ => granted
      | some pages => exact (stagesInside_iff_of_granted nonempty granted).mpr fit
  · refine ⟨fun _ => .inl fun segment mem occupied => ?_, fun _ _ =>
      stagesInside_of_refused fun some => absurd some nonempty⟩
    by_contra below
    exact nonempty ((hasSpan_iff bounded).mpr ⟨segment, mem, occupied, Nat.lt_of_not_le below⟩)

end

/-- One segment, the last byte of a page, of which the file has this many bytes. -/
def tailPlatform (fileSize : UInt64) : Platform where
  sha256 _ := Vector.replicate 32 0
  validKey _ := false
  verifyStrict _ _ _ := false
  trustedPublicKeyHex := none
  elfFile _ := some
    { entryPoint := 0x200fff
      phCount := 1
      programHeaders :=
        [{ isLoad := true, virtualAddr := 0x200fff, physicalAddr := 0x200fff, offset := 0, fileSize,
           memSize := 1, isRead := true, isWrite := false, isExecute := true }]
      sections := [] }
  allocatePages _ _ := some 0x200000

/-- The file has one byte more than the segment, and it is written behind the only page. -/
theorem copy_leaves_the_pages :
    ∃ info span, parseKernelImage (tailPlatform 2) [0x7f, 0x45] = some info ∧
      outcome (stageKernelImageSpan (tailPlatform 2) info.segments [0x7f, 0x45]) [] = .ok span ∧
      ∃ write ∈ after (stageKernelImageSpan (tailPlatform 2) info.segments [0x7f, 0x45]) [],
        ¬write.Within span.allocationPhys (span.pageCount * pageSize) := by
  obtain ⟨info, parsed⟩ : ∃ info, parseKernelImage (tailPlatform 2) [0x7f, 0x45] = some info :=
    ⟨_, rfl⟩
  have staged : outcome (stageKernelImageSpan (tailPlatform 2) info.segments [0x7f, 0x45]) [] =
      .ok ⟨0x200000, 1, 0x200000, 0⟩ := by
    cases parsed
    decide +kernel
  have copied : { address := 0x200fff, bytes := [0x7f, 0x45] } ∈
      after (stageKernelImageSpan (tailPlatform 2) info.segments [0x7f, 0x45]) [] := by
    cases parsed
    decide +kernel
  refine ⟨info, _, parsed, staged, _, copied, fun within => ?_⟩
  have behind := within 0x201000 (by decide) (by decide)
  exact absurd behind.2 (by decide)

/-- With one byte in the file the copy stays in its page, and with two it does not. -/
theorem staging_inside_iff_tail :
    (∃ info, parseKernelImage (tailPlatform 1) [0x7f] = some info ∧
      ∀ allocatePages, StagesInside { tailPlatform 1 with allocatePages } info.segments [0x7f]) ∧
    ∃ info, parseKernelImage (tailPlatform 2) [0x7f, 0x45] = some info ∧
      ¬∀ allocatePages,
        StagesInside { tailPlatform 2 with allocatePages } info.segments [0x7f, 0x45] := by
  refine ⟨⟨_, rfl, (staging_inside_iff rfl).mpr (.inr fun segment mem => .inr ?_)⟩,
    _, rfl, fun inside => ?_⟩
  · obtain ⟨mem', occupied, -⟩ := of_mem_copiedSegments mem
    refine ⟨segment, mem', occupied, ?_⟩
    rw [List.mem_singleton.mp mem']
    decide +kernel
  · obtain last | fits := (staging_inside_iff rfl).mp inside
    · exact absurd (last _ (List.mem_singleton.mpr rfl) rfl) (by decide)
    · obtain empty | ⟨other, mem, -, fits⟩ := fits (segmentOfHeader
        ⟨true, 0x200fff, 0x200fff, 0, 2, 1, true, false, true⟩) (by decide +kernel)
      · cases empty
      · rw [List.mem_singleton.mp mem] at fits
        exact absurd fits (by decide +kernel)

end CodexOS.Release
