import CodexOS.Vm.UserSpace
import CodexOS.Lib.Effect

/-! # User programs as ELF files

The reader of `user_elf`: a header of fixed layout, and a table of program headers, of
which those that are loaded become segments. What it reads of an accepted file is said
again by `loadHeaders`, without the checks.
-/

namespace CodexOS.UserElf

open Bytes Word64 Effect

def elfMagic : Bytes := [0x7f, 0x45, 0x4c, 0x46]
def elfClass64 : UInt8 := 2
def elfDataLe : UInt8 := 1
def elfVersionCurrentU8 : UInt8 := 1
def elfVersionCurrentU32 : Nat := 1
def etExec : Nat := 2
def emX8664 : Nat := 62
def ptLoad : Nat := 1
def pfX : Nat := 1
def pfW : Nat := 2
def pfR : Nat := 4
def elf64HeaderBytes : Nat := 64
def elf64ProgramHeaderBytes : Nat := 56
def maxLoadSegments : Nat := 16
def defaultLoadOffset : Nat := 0x1000

inductive UserElfError
  | imageTooSmall
  | badMagic
  | unsupportedClass
  | unsupportedEndian
  | unsupportedVersion
  | unsupportedType
  | unsupportedMachine
  | programHeaderTableOutOfBounds
  | unsupportedProgramHeaderSize
  | tooManyLoadSegments
  | missingLoadSegment
  | invalidLoadSegment
  | writableExecutableSegment
  | entryNotExecutable
  | addressOverflow
  deriving DecidableEq

structure UserElfSegment where
  virtualAddress : Nat
  data : Bytes
  memorySize : Nat
  writable : Bool
  executable : Bool
  deriving DecidableEq

structure UserElfImage where
  entry : Nat
  segments : List UserElfSegment
  deriving DecidableEq

/-! ## The reader -/

/-- A check of the reader. -/
def ensure (holds : Bool) (error : UserElfError) : Except UserElfError Unit :=
  if holds then .ok () else .error error

def readLe (width : Nat) (input : Bytes) (offset : Nat) : Except UserElfError Nat :=
  if offset + width ≤ input.length then .ok (leNat (slice input offset width))
  else .error .imageTooSmall

def readU16 : Bytes → Nat → Except UserElfError Nat := readLe 2
def readU32 : Bytes → Nat → Except UserElfError Nat := readLe 4
def readU64 : Bytes → Nat → Except UserElfError Nat := readLe 8

def isPowerOfTwo (value : Nat) : Bool :=
  value ≠ 0 && value &&& (value - 1) = 0

def validAlignment (fileOffset virtualAddress alignment : Nat) : Bool :=
  alignment ≤ 1 ||
    isPowerOfTwo alignment && fileOffset % alignment = virtualAddress % alignment

def isWritableExecutable (flags : Nat) : Bool :=
  flags &&& (pfW ||| pfX) = (pfW ||| pfX)

/-- The checks of a program header that is loaded. -/
def checkSegment (input : Bytes) (flags fileOffset virtualAddress fileSize memorySize
    alignment : Nat) : Except UserElfError Unit := do
  if memorySize = 0 ∨ fileSize > memorySize ∨ isWritableExecutable flags ∨
      ¬validAlignment fileOffset virtualAddress alignment then
    if isWritableExecutable flags then .error .writableExecutableSegment
    else .error .invalidLoadSegment
  else
    ensure (fileOffset + fileSize < size) .invalidLoadSegment
    ensure (fileOffset + fileSize ≤ input.length) .invalidLoadSegment
    ensure (virtualAddress + memorySize < size) .addressOverflow

/-- A program header that is loaded, at an offset of the file. -/
def parseSegment (input : Bytes) (offset : Nat) : Except UserElfError UserElfSegment := do
  let flags ← readU32 input (offset + 4)
  let fileOffset ← readU64 input (offset + 8)
  let virtualAddress ← readU64 input (offset + 16)
  let fileSize ← readU64 input (offset + 32)
  let memorySize ← readU64 input (offset + 40)
  let alignment ← readU64 input (offset + 48)
  checkSegment input flags fileOffset virtualAddress fileSize memorySize alignment
  return {
    virtualAddress
    data := slice input fileOffset fileSize
    memorySize
    writable := flags &&& pfW ≠ 0
    executable := flags &&& pfX ≠ 0 }

/-- The loop over the program headers that are left. -/
def parseSegments (input : Bytes) (phoff : Nat) :
    Nat → Nat → List UserElfSegment → Except UserElfError (List UserElfSegment)
  | _, 0, segments => .ok segments
  | index, left + 1, segments => do
    let kind ← readU32 input (phoff + index * elf64ProgramHeaderBytes)
    if kind ≠ ptLoad then parseSegments input phoff (index + 1) left segments
    else if segments.length ≥ maxLoadSegments then .error .tooManyLoadSegments
    else do
      let segment ← parseSegment input (phoff + index * elf64ProgramHeaderBytes)
      parseSegments input phoff (index + 1) left (segments ++ [segment])

/-- The checks of the header before its fields are used. -/
def checkHeader (input : Bytes) : Except UserElfError Unit := do
  ensure (elf64HeaderBytes ≤ input.length) .imageTooSmall
  ensure (slice input 0 4 = elfMagic) .badMagic
  ensure (byteAt input 4 = elfClass64) .unsupportedClass
  ensure (byteAt input 5 = elfDataLe) .unsupportedEndian
  ensure (byteAt input 6 = elfVersionCurrentU8) .unsupportedVersion
  let version ← readU32 input 20
  ensure (version = elfVersionCurrentU32) .unsupportedVersion
  let kind ← readU16 input 16
  ensure (kind = etExec) .unsupportedType
  let machine ← readU16 input 18
  ensure (machine = emX8664) .unsupportedMachine
  let headerBytes ← readU16 input 52
  ensure (headerBytes = elf64HeaderBytes) .imageTooSmall
  let programHeaderBytes ← readU16 input 54
  ensure (programHeaderBytes = elf64ProgramHeaderBytes) .unsupportedProgramHeaderSize

/-- The program can start in the file's part of the segment. -/
def startsIn (entry : Nat) (segment : UserElfSegment) : Bool :=
  segment.executable && segment.virtualAddress ≤ entry &&
    entry < saturatingAdd segment.virtualAddress segment.data.length

def parse (input : Bytes) : Except UserElfError UserElfImage := do
  checkHeader input
  let entry ← readU64 input 24
  let phoff ← readU64 input 32
  let phnum ← readU16 input 56
  ensure (phoff + phnum * elf64ProgramHeaderBytes < size) .programHeaderTableOutOfBounds
  ensure (phnum ≠ 0 ∧ phoff + phnum * elf64ProgramHeaderBytes ≤ input.length)
    .programHeaderTableOutOfBounds
  let segments ← parseSegments input phoff 0 phnum []
  ensure (!segments.isEmpty) .missingLoadSegment
  ensure (segments.any (startsIn entry)) .entryNotExecutable
  return { entry, segments }

/-! ## What an accepted file says -/

/-- The number at an offset of the file. -/
def field (width : Nat) (input : Bytes) (offset : Nat) : Nat :=
  leNat (slice input offset width)

/-- A program header with the fields that are used. -/
structure LoadHeader where
  flags : Nat
  fileOffset : Nat
  virtualAddress : Nat
  fileSize : Nat
  memorySize : Nat
  deriving DecidableEq

def headerAt (input : Bytes) (offset : Nat) : LoadHeader where
  flags := field 4 input (offset + 4)
  fileOffset := field 8 input (offset + 8)
  virtualAddress := field 8 input (offset + 16)
  fileSize := field 8 input (offset + 32)
  memorySize := field 8 input (offset + 40)

/-- The headers of type `PT_LOAD`, from one index on. -/
def loadHeadersFrom (input : Bytes) (phoff : Nat) : Nat → Nat → List LoadHeader
  | _, 0 => []
  | index, left + 1 =>
    if field 4 input (phoff + index * elf64ProgramHeaderBytes) = ptLoad then
      headerAt input (phoff + index * elf64ProgramHeaderBytes) ::
        loadHeadersFrom input phoff (index + 1) left
    else loadHeadersFrom input phoff (index + 1) left

def loadHeaders (input : Bytes) : List LoadHeader :=
  loadHeadersFrom input (field 8 input 32) 0 (field 2 input 56)

namespace LoadHeader

section

variable (header : LoadHeader)

def writable : Bool :=
  header.flags &&& pfW ≠ 0

def executable : Bool :=
  header.flags &&& pfX ≠ 0

def segment (input : Bytes) : UserElfSegment where
  virtualAddress := header.virtualAddress
  data := slice input header.fileOffset header.fileSize
  memorySize := header.memorySize
  writable := header.writable
  executable := header.executable

def InFile (input : Bytes) : Prop :=
  header.fileOffset + header.fileSize ≤ input.length

end

end LoadHeader

section

variable {input : Bytes} {offset width value : Nat}

theorem of_ensure (ok : ensure holds error = .ok done) : holds = true := by
  unfold ensure at ok
  split at ok
  · assumption
  · cases ok

theorem of_readLe (ok : readLe width input offset = .ok value) : value = field width input offset := by
  unfold readLe at ok
  split at ok
  · cases ok
    rfl
  · cases ok

theorem of_checkSegment
    (ok : checkSegment input flags fileOffset virtualAddress fileSize memorySize alignment =
      .ok ()) : fileOffset + fileSize ≤ input.length := by
  unfold checkSegment at ok
  split at ok
  · split at ok <;> cases ok
  · obtain ⟨_, -, ok⟩ := of_except_bind ok
    obtain ⟨_, inside, -⟩ := of_except_bind ok
    exact of_decide_eq_true (of_ensure inside)

theorem of_parseSegment {segment : UserElfSegment}
    (ok : parseSegment input offset = .ok segment) :
    segment = (headerAt input offset).segment input ∧ (headerAt input offset).InFile input := by
  obtain ⟨flags, isFlags, ok⟩ := of_except_bind ok
  obtain ⟨fileOffset, isOffset, ok⟩ := of_except_bind ok
  obtain ⟨virtualAddress, isAddress, ok⟩ := of_except_bind ok
  obtain ⟨fileSize, isFileSize, ok⟩ := of_except_bind ok
  obtain ⟨memorySize, isMemorySize, ok⟩ := of_except_bind ok
  obtain ⟨_, -, ok⟩ := of_except_bind ok
  obtain ⟨_, checked, ok⟩ := of_except_bind ok
  cases ok
  have inside := of_checkSegment checked
  rw [of_readLe isFlags, of_readLe isOffset, of_readLe isAddress, of_readLe isFileSize,
    of_readLe isMemorySize]
  rw [of_readLe isOffset, of_readLe isFileSize] at inside
  exact ⟨rfl, inside⟩

theorem of_parseSegments (ok : parseSegments input phoff index left before = .ok segments) :
    segments = before ++ (loadHeadersFrom input phoff index left).map (·.segment input) ∧
      ∀ header ∈ loadHeadersFrom input phoff index left, header.InFile input := by
  induction left generalizing index before with
  | zero =>
    cases ok
    exact ⟨(List.append_nil _).symm, nofun⟩
  | succ left ih =>
    obtain ⟨kind, isKind, ok⟩ := of_except_bind ok
    rw [of_readLe isKind] at ok
    unfold loadHeadersFrom
    split at ok
    · rename_i other
      rw [if_neg other]
      exact ih ok
    · rename_i isLoad
      rw [if_pos (not_not.mp isLoad)]
      split at ok
      · cases ok
      · obtain ⟨segment, isSegment, ok⟩ := of_except_bind ok
        obtain ⟨rfl, inFile⟩ := of_parseSegment isSegment
        obtain ⟨isSegments, inFiles⟩ := ih ok
        refine ⟨?_, List.forall_mem_cons.mpr ⟨inFile, inFiles⟩⟩
        rw [isSegments, List.append_assoc, List.singleton_append, List.map_cons]

/-- An accepted file gives its entry and the segments of its headers. -/
theorem of_parse (ok : parse input = .ok image) :
    image.entry = field 8 input 24 ∧
      image.segments = (loadHeaders input).map (·.segment input) ∧
      ∀ header ∈ loadHeaders input, header.InFile input := by
  obtain ⟨_, -, ok⟩ := of_except_bind ok
  obtain ⟨entry, isEntry, ok⟩ := of_except_bind ok
  obtain ⟨phoff, isPhoff, ok⟩ := of_except_bind ok
  obtain ⟨phnum, isPhnum, ok⟩ := of_except_bind ok
  obtain ⟨_, -, ok⟩ := of_except_bind ok
  obtain ⟨_, -, ok⟩ := of_except_bind ok
  obtain ⟨segments, isSegments, ok⟩ := of_except_bind ok
  obtain ⟨_, -, ok⟩ := of_except_bind ok
  obtain ⟨_, -, ok⟩ := of_except_bind ok
  cases ok
  rw [of_readLe isPhoff, of_readLe isPhnum] at isSegments
  obtain ⟨rfl, inFile⟩ := of_parseSegments isSegments
  exact ⟨of_readLe isEntry, rfl, inFile⟩

end

/-! ## Flat executables -/

/-- The file that `build_flat_rx_executable` fills in: a header, one program header, and the code
    from `defaultLoadOffset` on. -/
def flatImage (loadBase : Nat) (code : Bytes) : Bytes :=
  let image := zeros (defaultLoadOffset + code.length)
  let image := put image 0 elfMagic
  let image := put image 4 [elfClass64]
  let image := put image 5 [elfDataLe]
  let image := put image 6 [elfVersionCurrentU8]
  let image := put image 16 (le 2 etExec)
  let image := put image 18 (le 2 emX8664)
  let image := put image 20 (le 4 elfVersionCurrentU32)
  let image := put image 24 (le 8 loadBase)
  let image := put image 32 (le 8 elf64HeaderBytes)
  let image := put image 52 (le 2 elf64HeaderBytes)
  let image := put image 54 (le 2 elf64ProgramHeaderBytes)
  let image := put image 56 (le 2 1)
  let ph := elf64HeaderBytes
  let image := put image ph (le 4 ptLoad)
  let image := put image (ph + 4) (le 4 (pfR ||| pfX))
  let image := put image (ph + 8) (le 8 defaultLoadOffset)
  let image := put image (ph + 16) (le 8 loadBase)
  let image := put image (ph + 24) (le 8 loadBase)
  let image := put image (ph + 32) (le 8 code.length)
  let image := put image (ph + 40) (le 8 code.length)
  let image := put image (ph + 48) (le 8 0x1000)
  put image defaultLoadOffset code

def buildFlatRxExecutable (loadBase : Nat) (code : Bytes) : Except UserElfError Bytes := do
  ensure (!code.isEmpty) .invalidLoadSegment
  ensure (loadBase + code.length < size) .addressOverflow
  ensure (defaultLoadOffset + code.length < size) .addressOverflow
  return flatImage loadBase code

/-- What the code is to be read back as. -/
def flatSegment (loadBase : Nat) (code : Bytes) : UserElfSegment where
  virtualAddress := loadBase
  data := code
  memorySize := code.length
  writable := false
  executable := true

section

variable {loadBase : Nat} {code : Bytes}

theorem length_flatImage : (flatImage loadBase code).length = defaultLoadOffset + code.length := by
  simp [flatImage]

theorem readLe_flatImage (header : offset + width ≤ defaultLoadOffset)
    (same : slice (flatImage loadBase code) offset width = le width value)
    (small : value < 256 ^ width) : readLe width (flatImage loadBase code) offset = .ok value := by
  rw [readLe, length_flatImage, if_pos (by omega), same, leNat_le_of_lt small]

theorem checkHeader_flatImage : checkHeader (flatImage loadBase code) = .ok () := by
  have magic : slice (flatImage loadBase code) 0 4 = elfMagic ∧
      slice (flatImage loadBase code) 4 1 = [elfClass64] ∧
      slice (flatImage loadBase code) 5 1 = [elfDataLe] ∧
      slice (flatImage loadBase code) 6 1 = [elfVersionCurrentU8] := by
    refine ⟨?_, ?_, ?_, ?_⟩ <;> simp (disch := simp <;> omega) [flatImage, slice_put_same,
      slice_put_disjoint, elfMagic, defaultLoadOffset, elf64HeaderBytes]
  have reads : readU32 (flatImage loadBase code) 20 = .ok elfVersionCurrentU32 ∧
      readU16 (flatImage loadBase code) 16 = .ok etExec ∧
      readU16 (flatImage loadBase code) 18 = .ok emX8664 ∧
      readU16 (flatImage loadBase code) 52 = .ok elf64HeaderBytes ∧
      readU16 (flatImage loadBase code) 54 = .ok elf64ProgramHeaderBytes := by
    refine ⟨?_, ?_, ?_, ?_, ?_⟩ <;> refine readLe_flatImage (by decide) ?_ (by decide) <;>
      simp (disch := simp <;> omega) [flatImage, slice_put_same, slice_put_disjoint, elfMagic,
        defaultLoadOffset, elf64HeaderBytes]
  obtain ⟨isMagic, isClass, isEndian, isVersion⟩ := magic
  obtain ⟨version, kind, machine, headerBytes, programHeaderBytes⟩ := reads
  have long : elf64HeaderBytes ≤ defaultLoadOffset + code.length := by
    simp only [elf64HeaderBytes, defaultLoadOffset]
    omega
  simp only [checkHeader, length_flatImage, isMagic, byteAt_of_slice isClass,
    byteAt_of_slice isEndian, byteAt_of_slice isVersion, version, kind, machine, headerBytes,
    programHeaderBytes, long, decide_true, ensure, if_true, except_ok_bind]

/-- The only check of the parser that the builder does not make is that of the alignment. -/
theorem parseSegment_flatImage (nonempty : code ≠ []) (short : loadBase + code.length < size)
    (file : defaultLoadOffset + code.length < size) :
    parseSegment (flatImage loadBase code) elf64HeaderBytes =
      if loadBase % 0x1000 = 0 then .ok (flatSegment loadBase code)
      else .error .invalidLoadSegment := by
  have reads : readU32 (flatImage loadBase code) (elf64HeaderBytes + 4) = .ok (pfR ||| pfX) ∧
      readU64 (flatImage loadBase code) (elf64HeaderBytes + 8) = .ok defaultLoadOffset ∧
      readU64 (flatImage loadBase code) (elf64HeaderBytes + 16) = .ok loadBase ∧
      readU64 (flatImage loadBase code) (elf64HeaderBytes + 32) = .ok code.length ∧
      readU64 (flatImage loadBase code) (elf64HeaderBytes + 40) = .ok code.length ∧
      readU64 (flatImage loadBase code) (elf64HeaderBytes + 48) = .ok 0x1000 := by
    refine ⟨readLe_flatImage (by decide) ?_ (by decide), readLe_flatImage (by decide) ?_ (by decide),
      readLe_flatImage (by decide) ?_ (Nat.lt_of_add_right_lt short),
      readLe_flatImage (by decide) ?_ (Nat.lt_of_add_left_lt short),
      readLe_flatImage (by decide) ?_ (Nat.lt_of_add_left_lt short),
      readLe_flatImage (by decide) ?_ (by decide)⟩ <;>
      simp (disch := simp <;> omega) [flatImage, slice_put_same, slice_put_disjoint,
        defaultLoadOffset, elf64HeaderBytes]
  have isCode : slice (flatImage loadBase code) defaultLoadOffset code.length = code :=
    slice_put_same rfl (by simp)
  have positive : code.length ≠ 0 := fun none => nonempty (List.length_eq_zero_iff.mp none)
  have flags : isWritableExecutable (pfR ||| pfX) = false ∧ (pfR ||| pfX) &&& pfW = 0 ∧
      (pfR ||| pfX) &&& pfX ≠ 0 := by decide
  obtain ⟨isFlags, isOffset, isAddress, isFileSize, isMemorySize, isAlignment⟩ := reads
  have aligned : validAlignment defaultLoadOffset loadBase 0x1000 =
      decide (loadBase % 0x1000 = 0) := by
    have : isPowerOfTwo 0x1000 = true := by decide
    simp [validAlignment, this, defaultLoadOffset, eq_comm]
  simp only [parseSegment, checkSegment, isFlags, isOffset, isAddress, isFileSize, isMemorySize,
    isAlignment, except_ok_bind, aligned, flags, positive, isCode, length_flatImage, short, file]
  by_cases isAligned : loadBase % 0x1000 = 0
  · simp [isAligned, ensure, flatSegment, except_ok_bind]
    exact flags.2.2
  · simp [isAligned]

theorem parse_flatImage (nonempty : code ≠ []) (short : loadBase + code.length < size)
    (file : defaultLoadOffset + code.length < size) :
    parse (flatImage loadBase code) =
      if loadBase % 0x1000 = 0 then
        .ok { entry := loadBase, segments := [flatSegment loadBase code] }
      else .error .invalidLoadSegment := by
  have reads : readU64 (flatImage loadBase code) 24 = .ok loadBase ∧
      readU64 (flatImage loadBase code) 32 = .ok elf64HeaderBytes ∧
      readU16 (flatImage loadBase code) 56 = .ok 1 ∧
      readU32 (flatImage loadBase code) elf64HeaderBytes = .ok ptLoad := by
    refine ⟨readLe_flatImage (by decide) ?_ (Nat.lt_of_add_right_lt short),
      readLe_flatImage (by decide) ?_ (by decide), readLe_flatImage (by decide) ?_ (by decide),
      readLe_flatImage (by decide) ?_ (by decide)⟩ <;>
      simp (disch := simp <;> omega) [flatImage, slice_put_same, slice_put_disjoint,
        defaultLoadOffset, elf64HeaderBytes]
  obtain ⟨isEntry, isPhoff, isPhnum, isLoad⟩ := reads
  have table : elf64HeaderBytes + 1 * elf64ProgramHeaderBytes < size ∧
      elf64HeaderBytes + 1 * elf64ProgramHeaderBytes ≤ defaultLoadOffset + code.length := by
    simp only [elf64HeaderBytes, elf64ProgramHeaderBytes, defaultLoadOffset, size]
    omega
  have room : ¬maxLoadSegments ≤ 0 := by decide
  have starts : startsIn loadBase (flatSegment loadBase code) = true := by
    have : 0 < code.length := List.length_pos_iff.mpr nonempty
    simp [startsIn, flatSegment, saturatingAdd_of_lt short, this]
  rw [parse, checkHeader_flatImage]
  simp only [except_ok_bind, isEntry, isPhoff, isPhnum, length_flatImage, table, parseSegments,
    Nat.zero_mul, Nat.add_zero, isLoad, parseSegment_flatImage nonempty short file]
  by_cases isAligned : loadBase % 0x1000 = 0
  · simp [isAligned, ensure, starts, except_ok_bind, room]
  · simp [isAligned, ensure, except_ok_bind, room]
    rfl

/-- A flat executable is read back as it was built exactly if it is built for the start of a page:
    `build_flat_rx_executable` accepts any base, the parser wants the code at the same place in its
    page as in the file. -/
theorem flat_round_trip_iff (built : buildFlatRxExecutable loadBase code = .ok image) :
    parse image = .ok { entry := loadBase, segments := [flatSegment loadBase code] } ↔
      loadBase % 0x1000 = 0 := by
  obtain ⟨_, nonempty, built⟩ := of_except_bind built
  obtain ⟨_, short, built⟩ := of_except_bind built
  obtain ⟨_, file, built⟩ := of_except_bind built
  obtain rfl := Except.ok.inj built
  have nonempty : code ≠ [] := by simpa using of_ensure nonempty
  rw [parse_flatImage nonempty (of_decide_eq_true (of_ensure short))
    (of_decide_eq_true (of_ensure file))]
  split <;> simp_all

theorem flat_round_trip_two_bytes :
    ∃ image, buildFlatRxExecutable 0x200000000000 [0xcc, 0xc3] = .ok image ∧
      parse image = .ok
        { entry := 0x200000000000, segments := [flatSegment 0x200000000000 [0xcc, 0xc3]] } :=
  ⟨_, rfl, (flat_round_trip_iff rfl).mpr (by decide)⟩

/-- One byte behind the start of a page. -/
theorem unaligned_flat_image_refused :
    ∃ image, buildFlatRxExecutable 0x200000000001 [0xcc, 0xc3] = .ok image ∧
      parse image = .error .invalidLoadSegment :=
  ⟨_, rfl, by
    rw [parse_flatImage (by decide) (by decide) (by decide), if_neg (by decide)]⟩

end

end CodexOS.UserElf
