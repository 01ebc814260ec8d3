import CodexOS.Block.VirtioBlock

/-! # Which request an answer belongs to

The driver takes any move of the used index by one for the answer to its own
request. This is right as long as nothing older is left to answer.
-/

namespace CodexOS.Block

/-- What an `Ok` says: the device has performed this very request, a read returns what its sector
    held then, and a flush comes after all writes that returned `Ok` earlier. -/
def Returned.Backed (initial : UInt64 → Sector) (log : List Completion) (earlier : List Returned)
    (call : Returned) : Prop :=
  ∀ output, call.result = .ok output →
    log[call.number]? = some { request := some call.request, status := 0 } ∧
      match call.request with
      | .read sector => output = some (contentsAfter initial (log.take call.number) sector)
      | .write _ _ => True
      | .flush => ∀ write ∈ earlier, ∀ sector data, write.request = .write sector data →
          ∀ output, write.result = .ok output →
            write.number < call.number ∧
              log[write.number]? = some { request := some (.write sector data), status := 0 }

/-- All calls that returned, the latest first, are backed by the device. -/
def Backed (initial : UInt64 → Sector) (log : List Completion) : List Returned → Prop
  | [] => True
  | call :: earlier => call.Backed initial log earlier ∧ Backed initial log earlier

section

variable {initial : UInt64 → Sector} {log : List Completion} {earlier : List Returned}
  {completion : Completion}

theorem contentsAfter_concat :
    contentsAfter initial (log ++ [completion]) =
      completion.apply (contentsAfter initial log) :=
  List.foldl_concat _ _ _ _

theorem Returned.Backed.append {call : Returned} (backed : call.Backed initial log earlier) :
    call.Backed initial (log ++ [completion]) earlier := by
  intro output ok
  obtain ⟨performed, meaning⟩ := backed output ok
  have keeps {number : Nat} {entry : Completion} (found : log[number]? = some entry) :
      (log ++ [completion])[number]? = some entry := by
    rw [List.getElem?_append_left (List.getElem?_eq_some_iff.mp found).1]
    exact found
  refine ⟨keeps performed, ?_⟩
  cases isRequest : call.request with
  | read sector =>
    simp only [isRequest] at meaning ⊢
    rw [List.take_append_of_le_length (List.getElem?_eq_some_iff.mp performed).1.le]
    exact meaning
  | write sector data => trivial
  | flush =>
    simp only [isRequest] at meaning ⊢
    intro write mem sector data isWrite output wrote
    obtain ⟨before, found⟩ := meaning write mem sector data isWrite output wrote
    exact ⟨before, keeps found⟩

theorem Backed.append {returned : List Returned} (backed : Backed initial log returned) :
    Backed initial (log ++ [completion]) returned := by
  induction returned with
  | nil => trivial
  | cons call earlier ih => exact ⟨backed.1.append, ih backed.2⟩

theorem Backed.of_mem (backed : Backed initial log returned) (mem : call ∈ returned)
    (ok : call.result = .ok output) :
    log[call.number]? = some { request := some call.request, status := 0 } := by
  induction returned with
  | nil => cases mem
  | cons last earlier ih =>
    cases mem with
    | head => exact (backed.1 output ok).1
    | tail _ mem => exact ih backed.2 mem

theorem Backed.error {returned : List Returned} {call : Returned} {error : BlockError}
    (failed : call.result = .error error) (backed : Backed initial log returned) :
    Backed initial log (call :: returned) := by
  refine ⟨?_, backed⟩
  intro output ok
  rw [failed] at ok
  cases ok

theorem Backed.ok (output : Option Sector) (backed : Backed initial log returned)
    (length : log.length = call.number + 1)
    (performed : log[call.number]? = some { request := some call.request, status := 0 })
    (isResult : call.result = .ok output) (read : ∀ sector, call.request = .read sector →
      output = some (contentsAfter initial (log.take call.number) sector)) :
    Backed initial log (call :: returned) := by
  refine ⟨?_, backed⟩
  intro output' ok
  rw [isResult] at ok
  cases ok
  refine ⟨performed, ?_⟩
  cases isRequest : call.request with
  | read sector => exact read sector isRequest
  | write sector data => trivial
  | flush =>
    intro write mem sector data isWrite output wrote
    have found := backed.of_mem mem wrote
    rw [isWrite] at found
    refine ⟨?_, found⟩
    have bound := (List.getElem?_eq_some_iff.mp found).1
    -- The place of the flush itself is taken.
    have other : write.number ≠ call.number := by
      intro same
      rw [same, performed, isRequest] at found
      cases found
    omega

end

/-- The memory describes this request, and the device has not answered it. -/
structure Prepared (block : VirtioBlock) (request : Request) (memory : RequestMemory) : Prop where
  request : (memory.snapshot block.queueSize 0).request block.requestPhys = some request
  statusAddress : (memory.snapshot block.queueSize 0).statusAddress =
    some (block.requestPhys + requestStatusOffset)
  status : memory.page.status = 0xff

section

variable {block : VirtioBlock} {memory : RequestMemory} {more : Nat} {requestType : UInt32}

@[simp] theorem isHeader_headerDescriptor :
    block.headerDescriptor.isHeader block.requestPhys = true :=
  decide_eq_true ⟨rfl, rfl, (by decide : virtqDescFNext &&& virtqDescFWrite = 0)⟩

@[simp] theorem isData_dataDescriptor :
    (block.dataDescriptor requestType).isData block.requestPhys = true :=
  decide_eq_true ⟨rfl, rfl⟩

@[simp] theorem isStatus_statusDescriptor :
    block.statusDescriptor.isStatus block.requestPhys = true :=
  decide_eq_true ⟨rfl, rfl, (by decide : virtqDescFWrite &&& virtqDescFWrite ≠ 0)⟩

theorem headerDescriptor_follows : block.headerDescriptor.flags &&& virtqDescFNext ≠ 0 :=
  (by decide : virtqDescFNext &&& virtqDescFNext ≠ 0)

theorem dataDescriptor_follows :
    (block.dataDescriptor requestType).flags &&& virtqDescFNext ≠ 0 := by
  change (virtqDescFNext ||| if requestType = virtioBlkTIn then virtqDescFWrite else 0) &&& _ ≠ _
  split <;> decide

theorem statusDescriptor_ends : ¬block.statusDescriptor.flags &&& virtqDescFNext ≠ 0 :=
  (by decide : ¬virtqDescFWrite &&& virtqDescFNext ≠ 0)

theorem chain_flush (header : memory.descriptors 0 = block.headerDescriptor)
    (status : memory.descriptors 1 = block.statusDescriptor) :
    memory.chain (more + 3) 0 = [block.headerDescriptor, block.statusDescriptor] := by
  rw [RequestMemory.chain, header, if_pos headerDescriptor_follows]
  change _ :: memory.chain (more + 2) 1 = _
  rw [RequestMemory.chain, status, if_neg statusDescriptor_ends]

theorem chain_data (header : memory.descriptors 0 = block.headerDescriptor)
    (data : memory.descriptors 1 = block.dataDescriptor requestType)
    (status : memory.descriptors 2 = block.statusDescriptor) :
    memory.chain (more + 3) 0 =
      [block.headerDescriptor, block.dataDescriptor requestType, block.statusDescriptor] := by
  rw [RequestMemory.chain, header, if_pos headerDescriptor_follows]
  change _ :: memory.chain (more + 2) 1 = _
  rw [RequestMemory.chain, data, if_pos dataDescriptor_follows]
  change _ :: _ :: memory.chain (more + 1) 2 = _
  rw [RequestMemory.chain, status, if_neg statusDescriptor_ends]

end

/-- The stores of `request` describe it, whatever the memory held before. -/
theorem prepared_stores (block : VirtioBlock) (request : Request) (memory : RequestMemory)
    (size : 3 ≤ block.queueSize) :
    Prepared block request ((block.stores request).foldl RequestMemory.store memory) := by
  obtain ⟨more, isSize⟩ : ∃ more, block.queueSize.toNat = more + 3 :=
    Nat.exists_eq_add_of_le' (UInt16.le_iff_toNat_le.mp size)
  obtain ⟨memory', isMemory⟩ : ∃ memory',
      (block.stores request).foldl RequestMemory.store memory = memory' := ⟨_, rfl⟩
  have header : memory'.page.header = request.header := by
    rw [← isMemory]
    cases request <;> rfl
  have status : memory'.page.status = 0xff := by
    rw [← isMemory]
    cases request <;> rfl
  rw [isMemory]
  cases request with
  | flush =>
    have chain : memory'.chain (more + 3) 0 = [block.headerDescriptor, block.statusDescriptor] := by
      rw [← isMemory]
      exact chain_flush rfl rfl
    refine ⟨?_, ?_, status⟩
    · simp only [RequestMemory.snapshot, Snapshot.request, isSize, chain, header]
      rw [if_pos ⟨isHeader_headerDescriptor, isStatus_statusDescriptor, rfl⟩]
    · simp only [RequestMemory.snapshot, Snapshot.statusAddress, isSize, chain]
      rfl
  | read sector =>
    have chain : memory'.chain (more + 3) 0 = [block.headerDescriptor,
        block.dataDescriptor virtioBlkTIn, block.statusDescriptor] := by
      rw [← isMemory]
      exact chain_data rfl rfl rfl
    have writable : (block.dataDescriptor virtioBlkTIn).flags &&& virtqDescFWrite ≠ 0 :=
      (by decide : (virtqDescFNext ||| virtqDescFWrite) &&& virtqDescFWrite ≠ 0)
    refine ⟨?_, ?_, status⟩
    · simp only [RequestMemory.snapshot, Snapshot.request, isSize, chain, header]
      rw [if_pos ⟨isHeader_headerDescriptor, isData_dataDescriptor, isStatus_statusDescriptor⟩,
        if_pos ⟨rfl, writable⟩]
      rfl
    · simp only [RequestMemory.snapshot, Snapshot.statusAddress, isSize, chain]
      rfl
  | write sector input =>
    have chain : memory'.chain (more + 3) 0 = [block.headerDescriptor,
        block.dataDescriptor virtioBlkTOut, block.statusDescriptor] := by
      rw [← isMemory]
      exact chain_data rfl rfl rfl
    have readable : (block.dataDescriptor virtioBlkTOut).flags &&& virtqDescFWrite = 0 :=
      (by decide : (virtqDescFNext ||| 0) &&& virtqDescFWrite = 0)
    have data : memory'.page.data = input := by
      rw [← isMemory]
      rfl
    refine ⟨?_, ?_, status⟩
    · simp only [RequestMemory.snapshot, Snapshot.request, isSize, chain, header, data]
      rw [if_pos ⟨isHeader_headerDescriptor, isData_dataDescriptor, isStatus_statusDescriptor⟩,
        if_neg fun both => absurd both.1 (by decide : virtioBlkTOut ≠ virtioBlkTIn), if_pos ⟨rfl, readable⟩]
      rfl
    · simp only [RequestMemory.snapshot, Snapshot.statusAddress, isSize, chain]
      rfl

/-- How far the device is with the call the driver is in. -/
inductive Progress (initial : UInt64 → Sector) (world : World) (call : Call) : Prop
  | waiting : world.log.length = call.number → Prepared world.block call.request world.memory →
      (∀ snapshot ∈ world.started,
        snapshot = world.memory.snapshot world.block.queueSize 0) →
      Progress initial world call
  | answered (status : UInt8) : world.log.length = call.number + 1 →
      world.log[call.number]? = some { request := some call.request, status } →
      world.memory.page.status = status →
      (status = 0 → ∀ sector, call.request = .read sector →
        world.memory.page.data =
          contentsAfter initial (world.log.take call.number) sector) →
      Progress initial world call

/-- What holds of the phase the driver is in. -/
def InPhase (initial : UInt64 → Sector) (world : World) : Phase → Prop
  | .idle => True
  | .storing call stores => call.number = world.published ∧ world.log.length = world.published ∧
      Prepared world.block call.request (stores.foldl RequestMemory.store world.memory)
  | .polling call _ | .completed call => call.number + 1 = world.published ∧
      Progress initial world call
  | .copying call => call.number + 1 = world.published ∧ world.memory.page.status = 0 ∧
      (∃ sector, call.request = .read sector) ∧ Progress initial world call

/-- At most one request is published and not answered. -/
structure Sound (initial : UInt64 → Sector) (world : World) : Prop where
  size : 3 ≤ world.block.queueSize
  contents : world.contents = contentsAfter initial world.log
  heads : ∀ slot, world.rings.available slot = 0
  available : world.rings.availableIndex = world.block.availableIndex
  published : world.block.availableIndex = .ofNat world.published
  used : world.rings.usedIndex = .ofNat world.log.length
  taken : world.taken = .ofNat (world.log.length + world.started.length)
  started : world.log.length + world.started.length ≤ world.published
  one : world.published ≤ world.log.length + 1
  returned : Backed initial world.log world.returned
  phase : InPhase initial world world.phase

section

variable {initial : UInt64 → Sector} {world : World}

theorem sound_discovered (size : 3 ≤ queueSize) :
    Sound initial (.discovered queueSize capacitySectors flushSupported requestPhys initial) where
  size
  contents := rfl
  heads _ := rfl
  available := rfl
  published := rfl
  used := rfl
  taken := rfl
  started := Nat.le_refl _
  one := Nat.zero_le _
  returned := trivial
  phase := trivial

theorem Sound.fail (sound : Sound initial world) (call : Call) (error : BlockError) :
    Sound initial (world.finish call (.error error)) :=
  { sound with
    returned := sound.returned.error rfl
    phase := trivial }

theorem Sound.settled (sound : Sound initial world) (settled : world.Settled) :
    world.log.length = world.published := by
  have started := sound.started
  have one := sound.one
  by_contra different
  have next : world.published = world.log.length + 1 := by omega
  have same : world.rings.usedIndex = world.rings.usedIndex + 1 := by
    calc world.rings.usedIndex = world.block.availableIndex := settled
      _ = .ofNat (world.log.length + 1) := by rw [sound.published, next]
      _ = world.rings.usedIndex + 1 := by rw [sound.used, UInt16.ofNat_add]; rfl
  exact Rings.add_one_ne _ same.symm

theorem Sound.begin (sound : Sound initial world) (request : Request) (settled : world.Settled) :
    Sound initial (world.begin request) := by
  have storing : Sound initial
      { world with
        phase := .storing { request, number := world.published } (world.block.stores request) } :=
    { sound with
      phase := ⟨rfl, sound.settled settled, prepared_stores _ _ _ sound.size⟩ }
  cases request <;>
  · simp only [World.begin]
    split
    · exact sound.fail _ _
    · exact storing

theorem Progress.of_same (progress : Progress initial world call)
    (queueSize : world'.block.queueSize = world.block.queueSize)
    (requestPhys : world'.block.requestPhys = world.block.requestPhys)
    (memory : world'.memory = world.memory) (started : world'.started = world.started)
    (log : world'.log = world.log) : Progress initial world' call := by
  cases progress with
  | waiting number prepared snapshots =>
    refine .waiting (log ▸ number) ⟨?_, ?_, ?_⟩ ?_
    · rw [queueSize, requestPhys, memory]
      exact prepared.request
    · rw [queueSize, requestPhys, memory]
      exact prepared.statusAddress
    · rw [memory]
      exact prepared.status
    · rw [started, memory, queueSize]
      exact snapshots
  | answered status number entry isStatus data =>
    refine .answered status ?_ ?_ ?_ ?_
    · rw [log]
      exact number
    · rw [log]
      exact entry
    · rw [memory]
      exact isStatus
    · rw [memory, log]
      exact data

theorem Sound.publish (sound : Sound initial world) (isPhase : world.phase = .storing call []) :
    Sound initial { world.publish with phase := .polling call 0 } := by
  have inPhase := sound.phase
  rw [isPhase] at inPhase
  obtain ⟨number, settled, prepared⟩ := inPhase
  have started := sound.started
  refine { sound with
    heads := ?_, available := rfl, published := ?_, started := ?_, one := ?_, phase := ?_ }
  · intro slot
    exact Rings.available_publish_zero sound.heads slot
  · change world.block.availableIndex + 1 = .ofNat (world.published + 1)
    rw [sound.published, UInt16.ofNat_add]
    rfl
  · exact started.trans (Nat.le_succ _)
  · change world.published + 1 ≤ _
    exact Nat.succ_le_succ settled.ge
  · refine ⟨congrArg (· + 1) number, .waiting (settled.trans number.symm) ?_ ?_⟩
    · exact ⟨prepared.request, prepared.statusAddress, prepared.status⟩
    · intro snapshot mem
      have none : world.started = [] := List.length_eq_zero_iff.mp (by omega)
      rw [show world.publish.started = [] from none] at mem
      cases mem

theorem Sound.poll (sound : Sound initial world) (isPhase : world.phase = .polling call spin) :
    Sound initial (world.poll call spin) := by
  have inPhase := sound.phase
  rw [isPhase] at inPhase
  unfold World.poll
  split
  · exact sound.fail _ _
  split
  · exact { sound with phase := ⟨inPhase.1, inPhase.2.of_same rfl rfl rfl rfl rfl⟩ }
  split
  · exact sound.fail _ _
  split
  · exact sound.fail _ _
  · exact { sound with phase := ⟨inPhase.1, inPhase.2.of_same rfl rfl rfl rfl rfl⟩ }

/-- A status of zero is the device's answer to this call: before it answers, the status is 0xff. -/
theorem Progress.performed (progress : Progress initial world call)
    (good : world.memory.page.status = 0) :
    world.log.length = call.number + 1 ∧
      world.log[call.number]? = some { request := some call.request, status := 0 } ∧
      ∀ sector, call.request = .read sector →
        world.memory.page.data = contentsAfter initial (world.log.take call.number) sector := by
  cases progress with
  | waiting _ prepared _ =>
    have unanswered := prepared.status
    rw [good] at unanswered
    exact absurd unanswered (by decide)
  | answered status number entry isStatus data =>
    rw [good] at isStatus
    subst isStatus
    exact ⟨number, entry, data rfl⟩

theorem Sound.copy (sound : Sound initial world) (isPhase : world.phase = .copying call) :
    Sound initial (world.finish call (.ok (some world.memory.page.data))) := by
  have inPhase := sound.phase
  rw [isPhase] at inPhase
  obtain ⟨-, good, -, progress⟩ := inPhase
  obtain ⟨length, entry, data⟩ := progress.performed good
  refine { sound with returned := ?_, phase := trivial }
  apply sound.returned.ok _ length entry rfl
  intro sector isRead
  exact congrArg some (data sector isRead)

theorem Sound.check (sound : Sound initial world) (isPhase : world.phase = .completed call) :
    Sound initial world.drive := by
  have inPhase := sound.phase
  rw [isPhase] at inPhase
  obtain ⟨number, progress⟩ := inPhase
  simp only [World.drive, isPhase]
  split
  · exact sound.fail _ _
  rename_i good
  rw [not_not] at good
  split
  · rename_i sector isRequest
    exact { sound with
      phase := ⟨number, good, ⟨sector, isRequest⟩, progress.of_same rfl rfl rfl rfl rfl⟩ }
  · rename_i notRead
    obtain ⟨length, entry, -⟩ := progress.performed good
    refine { sound with returned := ?_, phase := trivial }
    apply sound.returned.ok _ length entry rfl
    intro sector isRead
    exact absurd isRead (notRead sector)

theorem Sound.drive (sound : Sound initial world) : Sound initial world.drive := by
  cases isPhase : world.phase with
  | completed call => exact sound.check isPhase
  | idle =>
    simp only [World.drive, isPhase]
    exact sound
  | storing call stores =>
    simp only [World.drive, isPhase]
    cases stores with
    | nil => exact sound.publish isPhase
    | cons store stores =>
      have inPhase := sound.phase
      rw [isPhase] at inPhase
      exact { sound with phase := inPhase }
  | polling call spin =>
    simp only [World.drive, isPhase]
    exact sound.poll isPhase
  | copying call =>
    simp only [World.drive, isPhase]
    exact sound.copy isPhase

theorem Progress.start (progress : Progress initial world call)
    (number : call.number + 1 = world.published) (pending : world.log.length < world.published)
    (only : world.start.started = [world.memory.snapshot world.block.queueSize 0]) :
    Progress initial world.start call := by
  cases progress with
  | waiting length prepared _ =>
    refine .waiting length prepared ?_
    intro snapshot mem
    rw [only] at mem
    exact List.mem_singleton.mp mem
  | answered _ length => omega

/-- The device starts a request while the driver is in it, or after the driver has given up. -/
theorem Sound.start (sound : Sound initial world)
    (pending : world.taken ≠ world.rings.availableIndex) : Sound initial world.start := by
  have bound := sound.started
  have one := sound.one
  have different : world.log.length + world.started.length ≠ world.published := by
    intro same
    apply pending
    rw [sound.taken, same, sound.available, sound.published]
  have length : world.start.started.length = world.started.length + 1 :=
    List.length_append
  have none : world.started = [] := List.length_eq_zero_iff.mp (by omega)
  have only : world.start.started = [world.memory.snapshot world.block.queueSize 0] := by
    simp only [World.start, none, sound.heads, List.nil_append]
  have outstanding : world.log.length < world.published := by omega
  refine { sound with taken := ?_, started := ?_, phase := ?_ }
  · change world.taken + 1 = .ofNat (world.log.length + world.start.started.length)
    rw [length, ← Nat.add_assoc, UInt16.ofNat_add, ← sound.taken]
    rfl
  · change world.log.length + _ ≤ world.published
    omega
  · have inPhase := sound.phase
    change InPhase initial world.start world.phase
    cases isPhase : world.phase with
    | idle => trivial
    | storing call stores =>
      rw [isPhase] at inPhase
      exact absurd inPhase.2.1 outstanding.ne
    | polling call spin | completed call =>
      rw [isPhase] at inPhase
      exact ⟨inPhase.1, inPhase.2.start inPhase.1 outstanding only⟩
    | copying call =>
      rw [isPhase] at inPhase
      obtain ⟨number, good, read, progress⟩ := inPhase
      exact ⟨number, good, read, progress.start number outstanding only⟩

theorem answer_status
    (address : snapshot.statusAddress = some (world.block.requestPhys + requestStatusOffset)) :
    (world.answer snapshot status).status = status := by
  unfold World.answer
  rw [if_pos address]

theorem answer_read
    (address : snapshot.statusAddress = some (world.block.requestPhys + requestStatusOffset))
    (read : snapshot.request world.block.requestPhys = some (.read sector)) :
    (world.answer snapshot 0).data = world.contents sector := by
  unfold World.answer
  rw [if_pos address, read]
  rfl

theorem Progress.complete (progress : Progress initial world call)
    (number : call.number + 1 = world.published) (pending : world.log.length < world.published)
    (isStarted : world.started = [snapshot])
    (contents : world.contents = contentsAfter initial world.log) :
    Progress initial (world.complete status length) call := by
  cases progress with
  | answered _ length => omega
  | waiting isLength prepared snapshots =>
    have isSnapshot : snapshot = world.memory.snapshot world.block.queueSize 0 := by
      apply snapshots
      rw [isStarted]
      exact List.mem_singleton_self _
    subst isSnapshot
    simp only [World.complete, isStarted]
    refine .answered status ?_ ?_ (answer_status prepared.statusAddress) ?_
    · rw [List.length_append, isLength]
      rfl
    · rw [← isLength, List.getElem?_concat_length, prepared.request]
    · intro good sector isRead
      subst good
      have prior (entry : Completion) :
          (world.log ++ [entry]).take call.number = world.log := by
        rw [← isLength]
        exact List.take_left
      simp only [prior, ← contents]
      exact answer_read prepared.statusAddress (prepared.request.trans (congrArg some isRead))

theorem Sound.complete {snapshot : Snapshot} {started : List Snapshot} {status : UInt8}
    {length : UInt32} (sound : Sound initial world)
    (isStarted : world.started = snapshot :: started) :
    Sound initial (world.complete status length) := by
  have bound := sound.started
  have one := sound.one
  have isLength : world.started.length = started.length + 1 := by
    rw [isStarted]
    rfl
  have none : started = [] := List.length_eq_zero_iff.mp (by omega)
  subst none
  have outstanding : world.log.length < world.published := by omega
  have inPhase := sound.phase
  have phase : InPhase initial (world.complete status length) world.phase := by
    have published : (world.complete status length).published = world.published := by
      simp only [World.complete, isStarted]
    cases isPhase : world.phase with
    | idle => trivial
    | storing call stores =>
      rw [isPhase] at inPhase
      exact absurd inPhase.2.1 outstanding.ne
    | polling call spin | completed call =>
      rw [isPhase] at inPhase
      obtain ⟨number, progress⟩ := inPhase
      exact ⟨number.trans published.symm,
        progress.complete number outstanding isStarted sound.contents⟩
    | copying call =>
      rw [isPhase] at inPhase
      obtain ⟨number, good, -, progress⟩ := inPhase
      obtain ⟨answered, -⟩ := progress.performed good
      omega
  simp only [World.complete, isStarted] at phase ⊢
  refine ⟨sound.size, ?_, sound.heads, sound.available, sound.published, ?_, ?_, ?_, ?_,
    sound.returned.append, phase⟩
  · simp only [contentsAfter_concat, sound.contents]
  · rw [List.length_append, UInt16.ofNat_add, ← sound.used]
    rfl
  · rw [sound.taken, isLength, List.length_append]
    rfl
  · rw [List.length_append]
    exact outstanding
  · rw [List.length_append]
    exact one.trans (Nat.le_succ _)

end

section

variable {initial : UInt64 → Sector} {allowed : World → Prop} {world : World}

/-- If every call begins when the device has answered everything before, then every `Ok` is the
    answer to the request it is returned for. -/
theorem completion_matching (run : Run initial World.Settled world) :
    Backed initial world.log world.returned := by
  have sound : Sound initial world := by
    induction run with
    | discovered _ _ _ _ size => exact sound_discovered size
    | begin request _ _ settled ih => exact ih.begin request settled
    | drive _ ih => exact ih.drive
    | start _ pending ih => exact ih.start pending
    | complete status length _ isStarted _ ih => exact ih.complete isStarted
  exact sound.returned

theorem Run.drives (run : Run initial allowed world) (count : Nat) :
    Run initial allowed (World.drive^[count] world) := by
  induction count with
  | zero => exact run
  | succ count ih =>
    rw [Function.iterate_succ_apply']
    exact ih.drive

theorem Run.timeout (run : Run initial allowed world) (isPhase : world.phase = .polling call 0)
    (nothing : world.rings.usedIndex = world.block.usedIndex) :
    Run initial allowed (world.finish call (.error .requestTimedOut)) := by
  have polls (spin : Nat) (bound : spin ≤ requestTimeoutSpins) :
      Run initial allowed { world with phase := .polling call spin } := by
    induction spin with
    | zero =>
      rw [← isPhase]
      exact run
    | succ spin ih =>
      have turn := (ih (Nat.le_of_succ_le bound)).drive
      simp only [World.drive, World.poll] at turn
      rw [if_neg (Nat.not_le_of_lt bound), if_pos nothing] at turn
      exact turn
  have last := (polls requestTimeoutSpins (Nat.le_refl _)).drive
  simp only [World.drive, World.poll] at last
  rw [if_pos (Nat.le_refl _)] at last
  exact last

end

/-- A small disk of zeros. -/
def zeroDisk : World :=
  .discovered 8 16 true 0x5000 fun _ => .filled 0

theorem run_zeroDisk (allowed : World → Prop) : Run (fun _ => .filled 0) allowed zeroDisk :=
  .discovered 8 16 true 0x5000 (by decide)

/-- A write up to the first turn of the loop that waits for the answer. -/
def World.submit (world : World) (sector : UInt64) (data : Sector) : World :=
  World.drive^[7] (world.begin (.write sector data))

theorem Run.submit (run : Run initial allowed world) (idle : world.phase = .idle)
    (isAllowed : allowed world) (sector : UInt64) (data : Sector) :
    Run initial allowed (world.submit sector data) :=
  (run.begin (.write sector data) idle isAllowed).drives 7

theorem completion_matching_write :
    ∃ world, Run (fun _ => .filled 0) World.Settled world ∧
      world.returned = [{ request := .write 1 (.filled 1), number := 0, result := .ok none }] ∧
      Backed (fun _ => .filled 0) world.log world.returned := by
  have submitted := (run_zeroDisk World.Settled).submit rfl rfl 1 (.filled 1)
  have performed := ((submitted.start (by decide)).complete 0 1 rfl nofun).drives 2
  exact ⟨_, performed, rfl, completion_matching performed⟩

/-- The first write times out, and the device answers it while the driver waits for the second:
    the second returns `Ok` although the device has not performed it. -/
theorem late_answer_taken_for_next_write :
    ∃ world, Run (fun _ => .filled 0) (fun _ => True) world ∧
      ∃ call ∈ world.returned, call.request = .write 2 (.filled 2) ∧ call.result = .ok none ∧
        (∀ completion ∈ world.log, completion.request ≠ some call.request) ∧
        world.contents 2 = .filled 0 := by
  have submitted := (run_zeroDisk fun _ => True).submit rfl trivial 1 (.filled 1)
  have timedOut := (submitted.start (by decide)).timeout rfl rfl
  have second := timedOut.submit rfl trivial 2 (.filled 2)
  have returned := (second.complete 0 1 rfl nofun).drives 2
  refine ⟨_, returned, { request := .write 2 (.filled 2), number := 1, result := .ok none }, ?_⟩
  refine ⟨List.mem_cons_self, rfl, rfl, ?_, rfl⟩
  decide +kernel

end CodexOS.Block
