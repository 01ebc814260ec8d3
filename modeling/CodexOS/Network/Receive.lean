import CodexOS.Lib.Rings
import CodexOS.Lib.Word64
import CodexOS.Network.Frames

/-! # The receive queue of the network driver

The driver keeps one receive buffer. `try_receive` takes a completion from the
used ring, checks the length the device reports and posts the buffer again.
-/

namespace CodexOS.Network

open Bytes Word64

def virtioNetHeaderBytes : Nat := 10
def dmaBufferBytes : Nat := 4096
def virtqDescFWrite : UInt16 := 2

structure VirtqDescriptor where
  address : UInt64
  length : UInt32
  flags : UInt16
  next : UInt16
  deriving DecidableEq

/-- A queue: the memory shared with the device, its first descriptor and the driver's indices. -/
structure Virtqueue where
  size : UInt16
  descriptor : VirtqDescriptor
  rings : Rings
  availableIndex : UInt16
  usedIndex : UInt16

namespace Virtqueue

/-- A queue in zeroed memory, as `allocate` leaves it. -/
def allocated (size : UInt16) : Virtqueue where
  size
  descriptor := { address := 0, length := 0, flags := 0, next := 0 }
  rings := .empty
  availableIndex := 0
  usedIndex := 0

def setDescriptor (queue : Virtqueue) (descriptor : VirtqDescriptor) : Virtqueue :=
  { queue with descriptor }

def submit (queue : Virtqueue) : Virtqueue :=
  { queue with
    rings := queue.rings.publish queue.size queue.availableIndex 0
    availableIndex := queue.availableIndex + 1 }

def tryCompletion (queue : Virtqueue) : Except NetworkError (Option UInt32) × Virtqueue :=
  if queue.rings.usedIndex = queue.usedIndex then (.ok none, queue)
  else if queue.rings.usedIndex ≠ queue.usedIndex + 1 then (.error .deviceRejected, queue)
  else
    let element := queue.rings.used (Rings.slot queue.size queue.usedIndex)
    if element.id ≠ 0 then (.error .deviceRejected, queue)
    else (.ok (some element.length), { queue with usedIndex := queue.rings.usedIndex })

end Virtqueue

structure VirtioNet where
  rx : Virtqueue
  rxBufferPhys : UInt64
  rxBuffer : Bytes
  receivedFrames : Nat

namespace VirtioNet

def postReceiveBuffer (net : VirtioNet) : VirtioNet :=
  let rx := net.rx.setDescriptor
    { address := net.rxBufferPhys, length := .ofNat dmaBufferBytes, flags := virtqDescFWrite, next := 0 }
  { net with rx := rx.submit }

/-- The receive side of `discover`. -/
def discovered (size : UInt16) (rxBufferPhys : UInt64) : VirtioNet :=
  postReceiveBuffer
    { rx := .allocated size, rxBufferPhys, rxBuffer := zeros dmaBufferBytes, receivedFrames := 0 }

/-- What `try_receive` writes to the front of an output buffer of `outputLength` bytes. -/
def tryReceive (net : VirtioNet) (outputLength : Nat) :
    Except NetworkError (Option Bytes) × VirtioNet :=
  match net.rx.tryCompletion with
  | (.error error, rx) => (.error error, { net with rx })
  | (.ok none, rx) => (.ok none, { net with rx })
  | (.ok (some length), rx) =>
    let net := { net with rx }
    let length := length.toNat
    if ¬(virtioNetHeaderBytes ≤ length ∧ length ≤ dmaBufferBytes) then
      (.error .packetMalformed, net)
    else
      let frameLength := length - virtioNetHeaderBytes
      if frameLength > outputLength ∨ frameLength > maxEthernetFrame then
        (.error .frameTooLarge, net)
      else
        let frame := slice net.rxBuffer virtioNetHeaderBytes frameLength
        let net := { net with receivedFrames := saturatingAdd net.receivedFrames 1 }
        (.ok (some frame), net.postReceiveBuffer)

end VirtioNet

/-- Driver and device: the device has taken the buffers below `taken` from the available ring. -/
structure ReceivePath where
  net : VirtioNet
  taken : UInt16

/-- The device fills the next posted buffer and says how much it wrote. -/
def ReceivePath.complete (path : ReceivePath) (length : UInt32) (buffer : Bytes) : ReceivePath :=
  let rx := path.net.rx
  let id := (rx.rings.available (Rings.slot rx.size path.taken)).toUInt32
  { net :=
      { path.net with
        rx := { rx with rings := rx.rings.complete rx.size { id, length } }
        rxBuffer := buffer }
    taken := path.taken + 1 }

/-- The length of the completion the driver finds, if there is one. -/
def ReceivePath.reported (path : ReceivePath) : Option Nat :=
  let rx := path.net.rx
  if rx.rings.usedIndex = rx.usedIndex then none
  else some (rx.rings.used (Rings.slot rx.size rx.usedIndex)).length.toNat

/-- A call of `try_receive`: what it found, the room it had, and the buffers posted and not yet
    completed once it returned. -/
structure ReceiveCall where
  reported : Option Nat
  outputLength : Nat
  posted : UInt16

/-- The reported length passes the checks of `try_receive`. -/
def ReceiveCall.Accepted (call : ReceiveCall) : Prop :=
  ∀ length, call.reported = some length →
    virtioNetHeaderBytes ≤ length ∧ length - virtioNetHeaderBytes ≤ call.outputLength ∧
      length - virtioNetHeaderBytes ≤ maxEthernetFrame

/-- The receive path with all calls so far, the latest first. The device completes buffers in
    order, one for each that is posted. -/
inductive ReceiveRun : ReceivePath → List ReceiveCall → Prop
  | discovered (size : UInt16) (rxBufferPhys : UInt64) : size ≠ 0 →
      ReceiveRun { net := .discovered size rxBufferPhys, taken := 0 } []
  | completed {path calls} (length : UInt32) (buffer : Bytes) : ReceiveRun path calls →
      path.taken ≠ path.net.rx.rings.availableIndex → length.toNat ≤ dmaBufferBytes →
      buffer.length = dmaBufferBytes → ReceiveRun (path.complete length buffer) calls
  | received {path calls} (outputLength : Nat) : ReceiveRun path calls →
      ReceiveRun { path with net := (path.net.tryReceive outputLength).2 }
        ({ reported := path.reported
           outputLength
           posted :=
             (path.net.tryReceive outputLength).2.rx.availableIndex -
               (path.net.tryReceive outputLength).2.rx.usedIndex } :: calls)

/-- One buffer is posted, and the device has completed it or not. -/
structure Posted (path : ReceivePath) : Prop where
  published : path.net.rx.rings.availableIndex = path.net.rx.availableIndex
  heads : ∀ slot, path.net.rx.rings.available slot = 0
  one : path.net.rx.availableIndex = path.net.rx.usedIndex + 1
  taken : path.taken = path.net.rx.rings.usedIndex
  next : path.net.rx.rings.usedIndex = path.net.rx.usedIndex ∨
    path.net.rx.rings.usedIndex = path.net.rx.usedIndex + 1 ∧
      (path.net.rx.rings.used (Rings.slot path.net.rx.size path.net.rx.usedIndex)).id = 0 ∧
      (path.net.rx.rings.used (Rings.slot path.net.rx.size path.net.rx.usedIndex)).length.toNat ≤
        dmaBufferBytes

section

variable {path : ReceivePath} {calls : List ReceiveCall}

theorem posted_discovered (size : UInt16) (rxBufferPhys : UInt64) :
    Posted { net := .discovered size rxBufferPhys, taken := 0 } := by
  refine ⟨rfl, ?_, rfl, rfl, .inl rfl⟩
  intro slot
  exact Rings.available_publish_zero (fun _ => rfl) slot

theorem Posted.complete (posted : Posted path)
    (pending : path.taken ≠ path.net.rx.rings.availableIndex)
    (small : length.toNat ≤ dmaBufferBytes) : Posted (path.complete length buffer) := by
  have waiting : path.net.rx.rings.usedIndex = path.net.rx.usedIndex := by
    obtain waiting | ⟨done, -⟩ := posted.next
    · exact waiting
    · refine absurd ?_ pending
      rw [posted.taken, done, posted.published, posted.one]
  have element : (path.complete length buffer).net.rx.rings.used
      (Rings.slot path.net.rx.size path.net.rx.usedIndex) = { id := 0, length } := by
    rw [← waiting]
    simp only [ReceivePath.complete, posted.heads]
    exact Rings.used_complete
  refine ⟨posted.published, posted.heads, posted.one, ?_, .inr ⟨?_, ?_, ?_⟩⟩
  · rw [ReceivePath.complete, posted.taken]
    rfl
  · exact congrArg (· + 1) waiting
  · exact congrArg UsedElement.id element
  · exact (congrArg (fun element => element.length.toNat) element).trans_le small

theorem tryReceive_waiting (outputLength : Nat)
    (waiting : path.net.rx.rings.usedIndex = path.net.rx.usedIndex) :
    path.net.tryReceive outputLength = (.ok none, path.net) ∧ path.reported = none := by
  simp only [VirtioNet.tryReceive, Virtqueue.tryCompletion, ReceivePath.reported, if_pos waiting,
    and_self]

/-- The driver's view of the queue once it has taken the completion. -/
def VirtioNet.observed (net : VirtioNet) : VirtioNet :=
  { net with rx := { net.rx with usedIndex := net.rx.rings.usedIndex } }

theorem tryReceive_completed (outputLength : Nat)
    (next : path.net.rx.rings.usedIndex = path.net.rx.usedIndex + 1)
    (id : (path.net.rx.rings.used (Rings.slot path.net.rx.size path.net.rx.usedIndex)).id = 0) :
    ∃ length, path.reported = some length ∧
      length =
        (path.net.rx.rings.used (Rings.slot path.net.rx.size path.net.rx.usedIndex)).length.toNat ∧
      (path.net.tryReceive outputLength).2 =
        if virtioNetHeaderBytes ≤ length ∧ length ≤ dmaBufferBytes ∧
            length - virtioNetHeaderBytes ≤ outputLength ∧
            length - virtioNetHeaderBytes ≤ maxEthernetFrame then
          { path.net.observed with
            receivedFrames := saturatingAdd path.net.receivedFrames 1 }.postReceiveBuffer
        else path.net.observed := by
  have moved : path.net.rx.rings.usedIndex ≠ path.net.rx.usedIndex := by
    rw [next]
    exact Rings.add_one_ne _
  refine ⟨_, by rw [ReceivePath.reported, if_neg moved], rfl, ?_⟩
  have completion : path.net.rx.tryCompletion =
      (.ok (some (path.net.rx.rings.used
        (Rings.slot path.net.rx.size path.net.rx.usedIndex)).length), path.net.observed.rx) := by
    rw [Virtqueue.tryCompletion, if_neg moved, if_neg (not_not.mpr next), if_neg (not_not.mpr id)]
    rfl
  simp only [VirtioNet.tryReceive, completion]
  split
  · rename_i bad
    rw [if_neg fun good => bad ⟨good.1, good.2.1⟩]
    rfl
  · rename_i good
    rw [not_not] at good
    split
    · rename_i large
      rw [if_neg (by omega)]
      rfl
    · rw [if_pos (by omega)]
      rfl

/-- After a call the buffer is posted again exactly if the reported length was accepted. -/
theorem Posted.receive (posted : Posted path) (outputLength : Nat) (call : ReceiveCall)
    (isCall : call =
      { reported := path.reported
        outputLength
        posted :=
          (path.net.tryReceive outputLength).2.rx.availableIndex -
            (path.net.tryReceive outputLength).2.rx.usedIndex }) :
    (call.Accepted ↔ call.posted = 1) ∧
      (call.Accepted → Posted { path with net := (path.net.tryReceive outputLength).2 }) := by
  subst isCall
  have difference : path.net.rx.availableIndex - path.net.rx.usedIndex = 1 := by
    rw [posted.one]
    grind
  obtain waiting | ⟨next, id, small⟩ := posted.next
  · obtain ⟨same, nothing⟩ := tryReceive_waiting outputLength waiting
    rw [same]
    refine ⟨⟨fun _ => difference, fun _ length found => ?_⟩, fun _ => posted⟩
    simp only [nothing] at found
    cases found
  · obtain ⟨length, reported, isLength, result⟩ :=
      tryReceive_completed outputLength next id
    rw [← isLength] at small
    rw [result]
    have accepted (posted : UInt16) :
        ReceiveCall.Accepted { reported := path.reported, outputLength, posted } ↔
          virtioNetHeaderBytes ≤ length ∧ length - virtioNetHeaderBytes ≤ outputLength ∧
            length - virtioNetHeaderBytes ≤ maxEthernetFrame := by
      simp only [ReceiveCall.Accepted, reported, Option.some.injEq, forall_eq']
    rw [accepted]
    by_cases good : virtioNetHeaderBytes ≤ length ∧ length - virtioNetHeaderBytes ≤ outputLength ∧
        length - virtioNetHeaderBytes ≤ maxEthernetFrame
    · rw [if_pos ⟨good.1, small, good.2⟩]
      have reposted : path.net.rx.availableIndex + 1 - path.net.rx.rings.usedIndex = 1 := by
        rw [posted.one, next]
        grind
      refine ⟨⟨fun _ => reposted, fun _ => good⟩, fun _ => ⟨rfl, ?_, ?_, posted.taken, .inl rfl⟩⟩
      · intro slot
        exact Rings.available_publish_zero posted.heads slot
      · change path.net.rx.availableIndex + 1 = path.net.rx.rings.usedIndex + 1
        rw [posted.one, next]
    · rw [if_neg fun all => good ⟨all.1, all.2.2⟩]
      have missing : path.net.rx.availableIndex - path.net.rx.rings.usedIndex ≠ 1 := by
        have none : path.net.rx.availableIndex - path.net.rx.rings.usedIndex = 0 := by
          rw [posted.one, next]
          grind
        rw [none]
        decide
      exact ⟨⟨fun yes => absurd yes good, fun one => absurd one missing⟩, fun yes => absurd yes good⟩

theorem ReceiveRun.posted (run : ReceiveRun path calls)
    (accepted : ∀ call ∈ calls, call.Accepted) : Posted path := by
  induction run with
  | discovered size rxBufferPhys _ => exact posted_discovered size rxBufferPhys
  | completed length buffer _ pending small _ ih => exact (ih accepted).complete pending small
  | received outputLength _ ih =>
    obtain ⟨last, earlier⟩ := List.forall_mem_cons.mp accepted
    exact ((ih earlier).receive outputLength _ rfl).2 last

/-- The receive path keeps its one buffer posted exactly as long as every reported length is
    accepted. -/
theorem receive_path_posted_iff (run : ReceiveRun path calls) :
    (∀ call ∈ calls, call.posted = 1) ↔ ∀ call ∈ calls, call.Accepted := by
  induction run with
  | discovered size rxBufferPhys _ => simp
  | completed length buffer _ _ _ _ ih => exact ih
  | received outputLength earlier ih =>
    rw [List.forall_mem_cons, List.forall_mem_cons, ih]
    constructor
    · rintro ⟨last, before⟩
      exact ⟨((earlier.posted before).receive outputLength _ rfl).1.mpr last, before⟩
    · rintro ⟨last, before⟩
      exact ⟨((earlier.posted before).receive outputLength _ rfl).1.mp last, before⟩

end

/-- The path after the device reported a frame one byte longer than the driver takes. -/
def oversizedPath : ReceivePath :=
  ReceivePath.complete { net := .discovered 8 0x5000, taken := 0 } 1525 (zeros dmaBufferBytes)

/-- A frame one byte too long is refused, and no buffer is posted any more. -/
theorem oversized_frame_wedges :
    ∃ path call, ReceiveRun path [call] ∧ call.reported = some 1525 ∧ call.posted = 0 ∧
      path.taken = path.net.rx.rings.availableIndex ∧
      ∀ outputLength, path.net.tryReceive outputLength = (.ok none, path.net) := by
  have run : ReceiveRun oversizedPath [] :=
    .completed 1525 (zeros dmaBufferBytes) (.discovered 8 0x5000 (by decide)) (by decide)
      (by decide) (length_zeros _)
  refine ⟨_, _, run.received 1514, by decide +kernel, by decide +kernel, by decide +kernel, ?_⟩
  intro outputLength
  exact (tryReceive_waiting outputLength (by decide +kernel)).1

/-- A frame of the largest accepted size leaves the buffer posted. -/
theorem receive_path_posted_iff_largest :
    ∃ path call, ReceiveRun path [call] ∧ call.reported = some 1524 ∧
      ((∀ other ∈ [call], other.posted = 1) ↔ ∀ other ∈ [call], other.Accepted) := by
  have run : ReceiveRun (ReceivePath.complete { net := .discovered 8 0x5000, taken := 0 } 1524
      (zeros dmaBufferBytes)) [] :=
    .completed 1524 (zeros dmaBufferBytes) (.discovered 8 0x5000 (by decide)) (by decide)
      (by decide) (length_zeros _)
  exact ⟨_, _, run.received 1514, by decide +kernel, receive_path_posted_iff (run.received 1514)⟩

end CodexOS.Network
