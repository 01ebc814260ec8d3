import CodexOS.Block.Device
import CodexOS.Lib.Rings

/-! # The virtio block driver and its device

`request` writes the request into one page, describes it with the descriptors
0 to 2, publishes descriptor 0 and waits until the used index has moved by one.
The device reads a request when it starts it and answers later. Both parties take
steps in any order.
-/

namespace CodexOS.Block

def virtioBlkTIn : UInt32 := 0
def virtioBlkTOut : UInt32 := 1
def virtioBlkTFlush : UInt32 := 4
def virtqDescFNext : UInt16 := 1
def virtqDescFWrite : UInt16 := 2
def requestHeaderOffset : UInt64 := 0
def requestStatusOffset : UInt64 := 16
def requestDataOffset : UInt64 := 512
def requestTimeoutSpins : Nat := 20000000

structure VirtqDescriptor where
  address : UInt64
  length : UInt32
  flags : UInt16
  next : UInt16
  deriving DecidableEq

structure VirtioBlockRequestHeader where
  requestType : UInt32
  reserved : UInt32
  sector : UInt64
  deriving DecidableEq

/-- The calls `read_sector`, `write_sector` and `flush` make of `request`. -/
inductive Request
  | read (sector : UInt64)
  | write (sector : UInt64) (data : Sector)
  | flush
  deriving DecidableEq

namespace Request

def requestType : Request → UInt32
  | read _ => virtioBlkTIn
  | write _ _ => virtioBlkTOut
  | flush => virtioBlkTFlush

def sector : Request → UInt64
  | read sector => sector
  | write sector _ => sector
  | flush => 0

def header (request : Request) : VirtioBlockRequestHeader where
  requestType := request.requestType
  reserved := 0
  sector := request.sector

end Request

/-- The three areas of the request page. -/
structure RequestPage where
  header : VirtioBlockRequestHeader
  status : UInt8
  data : Sector

/-- The memory a request is described in. -/
structure RequestMemory where
  descriptors : UInt16 → VirtqDescriptor
  page : RequestPage

/-- A write of the driver to that memory. -/
inductive Store
  | header (header : VirtioBlockRequestHeader)
  | status (status : UInt8)
  | data (data : Sector)
  | descriptor (index : UInt16) (descriptor : VirtqDescriptor)

def RequestMemory.store (memory : RequestMemory) : Store → RequestMemory
  | .header header => { memory with page := { memory.page with header } }
  | .status status => { memory with page := { memory.page with status } }
  | .data data => { memory with page := { memory.page with data } }
  | .descriptor index descriptor =>
    { memory with descriptors := Function.update memory.descriptors index descriptor }

structure VirtioBlock where
  queueSize : UInt16
  capacitySectors : UInt64
  flushSupported : Bool
  requestPhys : UInt64
  availableIndex : UInt16
  usedIndex : UInt16

namespace VirtioBlock

section

variable (block : VirtioBlock)

def headerDescriptor : VirtqDescriptor where
  address := block.requestPhys + requestHeaderOffset
  length := 16
  flags := virtqDescFNext
  next := 1

def dataDescriptor (requestType : UInt32) : VirtqDescriptor where
  address := block.requestPhys + requestDataOffset
  length := .ofNat sectorSize
  flags := virtqDescFNext ||| if requestType = virtioBlkTIn then virtqDescFWrite else 0
  next := 2

def statusDescriptor : VirtqDescriptor where
  address := block.requestPhys + requestStatusOffset
  length := 1
  flags := virtqDescFWrite
  next := 0

/-- What `request` writes before it publishes the chain, in order. -/
def stores (request : Request) : List Store :=
  [.header request.header, .status 0xff] ++
    match request with
    | .flush => [.descriptor 0 block.headerDescriptor, .descriptor 1 block.statusDescriptor]
    | .write _ input =>
      [.data input, .descriptor 0 block.headerDescriptor,
        .descriptor 1 (block.dataDescriptor request.requestType),
        .descriptor 2 block.statusDescriptor]
    | .read _ =>
      [.descriptor 0 block.headerDescriptor,
        .descriptor 1 (block.dataDescriptor request.requestType),
        .descriptor 2 block.statusDescriptor]

end

end VirtioBlock

/-- The chain of descriptors from an index on, no longer than the queue. -/
def RequestMemory.chain (memory : RequestMemory) : Nat → UInt16 → List VirtqDescriptor
  | 0, _ => []
  | length + 1, index =>
    let descriptor := memory.descriptors index
    descriptor ::
      if descriptor.flags &&& virtqDescFNext ≠ 0 then memory.chain length descriptor.next else []

/-- What the device remembers of a request it has started. -/
structure Snapshot where
  head : UInt16
  chain : List VirtqDescriptor
  page : RequestPage

def RequestMemory.snapshot (memory : RequestMemory) (queueSize head : UInt16) : Snapshot where
  head
  chain := memory.chain queueSize.toNat head
  page := memory.page

namespace VirtqDescriptor

def isHeader (requestPhys : UInt64) (descriptor : VirtqDescriptor) : Bool :=
  descriptor.address = requestPhys + requestHeaderOffset ∧ descriptor.length = 16 ∧
    descriptor.flags &&& virtqDescFWrite = 0

def isData (requestPhys : UInt64) (descriptor : VirtqDescriptor) : Bool :=
  descriptor.address = requestPhys + requestDataOffset ∧ descriptor.length = .ofNat sectorSize

def isStatus (requestPhys : UInt64) (descriptor : VirtqDescriptor) : Bool :=
  descriptor.address = requestPhys + requestStatusOffset ∧ descriptor.length = 1 ∧
    descriptor.flags &&& virtqDescFWrite ≠ 0

end VirtqDescriptor

namespace Snapshot

/-- The request the device reads from a chain: a header it can read, a status byte it can write
    and, unless it is a flush, one sector of data it can write or read. -/
def request (snapshot : Snapshot) (requestPhys : UInt64) : Option Request :=
  let { requestType, sector, .. } := snapshot.page.header
  match snapshot.chain with
  | [header, status] =>
    if header.isHeader requestPhys ∧ status.isStatus requestPhys ∧
        requestType = virtioBlkTFlush then
      some .flush
    else none
  | [header, data, status] =>
    if header.isHeader requestPhys ∧ data.isData requestPhys ∧ status.isStatus requestPhys then
      if requestType = virtioBlkTIn ∧ data.flags &&& virtqDescFWrite ≠ 0 then some (.read sector)
      else if requestType = virtioBlkTOut ∧ data.flags &&& virtqDescFWrite = 0 then
        some (.write sector snapshot.page.data)
      else none
    else none
  | _ => none

/-- The last descriptor is where the status goes. -/
def statusAddress (snapshot : Snapshot) : Option UInt64 :=
  snapshot.chain.getLast?.map VirtqDescriptor.address

end Snapshot

/-- A request the device has answered, with the request it read. -/
structure Completion where
  request : Option Request
  status : UInt8
  deriving DecidableEq

/-- The contents of the sectors after an answer. Only a write that succeeds changes them. -/
def Completion.apply (contents : UInt64 → Sector) (completion : Completion) : UInt64 → Sector :=
  match completion with
  | { request := some (.write sector data), status := 0 } => Function.update contents sector data
  | _ => contents

def contentsAfter (initial : UInt64 → Sector) (log : List Completion) : UInt64 → Sector :=
  log.foldl Completion.apply initial

/-- A call of `request`, with the number its chain has among all that are ever published. -/
structure Call where
  request : Request
  number : Nat

structure Returned extends Call where
  result : Except BlockError (Option Sector)

/-- Where the driver is in `request`. -/
inductive Phase
  | idle
  | storing (call : Call) (stores : List Store)
  | polling (call : Call) (spin : Nat)
  | completed (call : Call)
  | copying (call : Call)

/-- Driver, shared memory and device. The counter `published` and the lists `log` and `returned`
    are only there to speak about the run. -/
structure World where
  block : VirtioBlock
  phase : Phase
  memory : RequestMemory
  rings : Rings
  taken : UInt16
  started : List Snapshot
  contents : UInt64 → Sector
  published : Nat
  log : List Completion
  returned : List Returned

namespace World

/-- After `discover`: all memory is zero, and the device has seen nothing. -/
def discovered (queueSize : UInt16) (capacitySectors : UInt64) (flushSupported : Bool)
    (requestPhys : UInt64) (contents : UInt64 → Sector) : World where
  block :=
    { queueSize
      capacitySectors
      flushSupported
      requestPhys
      availableIndex := 0
      usedIndex := 0 }
  phase := .idle
  memory :=
    { descriptors := fun _ => { address := 0, length := 0, flags := 0, next := 0 }
      page :=
        { header := { requestType := 0, reserved := 0, sector := 0 }
          status := 0
          data := .filled 0 } }
  rings := .empty
  taken := 0
  started := []
  contents
  published := 0
  log := []
  returned := []

section

variable (world : World)

def finish (call : Call) (result : Except BlockError (Option Sector)) : World :=
  { world with phase := .idle, returned := { call with result } :: world.returned }

/-- A call of `read_sector`, `write_sector` or `flush`, up to its first write. -/
def begin (request : Request) : World :=
  let call := { request, number := world.published }
  match request with
  | .flush =>
    if ¬world.block.flushSupported then world.finish call (.error .deviceRejected)
    else { world with phase := .storing call (world.block.stores request) }
  | .read sector | .write sector _ =>
    if world.block.capacitySectors ≤ sector then world.finish call (.error .sectorOutOfRange)
    else { world with phase := .storing call (world.block.stores request) }

def publish : World :=
  { world with
    block := { world.block with availableIndex := world.block.availableIndex + 1 }
    rings := world.rings.publish world.block.queueSize world.block.availableIndex 0
    published := world.published + 1 }

/-- One turn of the loop that waits for the used index. -/
def poll (call : Call) (spin : Nat) : World :=
  if requestTimeoutSpins ≤ spin then world.finish call (.error .requestTimedOut)
  else if world.rings.usedIndex = world.block.usedIndex then
    { world with phase := .polling call (spin + 1) }
  else if world.rings.usedIndex ≠ world.block.usedIndex + 1 then
    world.finish call (.error .deviceRejected)
  else if (world.rings.used (Rings.slot world.block.queueSize world.block.usedIndex)).id ≠ 0 then
    world.finish call (.error .deviceRejected)
  else
    { world with
      block := { world.block with usedIndex := world.rings.usedIndex }
      phase := .completed call }

/-- The next step of the driver. -/
def drive : World :=
  match world.phase with
  | .idle => world
  | .storing call (store :: stores) =>
    { world with memory := world.memory.store store, phase := .storing call stores }
  | .storing call [] => { world.publish with phase := .polling call 0 }
  | .polling call spin => world.poll call spin
  | .completed call =>
    if world.memory.page.status ≠ 0 then
      world.finish call (.error (.requestFailed world.memory.page.status))
    else
      match call.request with
      | .read _ => { world with phase := .copying call }
      | _ => world.finish call (.ok none)
  | .copying call => world.finish call (.ok (some world.memory.page.data))

/-- The device reads the next published chain. -/
def start : World :=
  let head := world.rings.available (Rings.slot world.block.queueSize world.taken)
  { world with
    taken := world.taken + 1
    started := world.started ++ [world.memory.snapshot world.block.queueSize head] }

/-- What an answer does to the request page. -/
def answer (snapshot : Snapshot) (status : UInt8) : RequestPage :=
  let page := world.memory.page
  let page :=
    match snapshot.request world.block.requestPhys, status with
    | some (.read sector), 0 => { page with data := world.contents sector }
    | _, _ => page
  if snapshot.statusAddress = some (world.block.requestPhys + requestStatusOffset) then
    { page with status }
  else page

/-- The device answers the oldest request it has started. -/
def complete (status : UInt8) (length : UInt32) : World :=
  match world.started with
  | [] => world
  | snapshot :: started =>
    let completion := { request := snapshot.request world.block.requestPhys, status }
    { world with
      memory := { world.memory with page := world.answer snapshot status }
      rings := world.rings.complete world.block.queueSize { id := snapshot.head.toUInt32, length }
      started
      contents := completion.apply world.contents
      log := world.log ++ [completion] }

/-- The device has answered everything that was published. -/
def Settled : Prop :=
  world.rings.usedIndex = world.block.availableIndex

end

end World

/-- All states that driver and device can reach, where a call begins only in an allowed state. A
    device that cannot read a request does not report success. -/
inductive Run (initial : UInt64 → Sector) (allowed : World → Prop) : World → Prop
  | discovered (queueSize : UInt16) (capacitySectors : UInt64) (flushSupported : Bool)
      (requestPhys : UInt64) : 3 ≤ queueSize →
      Run initial allowed
        (.discovered queueSize capacitySectors flushSupported requestPhys initial)
  | begin {world} (request : Request) : Run initial allowed world → world.phase = .idle →
      allowed world → Run initial allowed (world.begin request)
  | drive {world} : Run initial allowed world → Run initial allowed world.drive
  | start {world} : Run initial allowed world → world.taken ≠ world.rings.availableIndex →
      Run initial allowed world.start
  | complete {world snapshot started} (status : UInt8) (length : UInt32) :
      Run initial allowed world → world.started = snapshot :: started →
      (snapshot.request world.block.requestPhys = none → status ≠ 0) →
      Run initial allowed (world.complete status length)

end CodexOS.Block
