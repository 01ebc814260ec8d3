import Mathlib.Data.List.Basic

/-! # The scan of the PCI bus

One scan records every function that answers, up to a fixed number, and sorts the records
by role. Another scan stops at the first function with the ids of a legacy virtio device.
Both go through the same functions in the same order.
-/

namespace CodexOS.Hardware

def pciVendorNone : UInt16 := 0xffff
def pciHeaderMultifunction : UInt8 := 0x80
def pciBar0 : UInt8 := 0x10
def pciBarCount : Nat := 6
def maxPciDevices : Nat := 64
def virtioVendorId : UInt16 := 0x1af4
def virtioNetLegacyDeviceId : UInt16 := 0x1000
def virtioBlockLegacyDeviceId : UInt16 := 0x1001

structure PciAddress where
  bus : UInt8
  device : UInt8
  function : UInt8
  deriving DecidableEq

/-- What `pci_read_u32` returns. -/
abbrev PciConfig := PciAddress → UInt8 → UInt32

structure PciDevice where
  address : PciAddress
  vendorId : UInt16
  deviceId : UInt16
  classCode : UInt8
  subclass : UInt8
  progIf : UInt8
  revision : UInt8
  headerType : UInt8
  bars : Vector UInt32 pciBarCount
  deriving DecidableEq

inductive PciDeviceRole
  | virtioNet
  | virtioBlock
  | virtioOther
  | storageController
  | networkController
  | displayController
  | hostBridge
  | isaBridge
  | pciBridge
  | usbController
  | inputController
  | other
  deriving DecidableEq

def classifyPciDevice (vendorId deviceId : UInt16) (classCode subclass : UInt8) : PciDeviceRole :=
  if vendorId = virtioVendorId then
    if deviceId = virtioNetLegacyDeviceId then .virtioNet
    else if deviceId = virtioBlockLegacyDeviceId then .virtioBlock
    else if 0x1002 ≤ deviceId ∧ deviceId ≤ 0x103f then .virtioOther
    else .other
  else
    match classCode, subclass with
    | 0x01, _ => .storageController
    | 0x02, _ => .networkController
    | 0x03, _ => .displayController
    | 0x06, 0x00 => .hostBridge
    | 0x06, 0x01 => .isaBridge
    | 0x06, 0x04 => .pciBridge
    | 0x0c, 0x03 => .usbController
    | 0x09, _ => .inputController
    | _, _ => .other

namespace PciDevice

def role (device : PciDevice) : PciDeviceRole :=
  classifyPciDevice device.vendorId device.deviceId device.classCode device.subclass

def ioBar (device : PciDevice) (index : Nat) : Option UInt16 :=
  match device.bars[index]? with
  | none => none
  | some raw =>
    if raw &&& 1 = 0 then none
    else if (raw &&& ~~~3).toNat < 65536 then some (raw &&& ~~~3).toUInt16 else none

end PciDevice

structure HardwareSummary where
  pciDevices : Nat
  overflow : Bool
  bridgeDevices : Nat := 0
  storageControllers : Nat := 0
  networkControllers : Nat := 0
  displayControllers : Nat := 0
  usbControllers : Nat := 0
  inputControllers : Nat := 0
  ioBarDevices : Nat := 0
  virtioLegacyDevices : Nat := 0
  virtioBlock : Option PciAddress := none
  virtioNet : Option PciAddress := none
  deriving DecidableEq

/-- The recorded devices, at most `maxPciDevices`. -/
structure PciInventory where
  devices : List PciDevice
  overflow : Bool

/-- A turn of the loop of `summary`. -/
def HardwareSummary.enter (summary : HardwareSummary) (device : PciDevice) : HardwareSummary :=
  let summary :=
    if (device.ioBar 0).isSome then { summary with ioBarDevices := summary.ioBarDevices + 1 }
    else summary
  match device.role with
  | .virtioBlock =>
    { summary with
      storageControllers := summary.storageControllers + 1
      virtioLegacyDevices := summary.virtioLegacyDevices + 1
      virtioBlock := summary.virtioBlock.or (some device.address) }
  | .virtioNet =>
    { summary with
      networkControllers := summary.networkControllers + 1
      virtioLegacyDevices := summary.virtioLegacyDevices + 1
      virtioNet := summary.virtioNet.or (some device.address) }
  | .virtioOther => { summary with virtioLegacyDevices := summary.virtioLegacyDevices + 1 }
  | .storageController => { summary with storageControllers := summary.storageControllers + 1 }
  | .networkController => { summary with networkControllers := summary.networkControllers + 1 }
  | .displayController => { summary with displayControllers := summary.displayControllers + 1 }
  | .hostBridge | .isaBridge | .pciBridge =>
    { summary with bridgeDevices := summary.bridgeDevices + 1 }
  | .usbController => { summary with usbControllers := summary.usbControllers + 1 }
  | .inputController => { summary with inputControllers := summary.inputControllers + 1 }
  | .other => summary

namespace PciInventory

def empty : PciInventory where
  devices := []
  overflow := false

def push (inventory : PciInventory) (device : PciDevice) : PciInventory :=
  if inventory.devices.length = maxPciDevices then { inventory with overflow := true }
  else { inventory with devices := inventory.devices ++ [device] }

def summary (inventory : PciInventory) : HardwareSummary :=
  inventory.devices.foldl HardwareSummary.enter
    { pciDevices := inventory.devices.length, overflow := inventory.overflow }

end PciInventory

section

variable (config : PciConfig)

include config

def readPciDevice (address : PciAddress) : Option PciDevice :=
  let id := config address 0x00
  let revisionClass := config address 0x08
  let header := config address 0x0c
  if id.toUInt16 = pciVendorNone then none
  else some {
    address
    vendorId := id.toUInt16
    deviceId := (id >>> 16).toUInt16
    classCode := (revisionClass >>> 24).toUInt8
    subclass := (revisionClass >>> 16).toUInt8
    progIf := (revisionClass >>> 8).toUInt8
    revision := revisionClass.toUInt8
    headerType := (header >>> 16).toUInt8
    bars := Vector.ofFn fun index => config address (pciBar0 + .ofNat index * 4) }

def bytesBelow (count : Nat) : List UInt8 :=
  (List.range count).map UInt8.ofNat

/-- The functions of a device that both scans ask. -/
def functionsOf (bus device : UInt8) : List PciAddress :=
  let function0 : PciAddress := ⟨bus, device, 0⟩
  if (config function0 0x00).toUInt16 = pciVendorNone then []
  else
    let headerType := (config function0 0x0c >>> 16).toUInt8
    let functionCount := if headerType &&& pciHeaderMultifunction ≠ 0 then 8 else 1
    (bytesBelow functionCount).map fun function => ⟨bus, device, function⟩

/-- The body of the innermost loop of `scan_pci`. -/
def PciInventory.visit (inventory : PciInventory) (address : PciAddress) : PciInventory :=
  match readPciDevice config address with
  | some pciDevice => inventory.push pciDevice
  | none => inventory

def scanPci : PciInventory :=
  (bytesBelow 256).foldl (fun inventory bus =>
    (bytesBelow 32).foldl (fun inventory device =>
      (functionsOf config bus device).foldl (.visit config) inventory) inventory) .empty

/-- The ids that `find_legacy_virtio_device` looks for. -/
def hasIds (deviceId : UInt16) (address : PciAddress) : Bool :=
  let id := config address 0x00
  id.toUInt16 = virtioVendorId ∧ (id >>> 16).toUInt16 = deviceId

def findLegacyVirtioDevice (deviceId : UInt16) : Option PciDevice :=
  let found := (bytesBelow 256).findSome? fun bus =>
    (bytesBelow 32).findSome? fun device =>
      (functionsOf config bus device).find? (hasIds config deviceId)
  found.bind (readPciDevice config)

/-- All functions that answer a scan, in its order. -/
def functions : List PciAddress :=
  (bytesBelow 256).flatMap fun bus => (bytesBelow 32).flatMap (functionsOf config bus)

theorem foldl_visit (addresses : List PciAddress) (inventory : PciInventory) :
    addresses.foldl (.visit config) inventory =
      (addresses.filterMap (readPciDevice config)).foldl .push inventory := by
  induction addresses generalizing inventory with
  | nil => rfl
  | cons address addresses ih =>
    rw [List.foldl_cons, ih, PciInventory.visit, List.filterMap_cons]
    cases readPciDevice config address <;> rfl

theorem scanPci_eq :
    scanPci config =
      ((functions config).filterMap (readPciDevice config)).foldl PciInventory.push .empty := by
  rw [← foldl_visit, functions, List.foldl_flatMap]
  simp only [List.foldl_flatMap, scanPci]

theorem findLegacyVirtioDevice_eq (deviceId : UInt16) :
    findLegacyVirtioDevice config deviceId =
      ((functions config).find? (hasIds config deviceId)).bind (readPciDevice config) := by
  simp only [findLegacyVirtioDevice, functions, List.find?_flatMap]

end

theorem overflow_foldl_push (devices : List PciDevice) (set : inventory.overflow = true) :
    (devices.foldl PciInventory.push inventory).overflow = true := by
  induction devices generalizing inventory with
  | nil => exact set
  | cons device devices ih =>
    apply ih
    unfold PciInventory.push
    split <;> simp [set]

/-- Devices are recorded in order, as long as there is room. -/
theorem foldl_push (devices : List PciDevice) (inventory : PciInventory) :
    (devices.foldl .push inventory).overflow = true ∨
      (devices.foldl .push inventory).devices = inventory.devices ++ devices := by
  induction devices generalizing inventory with
  | nil => simp
  | cons device devices ih =>
    by_cases full : inventory.devices.length = maxPciDevices
    · exact .inl (overflow_foldl_push devices (by simp [PciInventory.push, full]))
    · simpa [PciInventory.push, full] using ih (inventory.push device)

theorem virtio_enter (summary : HardwareSummary) (device : PciDevice) :
    (summary.enter device).virtioBlock = summary.virtioBlock.or
        (if device.role = .virtioBlock then some device.address else none) ∧
      (summary.enter device).virtioNet = summary.virtioNet.or
        (if device.role = .virtioNet then some device.address else none) := by
  unfold HardwareSummary.enter
  cases device.role <;> split <;> simp

/-- The summary names the first device of a role. -/
theorem virtio_foldl_enter (devices : List PciDevice) (summary : HardwareSummary) :
    (devices.foldl .enter summary).virtioBlock =
        summary.virtioBlock.or ((devices.find? (·.role = .virtioBlock)).map (·.address)) ∧
      (devices.foldl .enter summary).virtioNet =
        summary.virtioNet.or ((devices.find? (·.role = .virtioNet)).map (·.address)) := by
  induction devices generalizing summary with
  | nil => simp
  | cons device devices ih =>
    rw [List.foldl_cons, (ih _).1, (ih _).2, (virtio_enter _ _).1, (virtio_enter _ _).2]
    constructor <;> split <;> simp [*]

/-- Only a virtio device with the legacy id has the role. -/
theorem classifyPciDevice_virtio (vendorId deviceId : UInt16) (classCode subclass : UInt8) :
    (classifyPciDevice vendorId deviceId classCode subclass = .virtioBlock ↔
        vendorId = virtioVendorId ∧ deviceId = virtioBlockLegacyDeviceId) ∧
      (classifyPciDevice vendorId deviceId classCode subclass = .virtioNet ↔
        vendorId = virtioVendorId ∧ deviceId = virtioNetLegacyDeviceId) := by
  have differ : virtioNetLegacyDeviceId ≠ virtioBlockLegacyDeviceId := by decide
  unfold classifyPciDevice
  split
  · split_ifs <;> simp_all
  · split <;> simp [*]

theorem any_readPciDevice (config : PciConfig) :
    (fun address => (readPciDevice config address).any (·.role = .virtioBlock)) =
        hasIds config virtioBlockLegacyDeviceId ∧
      (fun address => (readPciDevice config address).any (·.role = .virtioNet)) =
        hasIds config virtioNetLegacyDeviceId := by
  have exists_ : virtioVendorId ≠ pciVendorNone := by decide
  constructor <;> funext address <;> simp only [readPciDevice, hasIds] <;> split <;>
    simp_all [PciDevice.role, classifyPciDevice_virtio, exists_.symm]

/-- Unless the inventory overflowed, both scans name the same virtio devices. -/
theorem inventory_agrees_with_discovery (config : PciConfig) :
    (scanPci config).overflow = true ∨
      (scanPci config).summary.virtioBlock =
          (findLegacyVirtioDevice config virtioBlockLegacyDeviceId).map (·.address) ∧
        (scanPci config).summary.virtioNet =
          (findLegacyVirtioDevice config virtioNetLegacyDeviceId).map (·.address) := by
  rw [scanPci_eq]
  refine (foldl_push _ .empty).imp_right fun recorded => ?_
  rw [PciInventory.summary, recorded]
  simp only [virtio_foldl_enter, findLegacyVirtioDevice_eq, PciInventory.empty, List.nil_append,
    List.find?_filterMap, any_readPciDevice, Option.none_or, and_self]

end CodexOS.Hardware
