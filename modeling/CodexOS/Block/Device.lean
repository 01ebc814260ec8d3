import CodexOS.Lib.Bytes

/-! # Block devices

What the file system and the driver share: sectors and the errors of a device.
-/

namespace CodexOS.Block

open Bytes

def sectorSize : Nat := 512

/-- An array of one sector. -/
structure Sector where
  bytes : Bytes
  length_eq : bytes.length = sectorSize
  deriving DecidableEq

namespace Sector

attribute [simp] length_eq

@[ext]
theorem ext {sector sector' : Sector} (same : sector.bytes = sector'.bytes) : sector = sector' := by
  cases sector
  cases sector'
  cases same
  rfl

/-- A sector with the same byte everywhere. -/
def filled (byte : UInt8) : Sector where
  bytes := List.replicate sectorSize byte
  length_eq := List.length_replicate

end Sector

inductive BlockError
  | deviceNotFound
  | invalidIoBar
  | queueUnavailable
  | queueTooSmall
  | queueAddressTooHigh
  | dmaAddressUnavailable
  | deviceRejected
  | sectorOutOfRange
  | requestTimedOut
  | requestFailed (status : UInt8)
  deriving DecidableEq

/-- The calls a device offers. A call that fails may still have changed the device. -/
class BlockDevice (δ : Type) where
  sectorCount : δ → Nat
  supportsFlush : δ → Bool
  readSector (sector : Nat) : EStateM BlockError δ Sector
  writeSector (sector : Nat) (input : Sector) : EStateM BlockError δ Unit
  flush : EStateM BlockError δ Unit

end CodexOS.Block
