import Mathlib.Data.List.Basic

/-! # The decoder of the PS/2 mouse

Three bytes make a packet. Where a header is expected, a byte without the marker bit is
skipped. The sign of a movement is in the header and its lower eight bits are in a data
byte, but the decoder takes the sign of a negative movement from the data byte.
-/

namespace CodexOS.Input

structure PointerSample where
  deltaX : Int
  deltaY : Int
  leftButton : Bool
  rightButton : Bool
  deriving DecidableEq

structure Ps2MouseDecoder where
  packet : Vector UInt8 3
  packetIndex : Fin 3

def signExtendMouseDelta (byte : UInt8) (negative : Bool) : Int :=
  if negative then byte.toInt8.toInt else byte.toNat

namespace Ps2MouseDecoder

def new : Ps2MouseDecoder where
  packet := #v[0, 0, 0]
  packetIndex := 0

def feed (decoder : Ps2MouseDecoder) (byte : UInt8) : Option PointerSample × Ps2MouseDecoder :=
  if decoder.packetIndex = 0 ∧ byte &&& 0x08 = 0 then (none, decoder)
  else
    let packet := decoder.packet.set decoder.packetIndex byte
    if more : decoder.packetIndex.val + 1 < 3 then (none, { packet, packetIndex := ⟨_, more⟩ })
    else
      let decoder := { packet, packetIndex := 0 }
      let header := packet[0]
      if header &&& 0xC0 ≠ 0 then (none, decoder)
      else
        let dx := signExtendMouseDelta packet[1] (header &&& 0x10 ≠ 0)
        let ps2Y := signExtendMouseDelta packet[2] (header &&& 0x20 ≠ 0)
        let sample := {
          deltaX := dx
          deltaY := -ps2Y
          leftButton := header &&& 0x01 ≠ 0
          rightButton := header &&& 0x02 ≠ 0 }
        (some sample, decoder)

/-- The answers to the bytes of a stream. -/
def feedAll (decoder : Ps2MouseDecoder) : List UInt8 → List (Option PointerSample)
  | [] => []
  | byte :: bytes => (decoder.feed byte).1 :: (decoder.feed byte).2.feedAll bytes

end Ps2MouseDecoder

/-- A packet as the mouse sends it. -/
structure MousePacket where
  header : UInt8
  x : UInt8
  y : UInt8
  marked : header &&& 0x08 ≠ 0
  noOverflow : header &&& 0xC0 = 0

/-- The nine-bit number in two's complement with these lower bits and this sign bit. -/
def movement (byte : UInt8) (sign : Bool) : Int :=
  if sign then byte.toNat - 256 else byte.toNat

namespace MousePacket

def bytes (packet : MousePacket) : List UInt8 :=
  [packet.header, packet.x, packet.y]

def deltaX (packet : MousePacket) : Int :=
  movement packet.x (packet.header &&& 0x10 ≠ 0)

def deltaY (packet : MousePacket) : Int :=
  movement packet.y (packet.header &&& 0x20 ≠ 0)

/-- A packet, when a data byte and its sign bit are read as `number` says. -/
def reading (number : UInt8 → Bool → Int) (packet : MousePacket) : PointerSample where
  deltaX := number packet.x (packet.header &&& 0x10 ≠ 0)
  deltaY := -number packet.y (packet.header &&& 0x20 ≠ 0)
  leftButton := packet.header &&& 0x01 ≠ 0
  rightButton := packet.header &&& 0x02 ≠ 0

/-- What a packet means. -/
def sample : MousePacket → PointerSample :=
  reading movement

end MousePacket

theorem signExtendMouseDelta_eq_iff (byte : UInt8) (sign : Bool) :
    signExtendMouseDelta byte sign = movement byte sign ↔ -128 ≤ movement byte sign := by
  have small := byte.toNat_lt
  cases sign with
  | false =>
    simp only [signExtendMouseDelta, movement, Bool.false_eq_true, if_false, true_iff]
    omega
  | true =>
    have value : byte.toInt8.toInt = byte.toBitVec.toInt := rfl
    rw [BitVec.toInt_eq_toNat_cond, UInt8.toNat_toBitVec] at value
    simp only [signExtendMouseDelta, movement, if_true, value]
    split <;> omega

theorem MousePacket.reading_eq_sample_iff (packet : MousePacket) :
    packet.reading signExtendMouseDelta = packet.sample ↔
      -128 ≤ packet.deltaX ∧ -128 ≤ packet.deltaY := by
  simp only [reading, sample, deltaX, deltaY, PointerSample.mk.injEq, Int.neg_inj, and_true,
    signExtendMouseDelta_eq_iff]

namespace Ps2MouseDecoder

theorem feedAll_noise (packet : Vector UInt8 3) (noise : List { byte : UInt8 // byte &&& 0x08 = 0 })
    (bytes : List UInt8) :
    feedAll ⟨packet, 0⟩ (noise.map (·.1) ++ bytes) =
      noise.map (fun _ => none) ++ feedAll ⟨packet, 0⟩ bytes := by
  induction noise with
  | nil => rfl
  | cons byte noise ih =>
    have skipped : feed ⟨packet, 0⟩ byte.1 = (none, ⟨packet, 0⟩) := if_pos ⟨rfl, byte.2⟩
    simp only [List.map_cons, List.cons_append, feedAll, skipped, ih]

/-- A packet is answered at its third byte, and the decoder is ready for the next one. -/
theorem feedAll_packet (old : Vector UInt8 3) (packet : MousePacket) (bytes : List UInt8) :
    feedAll ⟨old, 0⟩ (packet.bytes ++ bytes) =
      none :: none :: some (packet.reading signExtendMouseDelta) ::
        feedAll ⟨((old.set 0 packet.header).set 1 packet.x).set 2 packet.y, 0⟩ bytes := by
  simp [MousePacket.bytes, feedAll, feed, packet.marked, packet.noOverflow, MousePacket.reading]

theorem feedAll_packets (old : Vector UInt8 3) (packets : List MousePacket) :
    feedAll ⟨old, 0⟩ (packets.flatMap MousePacket.bytes) =
      packets.flatMap fun packet => [none, none, some (packet.reading signExtendMouseDelta)] := by
  induction packets generalizing old with
  | nil => rfl
  | cons packet packets ih =>
    simp only [List.flatMap_cons, feedAll_packet, ih, List.cons_append, List.nil_append]

end Ps2MouseDecoder

theorem flatMap_samples_inj (packets : List MousePacket) (first second : MousePacket → PointerSample) :
    (packets.flatMap fun packet => [none, none, some (first packet)]) =
        packets.flatMap (fun packet => [none, none, some (second packet)]) ↔
      ∀ packet ∈ packets, first packet = second packet := by
  induction packets with
  | nil => simp
  | cons packet packets ih => simp [ih]

/-- The stream is decoded as the mouse means it exactly when no movement is below -128. -/
theorem mouse_stream_decoded_iff (noise : List { byte : UInt8 // byte &&& 0x08 = 0 })
    (packets : List MousePacket) :
    Ps2MouseDecoder.new.feedAll (noise.map (·.1) ++ packets.flatMap MousePacket.bytes) =
        noise.map (fun _ => none) ++
          packets.flatMap (fun packet => [none, none, some packet.sample]) ↔
      ∀ packet ∈ packets, -128 ≤ packet.deltaX ∧ -128 ≤ packet.deltaY := by
  unfold Ps2MouseDecoder.new
  rw [Ps2MouseDecoder.feedAll_noise, Ps2MouseDecoder.feedAll_packets, List.append_cancel_left_eq,
    flatMap_samples_inj]
  simp only [MousePacket.reading_eq_sample_iff]

/-- A movement of -240 is reported as one of 16. -/
theorem large_negative_movement_misread : ∃ packet : MousePacket, packet.deltaX = -240 ∧
    Ps2MouseDecoder.new.feedAll packet.bytes =
      [none, none, some { packet.sample with deltaX := 16 }] :=
  ⟨⟨0x18, 0x10, 0, by decide, by decide⟩, by decide⟩

end CodexOS.Input
