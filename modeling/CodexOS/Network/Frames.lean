import CodexOS.Lib.Bytes

/-! # Ethernet frames with TCP segments

The checksums, the builder of outgoing frames and the parser of the listener, on
the bytes of a frame. An index out of range stops the kernel, which is kept apart
from the errors the code returns.
-/

namespace CodexOS.Network

open Bytes

abbrev MacAddress := Vector UInt8 6
abbrev Ipv4Address := Vector UInt8 4

def maxEthernetFrame : Nat := 1514
def minEthernetFrame : Nat := 60
def ethernetHeaderBytes : Nat := 14
def ipv4HeaderBytes : Nat := 20
def tcpHeaderBytes : Nat := 20
def ethertypeIpv4 : UInt16 := 0x0800
def ipProtocolTcp : UInt8 := 6
def tcpServerInitialSequence : UInt32 := 0x43445901
def tcpFlagFin : UInt16 := 0x01
def tcpFlagSyn : UInt16 := 0x02
def tcpFlagRst : UInt16 := 0x04
def tcpFlagPsh : UInt16 := 0x08
def tcpFlagAck : UInt16 := 0x10

inductive NetworkError where
  | deviceNotFound
  | invalidIoBar
  | queueUnavailable (index : UInt16)
  | queueTooSmall (index : UInt16)
  | queueAddressTooHigh
  | dmaAddressUnavailable
  | deviceRejected
  | frameTooLarge
  | packetMalformed
  | requestTimedOut
  | dhcpTimedOut
  | dhcpRejected
  | arpTimedOut
  | icmpTimedOut
  | dnsTimedOut
  | dnsRejected
  | tcpTimedOut
  | tcpRejected
  | httpRejected
  deriving DecidableEq

/-- Why a function does not return a value: it panicked, or it returned an error. -/
inductive Stop where
  | panicked
  | failed (error : NetworkError)
  deriving DecidableEq

abbrev Checked := Except Stop

def malformed {α : Type} : Checked α :=
  .error (.failed .packetMalformed)

/-- `bytes[index]`. -/
def index (bytes : Bytes) (i : Nat) : Checked UInt8 :=
  match bytes[i]? with
  | some byte => .ok byte
  | none => .error .panicked

/-- `bytes.get(start..stop)`. -/
def get (bytes : Bytes) (start stop : Nat) : Option Bytes :=
  if start ≤ stop ∧ stop ≤ bytes.length then some (slice bytes start (stop - start)) else none

/-- `&bytes[start..stop]`. -/
def range (bytes : Bytes) (start stop : Nat) : Checked Bytes :=
  match get bytes start stop with
  | some part => .ok part
  | none => .error .panicked

def beU16 (value : UInt16) : Bytes :=
  [(value >>> 8).toUInt8, value.toUInt8]

def beU32 (value : UInt32) : Bytes :=
  [(value >>> 24).toUInt8, (value >>> 16).toUInt8, (value >>> 8).toUInt8, value.toUInt8]

/-- `u16::from_be_bytes`. -/
def fromBeU16 (high low : UInt8) : UInt16 :=
  high.toUInt16 <<< 8 ||| low.toUInt16

/-- `u32::from_be_bytes`. -/
def fromBeU32 (b0 b1 b2 b3 : UInt8) : UInt32 :=
  b0.toUInt32 <<< 24 ||| b1.toUInt32 <<< 16 ||| b2.toUInt32 <<< 8 ||| b3.toUInt32

def putBeU16 (output : Bytes) (offset : Nat) (value : UInt16) : Bytes :=
  put output offset (beU16 value)

def putBeU32 (output : Bytes) (offset : Nat) (value : UInt32) : Bytes :=
  put output offset (beU32 value)

def getBeU16 (input : Bytes) (offset : Nat) : Checked UInt16 :=
  match get input offset (offset + 2) with
  | none => malformed
  | some bytes => do return fromBeU16 (← index bytes 0) (← index bytes 1)

def getBeU32 (input : Bytes) (offset : Nat) : Checked UInt32 :=
  match get input offset (offset + 4) with
  | none => malformed
  | some bytes => do
    return fromBeU32 (← index bytes 0) (← index bytes 1) (← index bytes 2) (← index bytes 3)

def readIpv4 (input : Bytes) (offset : Nat) : Checked Ipv4Address :=
  match get input offset (offset + 4) with
  | none => malformed
  | some bytes => do
    return #v[← index bytes 0, ← index bytes 1, ← index bytes 2, ← index bytes 3]

/-- The sum of the big-endian words of the bytes, an odd last byte padded with zero. -/
def checksumSum (bytes : Bytes) : UInt32 :=
  go 0 bytes
where
  go (sum : UInt32) : Bytes → UInt32
    | high :: low :: rest => go (sum + (fromBeU16 high low).toUInt32) rest
    | [last] => sum + last.toUInt32 <<< 8
    | [] => sum

/-- The loop of `finish_checksum`. A 32-bit sum has no carry left after three rounds. -/
def foldCarry : Nat → UInt32 → UInt32
  | 0, sum => sum
  | rounds + 1, sum =>
    if sum >>> 16 ≠ 0 then foldCarry rounds ((sum &&& (0xffff : UInt32)) + (sum >>> 16)) else sum

def finishChecksum (sum : UInt32) : UInt16 :=
  ~~~(foldCarry 3 sum).toUInt16

def internetChecksum (bytes : Bytes) : UInt16 :=
  finishChecksum (checksumSum bytes)

def ipv4TransportChecksum (source destination : Ipv4Address) (protocol : UInt8) (segment : Bytes) :
    UInt16 :=
  if segment.length < 65536 then
    let pseudoHeader :=
      source.toList ++ destination.toList ++ [0, protocol] ++ beU16 (.ofNat segment.length)
    finishChecksum (checksumSum pseudoHeader + checksumSum segment)
  else 1

structure TcpSegment where
  sequence : UInt32
  acknowledgement : UInt32
  flags : UInt16
  payloadOffset : Nat
  payloadLen : Nat
  deriving DecidableEq

structure TcpFrameRequest where
  sourceMac : MacAddress
  destinationMac : MacAddress
  sourceAddress : Ipv4Address
  destinationAddress : Ipv4Address
  sourcePort : UInt16
  destinationPort : UInt16
  sequence : UInt32
  acknowledgement : UInt32
  flags : UInt16
  payload : Bytes
  deriving DecidableEq

structure IncomingTcpSegment where
  remoteMac : MacAddress
  remoteAddress : Ipv4Address
  remotePort : UInt16
  segment : TcpSegment
  deriving DecidableEq

def queryPacketId (sourcePort destinationPort : UInt16) : UInt16 :=
  sourcePort ^^^ destinationPort

/-- The Ethernet and IPv4 headers of an outgoing frame. -/
def ipv4HeaderFrame (request : TcpFrameRequest) (ipLength : Nat) : Bytes :=
  let ip := ethernetHeaderBytes
  let frame := zeros maxEthernetFrame
  let frame := put frame 0 request.destinationMac.toList
  let frame := put frame 6 request.sourceMac.toList
  let frame := putBeU16 frame 12 ethertypeIpv4
  let frame := put frame ip [0x45]
  let frame := putBeU16 frame (ip + 2) (.ofNat ipLength)
  let frame := putBeU16 frame (ip + 4) (queryPacketId request.sourcePort request.destinationPort)
  let frame := putBeU16 frame (ip + 6) 0x4000
  let frame := put frame (ip + 8) [64]
  let frame := put frame (ip + 9) [ipProtocolTcp]
  let frame := put frame (ip + 12) request.sourceAddress.toList
  let frame := put frame (ip + 16) request.destinationAddress.toList
  putBeU16 frame (ip + 10) (internetChecksum (slice frame ip ipv4HeaderBytes))

def buildTcpIpv4Frame (request : TcpFrameRequest) : Checked (Bytes × Nat) :=
  let tcpLength := tcpHeaderBytes + request.payload.length
  let ipLength := ipv4HeaderBytes + tcpLength
  let frameLength := ethernetHeaderBytes + ipLength
  if frameLength > maxEthernetFrame then .error (.failed .frameTooLarge)
  else
    let transmitLength := max frameLength minEthernetFrame
    let frame := ipv4HeaderFrame request ipLength
    let tcp := ethernetHeaderBytes + ipv4HeaderBytes
    let frame := putBeU16 frame tcp request.sourcePort
    let frame := putBeU16 frame (tcp + 2) request.destinationPort
    let frame := putBeU32 frame (tcp + 4) request.sequence
    let frame := putBeU32 frame (tcp + 8) request.acknowledgement
    let frame := put frame (tcp + 12) [UInt8.ofNat (tcpHeaderBytes / 4) <<< 4]
    let frame := put frame (tcp + 13) [(request.flags &&& 0x3f).toUInt8]
    let frame := putBeU16 frame (tcp + 14) 0x4000
    let frame := put frame (tcp + tcpHeaderBytes) request.payload
    let checksum := ipv4TransportChecksum request.sourceAddress request.destinationAddress
      ipProtocolTcp (slice frame tcp tcpLength)
    .ok (putBeU16 frame (tcp + 16) (if checksum = 0 then 0xffff else checksum), transmitLength)

/-- The parser of the client side, which knows the peer it waits for. -/
def parseTcpSegment (frame : Bytes) (expectedMac : MacAddress) (address remote : Ipv4Address)
    (localPort remotePort : UInt16) : Checked TcpSegment := do
  if frame.length < ethernetHeaderBytes + ipv4HeaderBytes + 20 then malformed
  if get frame 6 12 ≠ some expectedMac.toList then malformed
  if (← getBeU16 frame 12) ≠ ethertypeIpv4 then malformed
  let ip := ethernetHeaderBytes
  let versionAndLength ← index frame ip
  let headerBytes := (versionAndLength &&& 0x0f).toNat * 4
  let totalBytes := (← getBeU16 frame (ip + 2)).toNat
  if versionAndLength >>> 4 ≠ 4 then malformed
  if headerBytes < ipv4HeaderBytes then malformed
  if totalBytes < headerBytes + 20 then malformed
  if ip + totalBytes > frame.length then malformed
  if internetChecksum (← range frame ip (ip + headerBytes)) ≠ 0 then malformed
  if (← index frame (ip + 9)) ≠ ipProtocolTcp then malformed
  if (← getBeU16 frame (ip + 6)) &&& 0x3fff ≠ 0 then malformed
  if get frame (ip + 12) (ip + 16) ≠ some remote.toList then malformed
  if get frame (ip + 16) (ip + 20) ≠ some address.toList then malformed
  let tcp := ip + headerBytes
  let tcpLength := totalBytes - headerBytes
  let dataOffset := ((← index frame (tcp + 12)) >>> 4).toNat * 4
  if (← getBeU16 frame tcp) ≠ remotePort then malformed
  if (← getBeU16 frame (tcp + 2)) ≠ localPort then malformed
  if dataOffset < 20 then malformed
  if dataOffset > tcpLength then malformed
  if ipv4TransportChecksum remote address ipProtocolTcp
      (← range frame tcp (tcp + tcpLength)) ≠ 0 then malformed
  let sequence ← getBeU32 frame (tcp + 4)
  let acknowledgement ← getBeU32 frame (tcp + 8)
  let flags ← index frame (tcp + 13)
  return {
    sequence
    acknowledgement
    flags := flags.toUInt16
    payloadOffset := tcp + dataOffset
    payloadLen := tcpLength - dataOffset }

/-- The checks of the listener run from left to right and stop at the first that fails. -/
def parseTcpListenerSegment (frame : Bytes) (localMac : MacAddress) (localAddress : Ipv4Address)
    (localPort : UInt16) : Checked IncomingTcpSegment := do
  if frame.length < ethernetHeaderBytes + ipv4HeaderBytes + 20 then malformed
  if get frame 0 6 ≠ some localMac.toList then malformed
  if (← getBeU16 frame 12) ≠ ethertypeIpv4 then malformed
  let remoteMac ← range frame 6 12
  let ip := ethernetHeaderBytes
  let versionAndLength ← index frame ip
  let headerBytes := (versionAndLength &&& 0x0f).toNat * 4
  let totalBytes := (← getBeU16 frame (ip + 2)).toNat
  if versionAndLength >>> 4 ≠ 4 then malformed
  if headerBytes < ipv4HeaderBytes then malformed
  if totalBytes < headerBytes + 20 then malformed
  if ip + totalBytes > frame.length then malformed
  if internetChecksum (← range frame ip (ip + headerBytes)) ≠ 0 then malformed
  if (← index frame (ip + 9)) ≠ ipProtocolTcp then malformed
  if (← getBeU16 frame (ip + 6)) &&& 0x3fff ≠ 0 then malformed
  if get frame (ip + 16) (ip + 20) ≠ some localAddress.toList then malformed
  let remoteAddress ← readIpv4 frame (ip + 12)
  let tcp := ip + headerBytes
  let tcpLength := totalBytes - headerBytes
  let dataOffset := ((← index frame (tcp + 12)) >>> 4).toNat * 4
  if (← getBeU16 frame (tcp + 2)) ≠ localPort then malformed
  if dataOffset < 20 then malformed
  if dataOffset > tcpLength then malformed
  if ipv4TransportChecksum remoteAddress localAddress ipProtocolTcp
      (← range frame tcp (tcp + tcpLength)) ≠ 0 then malformed
  let remotePort ← getBeU16 frame tcp
  let sequence ← getBeU32 frame (tcp + 4)
  let acknowledgement ← getBeU32 frame (tcp + 8)
  let flags ← index frame (tcp + 13)
  return {
    remoteMac := arrayAt 6 remoteMac 0
    remoteAddress
    remotePort
    segment := {
      sequence
      acknowledgement
      flags := flags.toUInt16
      payloadOffset := tcp + dataOffset
      payloadLen := tcpLength - dataOffset } }

/-- The bytes of `GET /` and `HEAD /`. -/
def getPrefix : Bytes := [71, 69, 84, 32, 47]
def headPrefix : Bytes := [72, 69, 65, 68, 32, 47]

def isSupportedListenerRequest (payload : Bytes) : Bool :=
  getPrefix.isPrefixOf payload || headPrefix.isPrefixOf payload

def tcpServerSequence (remoteAddress : Ipv4Address) (remotePort : UInt16) : UInt32 :=
  tcpServerInitialSequence ^^^
    fromBeU32 remoteAddress[0] remoteAddress[1] remoteAddress[2] remoteAddress[3] ^^^
    (remotePort.toUInt32 <<< 16 ||| remotePort.toUInt32)

/-- The slice patterns `[a, b, c, d]` and `[a, b, c, d, ..]`. -/
def fourBytes : Bytes → Option Ipv4Address
  | [a, b, c, d] => some #v[a, b, c, d]
  | _ => none

def firstFourBytes : Bytes → Option Ipv4Address
  | a :: b :: c :: d :: _ => some #v[a, b, c, d]
  | _ => none

def fromBeBytes (bytes : Ipv4Address) : UInt32 :=
  fromBeU32 bytes[0] bytes[1] bytes[2] bytes[3]

end CodexOS.Network
