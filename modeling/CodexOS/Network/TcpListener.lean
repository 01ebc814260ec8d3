import CodexOS.Lib.SlotTable
import CodexOS.Lib.Word64
import CodexOS.Network.Frames

/-! # The TCP listener

One table of connections serves all peers. Every frame is parsed, finds the slot of
its peer and may change that slot. Connections that were quiet for too long are
dropped.
-/

namespace CodexOS.Network

open Bytes

def tcpListenerCapacity : Nat := 8
def tcpListenerIdleTimeoutTicks : Nat := 3000

/-- The bytes of the response, line by line. -/
def httpListenerResponse : Bytes :=
  [72, 84, 84, 80, 47, 49, 46, 49, 32, 50, 48, 48, 32, 79, 75, 13, 10] ++
  [67, 111, 110, 116, 101, 110, 116, 45, 84, 121, 112, 101, 58, 32, 116, 101, 120, 116, 47,
    112, 108, 97, 105, 110, 13, 10] ++
  [67, 111, 110, 116, 101, 110, 116, 45, 76, 101, 110, 103, 116, 104, 58, 32, 50, 52, 13,
    10] ++
  [67, 111, 110, 110, 101, 99, 116, 105, 111, 110, 58, 32, 99, 108, 111, 115, 101, 13, 10,
    13, 10] ++
  [99, 111, 100, 101, 120, 79, 83, 32, 108, 105, 115, 116, 101, 110, 101, 114, 32, 111, 110,
    108, 105, 110, 101, 10]

structure TcpLocalEndpoint where
  mac : MacAddress
  address : Ipv4Address
  deriving DecidableEq

inductive TcpServerPhase
  | established
  | finWait1
  | finWait2
  deriving DecidableEq

structure TcpServerConnection where
  remoteMac : MacAddress
  remoteAddress : Ipv4Address
  remotePort : UInt16
  remoteNext : UInt32
  localNext : UInt32
  phase : TcpServerPhase
  lastActivityTick : Nat
  deriving DecidableEq

inductive TcpServerEventKind
  | accepted
  | served
  deriving DecidableEq

structure TcpServerEvent where
  kind : TcpServerEventKind
  remoteAddress : Ipv4Address
  remotePort : UInt16
  localPort : UInt16
  requestBytes : Nat
  responseBytes : Nat
  connectionCount : Nat
  deriving DecidableEq

structure TcpServerAction where
  frame : Bytes
  length : Nat
  event : Option TcpServerEvent
  deriving DecidableEq

structure TcpListener where
  localPort : UInt16
  connections : List (Option TcpServerConnection)
  servedConnections : Nat
  closedConnections : Nat
  deriving DecidableEq

section

variable (incoming : IncomingTcpSegment)

/-- `flags & flag != 0`. -/
def IncomingTcpSegment.has (flag : UInt16) : Bool :=
  incoming.segment.flags &&& flag ≠ 0

/-- `u32::from(flags & flag != 0)`. -/
def IncomingTcpSegment.count (flag : UInt16) : UInt32 :=
  if incoming.has flag then 1 else 0

/-- A frame to the peer of a connection. -/
def TcpServerConnection.reply (connection : TcpServerConnection) (endpoint : TcpLocalEndpoint)
    (localPort : UInt16) (sequence acknowledgement : UInt32) (flags : UInt16) (payload : Bytes) :
    TcpFrameRequest where
  sourceMac := endpoint.mac
  destinationMac := connection.remoteMac
  sourceAddress := endpoint.address
  destinationAddress := connection.remoteAddress
  sourcePort := localPort
  destinationPort := connection.remotePort
  sequence
  acknowledgement
  flags
  payload

/-- A frame to the peer a segment came from. -/
def IncomingTcpSegment.reply (endpoint : TcpLocalEndpoint) (localPort : UInt16)
    (acknowledgement : UInt32) (flags : UInt16) : TcpFrameRequest where
  sourceMac := endpoint.mac
  destinationMac := incoming.remoteMac
  sourceAddress := endpoint.address
  destinationAddress := incoming.remoteAddress
  sourcePort := localPort
  destinationPort := incoming.remotePort
  sequence := tcpServerSequence incoming.remoteAddress incoming.remotePort
  acknowledgement
  flags
  payload := []

end

namespace TcpListener

def new (localPort : UInt16) : TcpListener where
  localPort
  connections := List.replicate tcpListenerCapacity none
  servedConnections := 0
  closedConnections := 0

section

variable (listener : TcpListener)

def setConnection (index : Nat) (entry : Option TcpServerConnection) : TcpListener :=
  { listener with connections := listener.connections.set index entry }

def connectionIndex (incoming : IncomingTcpSegment) : Option Nat :=
  listener.connections.findIdx? fun entry => entry.any fun connection =>
    connection.remoteAddress = incoming.remoteAddress ∧
      connection.remotePort = incoming.remotePort ∧ connection.remoteMac = incoming.remoteMac

def reset (incoming : IncomingTcpSegment) (endpoint : TcpLocalEndpoint) :
    Checked TcpServerAction := do
  let acknowledgement := incoming.segment.sequence + .ofNat incoming.segment.payloadLen +
    incoming.count tcpFlagSyn + incoming.count tcpFlagFin
  let (frame, length) ← buildTcpIpv4Frame
    (incoming.reply endpoint listener.localPort acknowledgement (tcpFlagRst ||| tcpFlagAck))
  return { frame, length, event := none }

def acceptSyn (incoming : IncomingTcpSegment) (endpoint : TcpLocalEndpoint) (nowTick : Nat) :
    Checked TcpServerAction × TcpListener :=
  let free := listener.connections.findIdx? Option.isNone
  match (listener.connectionIndex incoming).or free with
  | none => (listener.reset incoming endpoint, listener)
  | some index =>
    let serverSequence := tcpServerSequence incoming.remoteAddress incoming.remotePort
    let remoteNext := incoming.segment.sequence + 1
    match buildTcpIpv4Frame
        (incoming.reply endpoint listener.localPort remoteNext (tcpFlagSyn ||| tcpFlagAck)) with
    | .error stop => (.error stop, listener)
    | .ok (frame, length) =>
      let listener := listener.setConnection index (some {
        remoteMac := incoming.remoteMac
        remoteAddress := incoming.remoteAddress
        remotePort := incoming.remotePort
        remoteNext
        localNext := serverSequence + 1
        phase := .established
        lastActivityTick := nowTick })
      let event := {
        kind := .accepted
        remoteAddress := incoming.remoteAddress
        remotePort := incoming.remotePort
        localPort := listener.localPort
        requestBytes := 0
        responseBytes := 0
        connectionCount := listener.servedConnections }
      (.ok { frame, length, event := some event }, listener)

def handleControlSegment (index : Nat) (connection : TcpServerConnection)
    (incoming : IncomingTcpSegment) (endpoint : TcpLocalEndpoint) (nowTick : Nat) :
    Checked (Option TcpServerAction) × TcpListener :=
  if ¬incoming.has tcpFlagAck ∨ incoming.segment.acknowledgement ≠ connection.localNext ∨
      incoming.segment.sequence ≠ connection.remoteNext then
    (.ok none, listener)
  else
    let connection := { connection with lastActivityTick := nowTick }
    if incoming.has tcpFlagFin then
      let connection := { connection with remoteNext := connection.remoteNext + 1 }
      let listener := listener.setConnection index none
      let listener := { listener with
        closedConnections := Word64.saturatingAdd listener.closedConnections 1 }
      let reply := do
        let (frame, length) ← buildTcpIpv4Frame (connection.reply endpoint listener.localPort
          connection.localNext connection.remoteNext tcpFlagAck [])
        return some { frame, length, event := none }
      (reply, listener)
    else
      let connection :=
        if connection.phase = .finWait1 then { connection with phase := .finWait2 } else connection
      (.ok none, listener.setConnection index (some connection))

def retransmitResponse (index : Nat) (connection : TcpServerConnection)
    (incoming : IncomingTcpSegment) (payload : Bytes) (endpoint : TcpLocalEndpoint) (nowTick : Nat) :
    Checked (Option TcpServerAction) × TcpListener :=
  let remoteSpan := .ofNat incoming.segment.payloadLen + incoming.count tcpFlagFin
  let requestSequence := connection.remoteNext - remoteSpan
  let responseSequence := connection.localNext - .ofNat httpListenerResponse.length - 1
  if ¬isSupportedListenerRequest payload ∨ incoming.segment.sequence ≠ requestSequence ∨
      incoming.segment.acknowledgement ≠ responseSequence then
    (.ok none, listener)
  else
    match buildTcpIpv4Frame (connection.reply endpoint listener.localPort responseSequence
        connection.remoteNext (tcpFlagPsh ||| tcpFlagAck ||| tcpFlagFin) httpListenerResponse) with
    | .error stop => (.error stop, listener)
    | .ok (frame, length) =>
      let connection := { connection with lastActivityTick := nowTick }
      (.ok (some { frame, length, event := none }),
        listener.setConnection index (some connection))

/-- The answer to a request on an established connection. -/
def serve (index : Nat) (connection : TcpServerConnection) (incoming : IncomingTcpSegment)
    (payload : Bytes) (endpoint : TcpLocalEndpoint) (nowTick : Nat) :
    Checked (Option TcpServerAction) × TcpListener :=
  if incoming.segment.acknowledgement ≠ connection.localNext ∨
      incoming.segment.sequence ≠ connection.remoteNext then
    (.ok none, listener)
  else if ¬isSupportedListenerRequest payload then
    let listener := listener.setConnection index none
    ((listener.reset incoming endpoint).map some, listener)
  else
    let remoteNext :=
      connection.remoteNext + .ofNat incoming.segment.payloadLen + incoming.count tcpFlagFin
    match buildTcpIpv4Frame (connection.reply endpoint listener.localPort connection.localNext
        remoteNext (tcpFlagPsh ||| tcpFlagAck ||| tcpFlagFin) httpListenerResponse) with
    | .error stop => (.error stop, listener)
    | .ok (frame, length) =>
      let listener := listener.setConnection index (some { connection with
        remoteNext
        localNext := connection.localNext + .ofNat httpListenerResponse.length + 1
        phase := .finWait1
        lastActivityTick := nowTick })
      let listener := { listener with
        servedConnections := Word64.saturatingAdd listener.servedConnections 1 }
      let event := {
        kind := .served
        remoteAddress := connection.remoteAddress
        remotePort := connection.remotePort
        localPort := listener.localPort
        requestBytes := incoming.segment.payloadLen
        responseBytes := httpListenerResponse.length
        connectionCount := listener.servedConnections }
      (.ok (some { frame, length, event := some event }), listener)

/-- The part of `handle_frame_at` after the frame is parsed. -/
def handleSegment (frame : Bytes) (incoming : IncomingTcpSegment) (endpoint : TcpLocalEndpoint)
    (nowTick : Nat) : Checked (Option TcpServerAction) × TcpListener :=
  if incoming.has tcpFlagRst then
    match listener.connectionIndex incoming with
    | some index => (.ok none, listener.setConnection index none)
    | none => (.ok none, listener)
  else if incoming.has tcpFlagSyn then
    let (action, listener) := listener.acceptSyn incoming endpoint nowTick
    (action.map some, listener)
  else
    match listener.connectionIndex incoming with
    | none => ((listener.reset incoming endpoint).map some, listener)
    | some index =>
      match listener.connections[index]?.join with
      | none => (.ok none, listener)
      | some connection =>
        if incoming.segment.payloadLen = 0 then
          listener.handleControlSegment index connection incoming endpoint nowTick
        else
          let { payloadOffset, payloadLen, .. } := incoming.segment
          match range frame payloadOffset (payloadOffset + payloadLen) with
          | .error stop => (.error stop, listener)
          | .ok payload =>
            if connection.phase ≠ .established then
              listener.retransmitResponse index connection incoming payload endpoint nowTick
            else listener.serve index connection incoming payload endpoint nowTick

def handleFrameAt (frame : Bytes) (endpoint : TcpLocalEndpoint) (nowTick : Nat) :
    Checked (Option TcpServerAction) × TcpListener :=
  match parseTcpListenerSegment frame endpoint.mac endpoint.address listener.localPort with
  | .error stop => (.error stop, listener)
  | .ok incoming => listener.handleSegment frame incoming endpoint nowTick

def isIdle (nowTick : Nat) (connection : TcpServerConnection) : Bool :=
  tcpListenerIdleTimeoutTicks ≤ nowTick - connection.lastActivityTick

def expireIdleConnections (nowTick : Nat) : Nat × TcpListener :=
  let expired := listener.connections.countP fun entry => entry.any (isIdle nowTick)
  (expired,
    { listener with
      connections := listener.connections.map (Option.filter fun entry => !isIdle nowTick entry) })

end

end TcpListener

end CodexOS.Network
