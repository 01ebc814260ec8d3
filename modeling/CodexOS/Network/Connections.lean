import CodexOS.Network.Sequences

/-! # Segments for a connection

What a segment does to the connection of its peer. One that is not the next in order
should leave it alone, and one that ends the exchange should release its slot.
-/

namespace CodexOS.Network

open Bytes SlotTable

theorem buildTcpIpv4Frame_ok (fits : request.payload.length ≤ 1460) :
    ∃ reply length, buildTcpIpv4Frame request = .ok (reply, length) := by
  unfold buildTcpIpv4Frame
  dsimp only
  rw [if_neg]
  · exact ⟨_, _, rfl⟩
  · simp only [ethernetHeaderBytes, ipv4HeaderBytes, tcpHeaderBytes, maxEthernetFrame]
    omega

/-- What a segment out of order must not change. -/
def TcpServerConnection.state (connection : TcpServerConnection) :
    TcpServerPhase × UInt32 × UInt32 :=
  (connection.phase, connection.remoteNext, connection.localNext)

/-- A segment in order that acknowledges all that was sent on a connection, and neither resets it
    nor opens another. -/
structure IncomingTcpSegment.Acknowledges (incoming : IncomingTcpSegment)
    (connection : TcpServerConnection) : Prop where
  notReset : incoming.has tcpFlagRst = false
  notSyn : incoming.has tcpFlagSyn = false
  ack : incoming.has tcpFlagAck = true
  acknowledges : incoming.segment.acknowledgement = connection.localNext
  next : incoming.segment.sequence = connection.remoteNext

section

variable {listener : TcpListener} {frame : Bytes} {incoming : IncomingTcpSegment}
  {endpoint : TcpLocalEndpoint} {nowTick index : Nat} {connection : TcpServerConnection}
  (distinct : Distinct TcpServerConnection.peer listener.connections)

include distinct

theorem entry_setConnection
    (place : Place TcpServerConnection.peer listener.connections incoming.peer index)
    (own : ∀ connection, new = some connection → connection.peer = incoming.peer) :
    (listener.setConnection index new).entry incoming.peer = new := by
  have stored : Stored listener incoming.peer new (listener.setConnection index new) :=
    ⟨rfl, own, .inr ⟨index, place, rfl⟩⟩
  exact stored.entry_same distinct

variable (isEntry : listener.entry incoming.peer = some connection)

include isEntry

/-- Only a reset or a SYN reaches a connection out of order. -/
theorem entry_of_stale (stale : incoming.segment.sequence ≠ connection.remoteNext) :
    ((listener.handleSegment frame incoming endpoint nowTick).2.entry incoming.peer).map
        TcpServerConnection.state =
      if incoming.has tcpFlagRst then none
      else if incoming.has tcpFlagSyn then some (incoming.opened nowTick).state
      else some connection.state := by
  obtain ⟨index, isIndex, stands, place⟩ := located_of_entry distinct isEntry
  have own := (lookup_eq_some isEntry).1
  have same : (listener.entry incoming.peer).map TcpServerConnection.state =
      some connection.state := by
    rw [isEntry]
    rfl
  unfold TcpListener.handleSegment
  simp only [isIndex, stands]
  split
  · have cleared : (listener.setConnection index none).entry incoming.peer = none :=
      entry_setConnection distinct place nofun
    exact congrArg (Option.map _) cleared
  split
  · obtain ⟨reply, length, built⟩ := @buildTcpIpv4Frame_ok (incoming.reply endpoint
      listener.localPort (incoming.segment.sequence + 1) (tcpFlagSyn ||| tcpFlagAck))
      (Nat.zero_le _)
    simp only [TcpListener.acceptSyn, isIndex, Option.some_or, built]
    refine congrArg (Option.map _) (entry_setConnection distinct place ?_)
    rintro _ ⟨⟩
    rfl
  split
  · rw [TcpListener.handleControlSegment, if_pos (.inr (.inr stale))]
    exact same
  split
  · exact same
  split
  · unfold TcpListener.retransmitResponse
    dsimp only
    split
    · exact same
    split
    · exact same
    · refine congrArg (Option.map _) (entry_setConnection distinct place ?_)
      rintro _ ⟨⟩
      exact own
  · rw [TcpListener.serve, if_pos (.inr stale)]
    exact same

/-- After the response only a bare FIN in order releases the slot. -/
theorem released_iff (closing : connection.phase ≠ .established)
    (inOrder : incoming.Acknowledges connection) :
    ((listener.handleSegment frame incoming endpoint nowTick).2.entry incoming.peer = none ∧
        (listener.handleSegment frame incoming endpoint nowTick).2.closedConnections =
          Word64.saturatingAdd listener.closedConnections 1) ↔
      incoming.segment.payloadLen = 0 ∧ incoming.has tcpFlagFin = true := by
  obtain ⟨index, isIndex, stands, place⟩ := located_of_entry distinct isEntry
  have own := (lookup_eq_some isEntry).1
  obtain ⟨notReset, notSyn, ack, acknowledges, next⟩ := inOrder
  unfold TcpListener.handleSegment
  simp only [isIndex, stands, notReset, notSyn, Bool.false_eq_true, if_false]
  by_cases bare : incoming.segment.payloadLen = 0
  · rw [if_pos bare, TcpListener.handleControlSegment,
      if_neg (by simp [ack, acknowledges, next])]
    cases incoming.has tcpFlagFin with
    | true =>
      simp only [bare, and_self, iff_true]
      exact ⟨entry_setConnection distinct place nofun, rfl⟩
    | false =>
      simp only [Bool.false_eq_true, if_false, and_false, iff_false]
      rintro ⟨released, -⟩
      refine Option.some_ne_none _ ((entry_setConnection distinct place ?_).symm.trans released)
      rintro _ ⟨⟩
      split <;> exact own
  · have kept : ¬(listener.entry incoming.peer = none ∧ listener.closedConnections =
        Word64.saturatingAdd listener.closedConnections 1) := by
      simp [isEntry]
    rw [if_neg bare]
    simp only [bare, false_and, iff_false, if_pos closing]
    split
    · exact kept
    · have early : incoming.segment.acknowledgement ≠
          connection.localNext - .ofNat httpListenerResponse.length - 1 := by
        rw [acknowledges, show httpListenerResponse.length = 108 from rfl]
        grind
      rw [TcpListener.retransmitResponse]
      dsimp only
      rw [if_pos (.inr (.inr early))]
      exact kept

end

/-- A well-formed frame for the listener on a port. -/
structure Arrival (localPort : UInt16) where
  endpoint : TcpLocalEndpoint
  frame : Bytes
  nowTick : Nat
  incoming : IncomingTcpSegment
  isSegment : (Input.frame frame nowTick).segment endpoint localPort = some incoming

def TcpListener.handle {port : UInt16} (listener : TcpListener) (arrival : Arrival port) :
    Checked (Option TcpServerAction) × TcpListener :=
  listener.handleFrameAt arrival.frame arrival.endpoint arrival.nowTick

theorem handle_eq {listener : TcpListener} (isPort : listener.localPort = localPort)
    (arrival : Arrival localPort) :
    listener.handle arrival = listener.handleSegment arrival.frame arrival.incoming arrival.endpoint
      arrival.nowTick := by
  subst isPort
  exact handleFrameAt_ok arrival.isSegment

/-- A frame for a connection of a table that can be reached, with a number that is not the next. -/
structure StaleSegment where
  localPort : UInt16
  inputs : List (TcpLocalEndpoint × Input)
  arrival : Arrival localPort
  connection : TcpServerConnection
  isEntry : ((TcpListener.new localPort).fed inputs).entry arrival.incoming.peer = some connection
  stale : arrival.incoming.segment.sequence ≠ connection.remoteNext

def StaleSegment.handled (given : StaleSegment) : TcpListener :=
  (((TcpListener.new given.localPort).fed given.inputs).handle given.arrival).2

/-- A segment out of order leaves the connection as it is exactly if it is no reset, and no SYN but
    the one that has just opened the connection. -/
theorem stale_segment_undisturbed_iff (given : StaleSegment) :
    (given.handled.entry given.arrival.incoming.peer).map TcpServerConnection.state =
        some given.connection.state ↔
      given.arrival.incoming.has tcpFlagRst = false ∧
        (given.arrival.incoming.has tcpFlagSyn = true →
          given.connection.phase = .established ∧
            given.connection.remoteNext = given.arrival.incoming.segment.sequence + 1) := by
  obtain ⟨localPort, inputs, arrival, connection, isEntry, stale⟩ := given
  have consistent : Consistent ((TcpListener.new localPort).fed inputs) _ :=
    (consistent_new localPort).fed inputs
  have numbered := consistent.numbered _ _ isEntry
  have own := (lookup_eq_some isEntry).1
  unfold StaleSegment.handled
  dsimp only
  rw [handle_eq (localPort_reached localPort inputs),
    entry_of_stale consistent.distinct isEntry stale]
  cases reset : arrival.incoming.has tcpFlagRst with
  | true => simp
  | false =>
    cases syn : arrival.incoming.has tcpFlagSyn with
    | false => simp
    | true =>
      simp only [Bool.false_eq_true, if_false, if_true, true_and, true_implies, Option.some.injEq,
        TcpServerConnection.state, IncomingTcpSegment.opened, Prod.mk.injEq]
      constructor
      · rintro ⟨phase, next, -⟩
        exact ⟨phase.symm, next.symm⟩
      · rintro ⟨phase, next⟩
        rw [TcpServerConnection.expectedNext, phase] at numbered
        refine ⟨phase.symm, next.symm, ?_⟩
        rw [numbered]
        exact congrArg₂ (tcpServerSequence · · + 1) (congrArg Peer.address own).symm
          (congrArg Peer.port own).symm

def exampleFrame (sequence acknowledgement : UInt32) (flags : UInt8) (checksum : UInt16)
    (payload : Bytes) : Bytes :=
  exampleEndpoint.mac.toList ++ (examplePeer 1).mac.toList ++ [8, 0] ++
    ([0x45, 0, 0, 40 + .ofNat payload.length, 0x10, 0x30, 0x40, 0, 64, 6, 0x12,
      0x91 - .ofNat payload.length] ++ (examplePeer 1).address.toList ++
      exampleEndpoint.address.toList) ++
    [0x0f, 0xa0, 0x1f, 0x90] ++ beU32 sequence ++ beU32 acknowledgement ++
    [0x50, flags, 0x40, 0] ++ beU16 checksum ++ [0, 0] ++ payload

def exampleIncoming (sequence acknowledgement : UInt32) (flags : UInt16) (payloadLen : Nat) :
    IncomingTcpSegment where
  remoteMac := (examplePeer 1).mac
  remoteAddress := (examplePeer 1).address
  remotePort := 4000
  segment := { sequence, acknowledgement, flags, payloadOffset := 54, payloadLen }

/-- A reset with any number closes the connection. -/
theorem blind_reset_disturbs : ∃ given : StaleSegment,
    (given.handled.entry given.arrival.incoming.peer).map TcpServerConnection.state ≠
      some given.connection.state := by
  refine ⟨⟨8080, exampleConnected, ⟨exampleEndpoint, exampleFrame 7 0 4 0x289a [], 2,
    exampleIncoming 7 0 4 0, ?_⟩, (exampleIncoming 100 0 2 0).opened 1, ?_, ?_⟩, ?_⟩
  all_goals decide +kernel

/-- A request was answered, and the peer acknowledges the FIN of the answer in order, with its
    connection still there. -/
structure Completion where
  localPort : UInt16
  before : List (TcpLocalEndpoint × Input)
  request : Arrival localPort
  more : List (TcpLocalEndpoint × Input)
  last : Arrival localPort
  connection : TcpServerConnection
  served : (eventOf (((TcpListener.new localPort).fed before).handle request).1).map
    TcpServerEvent.kind = some .served
  noSyn : ∀ given ∈ more, ∀ other, given.2.segment given.1 localPort = some other →
    other.peer = request.incoming.peer → other.has tcpFlagSyn = false
  samePeer : last.incoming.peer = request.incoming.peer
  isEntry : ((((TcpListener.new localPort).fed before).handle request).2.fed more).entry
    last.incoming.peer = some connection
  inOrder : last.incoming.Acknowledges connection

namespace Completion

variable (given : Completion)

/-- The listener before the last segment. -/
def waiting : TcpListener :=
  (((TcpListener.new given.localPort).fed given.before).handle given.request).2.fed given.more

/-- The FIN of the peer came with the request or with the last segment, and was counted. -/
def Accounted : Prop :=
  given.request.incoming.has tcpFlagFin = true ∨
    given.last.incoming.segment.payloadLen = 0 ∧ given.last.incoming.has tcpFlagFin = true

abbrev Released : Prop :=
  (given.waiting.handle given.last).2.entry given.last.incoming.peer = none ∧
    (given.waiting.handle given.last).2.closedConnections =
      Word64.saturatingAdd given.waiting.closedConnections 1

end Completion

/-- A connection that both sides have closed is released exactly if the FIN of the peer did not come
    with the request, or comes once more with the last segment. -/
theorem completed_connection_released_iff (given : Completion) :
    (given.Accounted → given.Released) ↔
      given.request.incoming.has tcpFlagFin = false ∨
        given.last.incoming.segment.payloadLen = 0 ∧ given.last.incoming.has tcpFlagFin = true := by
  have released : given.Released ↔ given.last.incoming.segment.payloadLen = 0 ∧
      given.last.incoming.has tcpFlagFin = true := by
    obtain ⟨localPort, before, request, more, last, connection, served, noSyn, samePeer, isEntry,
      inOrder⟩ := given
    have distinct := ((consistent_new localPort).fed before).distinct
    have isPort := localPort_reached localPort before
    unfold Completion.Released Completion.waiting
    dsimp only
    rw [handle_eq isPort] at served isEntry ⊢
    obtain ⟨event, emits, isServed⟩ := Option.map_eq_some_iff.mp served
    obtain ⟨_, stored, transition⟩ := handleSegment_takes distinct
    obtain ⟨_, _, -, -, -, rfl⟩ := (transition.of_event emits).2 isServed
    have settled := (stored.settled distinct).fed more
      (by rw [stored.localPort, isPort]; exact noSyn)
    rw [handle_eq ((localPort_fed (stored.distinct distinct) more).trans
      (stored.localPort.trans isPort))]
    refine released_iff settled.distinct isEntry ?_ inOrder
    exact (settled.numbers connection (samePeer ▸ isEntry)).2.2
  rw [released, Completion.Accounted]
  cases given.request.incoming.has tcpFlagFin <;> simp

/-- The FIN of the peer comes with the request, and a bare acknowledgement ends the exchange. -/
theorem fin_with_request_keeps_slot : ∃ given : Completion, given.Accounted ∧ ¬given.Released := by
  refine ⟨⟨8080, exampleConnected, ⟨exampleEndpoint,
    exampleFrame 101 0x46e454a1 0x19 0xc236 getPrefix, 2, exampleIncoming 101 0x46e454a1 0x19 5,
    ?_⟩, [], ⟨exampleEndpoint, exampleFrame 107 0x46e4550e 0x10 0x8c37 [], 3,
    exampleIncoming 107 0x46e4550e 0x10 0, ?_⟩,
    ((exampleIncoming 100 0 2 0).opened 1).answered (exampleIncoming 101 0x46e454a1 0x19 5) 2,
    ?_, nofun, rfl, ?_, ⟨?_, ?_, ?_, ?_, ?_⟩⟩, .inl ?_, ?_⟩
  all_goals decide +kernel

end CodexOS.Network
