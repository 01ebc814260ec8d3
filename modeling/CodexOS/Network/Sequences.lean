import CodexOS.Network.Peers

/-! # Sequence numbers of the listener

A frame does one of five things to the entry of its peer. From this list follow the
sequence numbers in every table that can be reached, the order of the events of a
peer, and that a request which comes again is answered with the same bytes.
-/

namespace CodexOS.Network

open Bytes SlotTable

/-- The event an answer reports. -/
def eventOf : Checked (Option TcpServerAction) → Option TcpServerEvent
  | .ok (some action) => action.event
  | _ => none

theorem of_eventOf (emits : eventOf answer = some event) :
    ∃ action, answer = .ok (some action) ∧ action.event = some event := by
  unfold eventOf at emits
  split at emits
  · exact ⟨_, rfl, emits⟩
  · cases emits

namespace TcpServerConnection

section

variable (connection : TcpServerConnection)

/-- The number the server starts from with the peer of a connection. -/
def initialSequence : UInt32 :=
  tcpServerSequence connection.remoteAddress connection.remotePort

/-- The number of the next byte to the peer: after the SYN, and after the response and the FIN. -/
def expectedNext : UInt32 :=
  match connection.phase with
  | .established => connection.initialSequence + 1
  | .finWait1 => connection.initialSequence + 2 + .ofNat httpListenerResponse.length
  | .finWait2 => connection.initialSequence + 2 + .ofNat httpListenerResponse.length

/-- The connection once its request is answered. -/
def answered (incoming : IncomingTcpSegment) (nowTick : Nat) : TcpServerConnection :=
  { connection with
    remoteNext :=
      connection.remoteNext + .ofNat incoming.segment.payloadLen + incoming.count tcpFlagFin
    localNext := connection.localNext + .ofNat httpListenerResponse.length + 1
    phase := .finWait1
    lastActivityTick := nowTick }

/-- The frame with the response to a request that ended before `remoteNext`. -/
def response (endpoint : TcpLocalEndpoint) (localPort : UInt16) (sequence remoteNext : UInt32) :
    Checked (Bytes × Nat) :=
  buildTcpIpv4Frame (connection.reply endpoint localPort sequence remoteNext
    (tcpFlagPsh ||| tcpFlagAck ||| tcpFlagFin) httpListenerResponse)

end

end TcpServerConnection

/-- A connection that a SYN has just opened. -/
def IncomingTcpSegment.opened (incoming : IncomingTcpSegment) (nowTick : Nat) :
    TcpServerConnection where
  remoteMac := incoming.remoteMac
  remoteAddress := incoming.remoteAddress
  remotePort := incoming.remotePort
  remoteNext := incoming.segment.sequence + 1
  localNext := tcpServerSequence incoming.remoteAddress incoming.remotePort + 1
  phase := .established
  lastActivityTick := nowTick

/-- A segment that carries a request the listener supports, and no SYN or RST. -/
structure IsRequest (frame : Bytes) (incoming : IncomingTcpSegment) : Prop where
  notReset : incoming.has tcpFlagRst = false
  notSyn : incoming.has tcpFlagSyn = false
  nonempty : incoming.segment.payloadLen ≠ 0
  supported : ∃ payload,
    range frame incoming.segment.payloadOffset
        (incoming.segment.payloadOffset + incoming.segment.payloadLen) = .ok payload ∧
      isSupportedListenerRequest payload = true

/-- The request is the next one on an established connection, and this is the answer. -/
structure Served (localPort : UInt16) (frame : Bytes) (incoming : IncomingTcpSegment)
    (endpoint : TcpLocalEndpoint) (nowTick : Nat) (connection : TcpServerConnection)
    (action : TcpServerAction) : Prop where
  request : IsRequest frame incoming
  established : connection.phase = .established
  acknowledges : incoming.segment.acknowledgement = connection.localNext
  next : incoming.segment.sequence = connection.remoteNext
  built : connection.response endpoint localPort connection.localNext
    (connection.answered incoming nowTick).remoteNext = .ok (action.frame, action.length)

structure TcpServerEvent.Reports (event : TcpServerEvent) (kind : TcpServerEventKind) (peer : Peer) :
    Prop where
  kind : event.kind = kind
  address : event.remoteAddress = peer.address
  port : event.remotePort = peer.port

/-- What a frame does to the entry of its peer, with the answer it gets. -/
inductive Transition (listener : TcpListener) (frame : Bytes) (incoming : IncomingTcpSegment)
    (endpoint : TcpLocalEndpoint) (nowTick : Nat) :
    Checked (Option TcpServerAction) → Option TcpServerConnection → Prop where
  | kept {answer : Checked (Option TcpServerAction)} (quiet : eventOf answer = none) :
      Transition listener frame incoming endpoint nowTick answer (listener.entry incoming.peer)
  | removed {answer : Checked (Option TcpServerAction)} (quiet : eventOf answer = none) :
      Transition listener frame incoming endpoint nowTick answer none
  | touched {answer : Checked (Option TcpServerAction)} {connection : TcpServerConnection}
      {phase : TcpServerPhase} (old : listener.entry incoming.peer = some connection)
      (closing : phase = connection.phase ∨ connection.phase = .finWait1 ∧ phase = .finWait2)
      (quiet : eventOf answer = none) :
      Transition listener frame incoming endpoint nowTick answer
        (some { connection with phase, lastActivityTick := nowTick })
  | accepted {action : TcpServerAction} {event : TcpServerEvent}
      (syn : incoming.has tcpFlagSyn = true) (emits : action.event = some event)
      (reports : event.Reports .accepted incoming.peer) :
      Transition listener frame incoming endpoint nowTick (.ok (some action))
        (some (incoming.opened nowTick))
  | served {action : TcpServerAction} {event : TcpServerEvent} {connection : TcpServerConnection}
      (old : listener.entry incoming.peer = some connection)
      (answers : Served listener.localPort frame incoming endpoint nowTick connection action)
      (emits : action.event = some event) (reports : event.Reports .served incoming.peer) :
      Transition listener frame incoming endpoint nowTick (.ok (some action))
        (some (connection.answered incoming nowTick))

section

variable {listener : TcpListener} {frame payload : Bytes} {incoming : IncomingTcpSegment}
  {endpoint : TcpLocalEndpoint} {nowTick index : Nat} {connection : TcpServerConnection}

/-- The entry that a step leaves, and how it came about. -/
def Takes (listener : TcpListener) (frame : Bytes) (incoming : IncomingTcpSegment)
    (endpoint : TcpLocalEndpoint) (nowTick : Nat)
    (result : Checked (Option TcpServerAction) × TcpListener) : Prop :=
  ∃ new, Stored listener incoming.peer new result.2 ∧
    Transition listener frame incoming endpoint nowTick result.1 new

theorem takes_kept (quiet : eventOf answer = none) :
    Takes listener frame incoming endpoint nowTick (answer, listener) :=
  ⟨listener.entry incoming.peer,
    ⟨rfl, fun _ found => (lookup_eq_some found).1, .inl ⟨rfl, rfl⟩⟩, .kept quiet⟩

theorem eventOf_reset (listener : TcpListener) (incoming : IncomingTcpSegment)
    (endpoint : TcpLocalEndpoint) :
    eventOf ((listener.reset incoming endpoint).map some) = none := by
  unfold TcpListener.reset
  dsimp only
  generalize buildTcpIpv4Frame _ = built
  cases built <;> rfl

variable (place : Place TcpServerConnection.peer listener.connections incoming.peer index)
  (isEntry : listener.entry incoming.peer = some connection)

include place isEntry

theorem handleControlSegment_takes :
    Takes listener frame incoming endpoint nowTick
      (listener.handleControlSegment index connection incoming endpoint nowTick) := by
  unfold TcpListener.handleControlSegment
  have own : connection.peer = incoming.peer := (lookup_eq_some isEntry).1
  split
  · exact takes_kept rfl
  dsimp only
  split
  · refine ⟨none, ⟨rfl, nofun, .inr ⟨index, place, rfl⟩⟩, .removed ?_⟩
    generalize buildTcpIpv4Frame _ = built
    cases built <;> rfl
  · refine ⟨_, ⟨rfl, ?_, .inr ⟨index, place, rfl⟩⟩, ?_⟩
    · intro updated isUpdated
      cases isUpdated
      split <;> exact own
    · split
      next closing => exact .touched isEntry (.inr ⟨closing, rfl⟩) rfl
      next => exact .touched isEntry (.inl rfl) rfl

theorem retransmitResponse_takes :
    Takes listener frame incoming endpoint nowTick
      (listener.retransmitResponse index connection incoming payload endpoint nowTick) := by
  unfold TcpListener.retransmitResponse
  have own : connection.peer = incoming.peer := (lookup_eq_some isEntry).1
  dsimp only
  split
  · exact takes_kept rfl
  split
  · exact takes_kept rfl
  · refine ⟨_, ⟨rfl, ?_, .inr ⟨index, place, rfl⟩⟩, .touched isEntry (.inl rfl) rfl⟩
    intro updated isUpdated
    cases isUpdated
    exact own

theorem serve_takes (notReset : incoming.has tcpFlagRst = false)
    (notSyn : incoming.has tcpFlagSyn = false) (nonempty : incoming.segment.payloadLen ≠ 0)
    (isPayload : range frame incoming.segment.payloadOffset
      (incoming.segment.payloadOffset + incoming.segment.payloadLen) = .ok payload)
    (established : connection.phase = .established) :
    Takes listener frame incoming endpoint nowTick
      (listener.serve index connection incoming payload endpoint nowTick) := by
  unfold TcpListener.serve
  have own : connection.peer = incoming.peer := (lookup_eq_some isEntry).1
  split
  · exact takes_kept rfl
  rename_i inOrder
  rw [not_or, not_not, not_not] at inOrder
  split
  · exact ⟨none, ⟨rfl, nofun, .inr ⟨index, place, rfl⟩⟩, .removed (eventOf_reset _ _ _)⟩
  rename_i supported
  dsimp only
  split
  · exact takes_kept rfl
  rename_i frame' length built
  refine ⟨_, ⟨rfl, ?_, .inr ⟨index, place, rfl⟩⟩, .served isEntry ?_ rfl ?_⟩
  · intro updated isUpdated
    cases isUpdated
    exact own
  · exact ⟨⟨notReset, notSyn, nonempty, payload, isPayload, not_not.mp supported⟩, established,
      inOrder.1, inOrder.2, built⟩
  · exact ⟨rfl, congrArg Peer.address own, congrArg Peer.port own⟩

omit place isEntry

theorem acceptSyn_takes (distinct : Distinct TcpServerConnection.peer listener.connections)
    (syn : incoming.has tcpFlagSyn = true) :
    Takes listener frame incoming endpoint nowTick
      ((listener.acceptSyn incoming endpoint nowTick).1.map some,
        (listener.acceptSyn incoming endpoint nowTick).2) := by
  unfold TcpListener.acceptSyn
  rcases slot_of_syn incoming distinct with ⟨-, full⟩ | ⟨-, index, slot, place⟩
  · simp only [full]
    exact takes_kept (eventOf_reset _ _ _)
  · simp only [slot]
    split
    · exact takes_kept rfl
    · refine ⟨some (incoming.opened nowTick), ⟨rfl, ?_, .inr ⟨index, place, rfl⟩⟩, ?_⟩
      · intro updated isUpdated
        cases isUpdated
        rfl
      · exact .accepted syn rfl ⟨rfl, rfl, rfl⟩

theorem handleSegment_takes (distinct : Distinct TcpServerConnection.peer listener.connections) :
    Takes listener frame incoming endpoint nowTick
      (listener.handleSegment frame incoming endpoint nowTick) := by
  unfold TcpListener.handleSegment
  rcases located incoming distinct with ⟨-, missing⟩ | ⟨connection, index, isEntry, isIndex, stands,
    place⟩
  · simp only [missing]
    split
    · exact takes_kept rfl
    split
    next syn => exact acceptSyn_takes distinct syn
    next => exact takes_kept (eventOf_reset _ _ _)
  · simp only [isIndex, stands]
    split
    · exact ⟨none, ⟨rfl, nofun, .inr ⟨index, place, rfl⟩⟩, .removed rfl⟩
    rename_i notReset
    split
    next syn => exact acceptSyn_takes distinct syn
    rename_i notSyn
    split
    · exact handleControlSegment_takes place isEntry
    rename_i nonempty
    split
    · exact takes_kept rfl
    rename_i payload isPayload
    split
    · exact retransmitResponse_takes place isEntry
    · rename_i established
      exact serve_takes place isEntry (Bool.eq_false_iff.mpr notReset) (Bool.eq_false_iff.mpr notSyn)
        nonempty isPayload (not_not.mp established)

end

/-! ## Whole runs -/

namespace TcpListener

/-- The event that an input brings about, with the peer of its frame. -/
def event (listener : TcpListener) (endpoint : TcpLocalEndpoint) (input : Input) :
    List (Peer × TcpServerEvent) :=
  match input, input.segment endpoint listener.localPort with
  | .frame bytes nowTick, some incoming =>
    (eventOf (listener.handleFrameAt bytes endpoint nowTick).1).toList.map (incoming.peer, ·)
  | _, _ => []

/-- The listener after a sequence of inputs, each with the address it comes in at. -/
def fed (listener : TcpListener) (inputs : List (TcpLocalEndpoint × Input)) : TcpListener :=
  inputs.foldl (fun listener given => listener.step given.1 given.2) listener

/-- All events of a run. -/
def events (listener : TcpListener) : List (TcpLocalEndpoint × Input) → List (Peer × TcpServerEvent)
  | [] => []
  | (endpoint, input) :: inputs =>
    listener.event endpoint input ++ events (listener.step endpoint input) inputs

end TcpListener

/-- The peer was accepted, and not served since. -/
def Opened (log : List (Peer × TcpServerEvent)) (peer : Peer) : Prop :=
  ∃ early event late, log = early ++ (peer, event) :: late ∧ event.kind = .accepted ∧
    ∀ other, (peer, other) ∈ late → other.kind ≠ .served

/-- The event names the peer of the frame that brought it about. -/
def Named (logged : Peer × TcpServerEvent) : Prop :=
  logged.2.remoteAddress = logged.1.address ∧ logged.2.remotePort = logged.1.port

/-- Nobody is served who was not accepted since the last time. -/
def InOrder (log : List (Peer × TcpServerEvent)) : Prop :=
  ∀ early peer event late, log = early ++ (peer, event) :: late → event.kind = .served →
    Opened early peer

section

variable {log : List (Peer × TcpServerEvent)} {peer other : Peer} {event : TcpServerEvent}

theorem Opened.concat (opened : Opened log peer) (notServed : other = peer → event.kind ≠ .served) :
    Opened (log ++ [(other, event)]) peer := by
  obtain ⟨early, first, late, rfl, accepted, since⟩ := opened
  refine ⟨early, first, late ++ [(other, event)], by simp, accepted, fun last mem => ?_⟩
  rcases List.mem_append.mp mem with old | new
  · exact since last old
  · cases List.mem_singleton.mp new
    exact notServed rfl

theorem opened_accepted (accepted : event.kind = .accepted) : Opened (log ++ [(peer, event)]) peer :=
  ⟨log, event, [], rfl, accepted, nofun⟩

theorem InOrder.concat (inOrder : InOrder log) (opened : event.kind = .served → Opened log peer) :
    InOrder (log ++ [(peer, event)]) := by
  intro early served last late same isServed
  rcases List.eq_nil_or_concat late with rfl | ⟨late', final, rfl⟩
  · obtain ⟨rfl, here⟩ := List.append_inj' same rfl
    cases here
    exact opened isServed
  · have split : log = early ++ (served, last) :: late' ∧ [(peer, event)] = [final] := by
      rw [List.concat_eq_append, ← List.cons_append, ← List.append_assoc] at same
      exact List.append_inj' same rfl
    exact inOrder early served last late' split.1 isServed

end

/-- What holds of a table and the events so far. -/
structure Consistent (listener : TcpListener) (log : List (Peer × TcpServerEvent)) : Prop where
  distinct : Distinct TcpServerConnection.peer listener.connections
  numbered : ∀ peer connection, listener.entry peer = some connection →
    connection.localNext = connection.expectedNext
  opened : ∀ peer connection, listener.entry peer = some connection →
    connection.phase = .established → Opened log peer
  inOrder : InOrder log
  named : ∀ logged ∈ log, Named logged

section

variable {listener listener' : TcpListener} {log : List (Peer × TcpServerEvent)} {peer : Peer}
  {frame : Bytes} {incoming : IncomingTcpSegment} {endpoint : TcpLocalEndpoint} {nowTick : Nat}
  {answer : Checked (Option TcpServerAction)} {new : Option TcpServerConnection}

theorem Stored.entry_cases (stored : Stored listener peer new listener')
    (distinct : Distinct TcpServerConnection.peer listener.connections)
    (found : listener'.entry other = some connection) :
    (other = peer ∧ new = some connection) ∨
      (other ≠ peer ∧ listener.entry other = some connection) := by
  by_cases own : other = peer
  · rw [own, stored.entry_same distinct] at found
    exact .inl ⟨own, found⟩
  · rw [stored.entry_other distinct own] at found
    exact .inr ⟨own, found⟩

section

variable (transition : Transition listener frame incoming endpoint nowTick answer new)

include transition

theorem Transition.numbered
    (numbered : ∀ connection, listener.entry incoming.peer = some connection →
      connection.localNext = connection.expectedNext) :
    ∀ connection, new = some connection → connection.localNext = connection.expectedNext := by
  intro connection isNew
  cases transition with
  | kept => exact numbered connection isNew
  | removed => cases isNew
  | touched old closing =>
    cases isNew
    have before := numbered _ old
    rcases closing with rfl | ⟨isPhase, rfl⟩
    · exact before
    · rw [TcpServerConnection.expectedNext, isPhase] at before
      exact before
  | accepted => cases isNew; rfl
  | served old answers =>
    cases isNew
    have before := numbered _ old
    rw [TcpServerConnection.expectedNext, answers.established] at before
    dsimp only at before
    unfold TcpServerConnection.answered TcpServerConnection.expectedNext
    dsimp only [TcpServerConnection.initialSequence] at before ⊢
    rw [before]
    grind

/-- An event names its peer, and only a request that is answered makes a served one. -/
theorem Transition.of_event (emits : eventOf answer = some event) :
    Named (incoming.peer, event) ∧ (event.kind = .served → ∃ connection action,
      answer = .ok (some action) ∧ listener.entry incoming.peer = some connection ∧
      Served listener.localPort frame incoming endpoint nowTick connection action ∧
      new = some (connection.answered incoming nowTick)) := by
  cases transition with
  | kept quiet => rw [quiet] at emits; cases emits
  | removed quiet => rw [quiet] at emits; cases emits
  | touched old closing quiet => rw [quiet] at emits; cases emits
  | accepted syn emits' reports =>
    cases emits'.symm.trans emits
    refine ⟨⟨reports.address, reports.port⟩, fun isServed => ?_⟩
    rw [reports.kind] at isServed
    cases isServed
  | served old answers emits' reports =>
    cases emits'.symm.trans emits
    exact ⟨⟨reports.address, reports.port⟩, fun _ => ⟨_, _, rfl, old, answers, rfl⟩⟩

theorem Transition.opened (consistent : Consistent listener log) (isNew : new = some connection)
    (established : connection.phase = .established) :
    Opened (log ++ (eventOf answer).toList.map (incoming.peer, ·)) incoming.peer := by
  cases transition with
  | kept quiet =>
    rw [quiet, Option.toList_none, List.map_nil, List.append_nil]
    exact consistent.opened _ connection isNew established
  | removed => cases isNew
  | touched old closing quiet =>
    rw [quiet, Option.toList_none, List.map_nil, List.append_nil]
    cases isNew
    rcases closing with rfl | ⟨-, rfl⟩
    · exact consistent.opened _ _ old established
    · cases established
  | accepted syn emits reports =>
    rw [eventOf, emits]
    exact opened_accepted reports.kind
  | served =>
    cases isNew
    cases established

end

theorem Consistent.step_segment (consistent : Consistent listener log)
    (stored : Stored listener incoming.peer new listener')
    (transition : Transition listener frame incoming endpoint nowTick answer new) :
    Consistent listener' (log ++ (eventOf answer).toList.map (incoming.peer, ·)) := by
  have distinct := consistent.distinct
  refine ⟨stored.distinct distinct, ?_, ?_, ?_, ?_⟩
  · intro peer connection found
    rcases stored.entry_cases distinct found with ⟨rfl, isNew⟩ | ⟨-, old⟩
    · exact transition.numbered (consistent.numbered _) connection isNew
    · exact consistent.numbered peer connection old
  · intro peer connection found established
    rcases stored.entry_cases distinct found with ⟨rfl, isNew⟩ | ⟨different, old⟩
    · exact transition.opened consistent isNew established
    · have opened := consistent.opened peer connection old established
      cases eventOf answer with
      | none => rwa [Option.toList_none, List.map_nil, List.append_nil]
      | some event => exact opened.concat fun same => absurd same.symm different
  · cases emits : eventOf answer with
    | none =>
      rw [Option.toList_none, List.map_nil, List.append_nil]
      exact consistent.inOrder
    | some event =>
      refine consistent.inOrder.concat fun isServed => ?_
      obtain ⟨_, _, -, old, answers, -⟩ := (transition.of_event emits).2 isServed
      exact consistent.opened _ _ old answers.established
  · intro logged mem
    rcases List.mem_append.mp mem with old | isNew
    · exact consistent.named logged old
    · obtain ⟨event, emits, rfl⟩ := List.mem_map.mp isNew
      exact (transition.of_event (Option.mem_toList.mp emits)).1

/-- An input drops entries and reports nothing, or it is a segment of a peer. -/
theorem step_cases (endpoint : TcpLocalEndpoint) (input : Input)
    (distinct : Distinct TcpServerConnection.peer listener.connections) :
    (listener.event endpoint input = [] ∧ ∀ peer connection,
      (listener.step endpoint input).entry peer = some connection →
        listener.entry peer = some connection) ∨
    ∃ incoming frame nowTick answer new,
      input.segment endpoint listener.localPort = some incoming ∧
      listener.event endpoint input = (eventOf answer).toList.map (incoming.peer, ·) ∧
      Stored listener incoming.peer new (listener.step endpoint input) ∧
      Transition listener frame incoming endpoint nowTick answer new := by
  cases input with
  | expire nowTick =>
    refine .inl ⟨rfl, fun peer connection found => ?_⟩
    have filtered : lookup _ (listener.connections.map _) _ = _ := found
    rw [lookup_keep distinct] at filtered
    exact (Option.filter_eq_some_iff.mp filtered).1
  | frame bytes nowTick =>
    unfold TcpListener.event
    cases isSegment : (Input.frame bytes nowTick).segment endpoint listener.localPort with
    | none =>
      rw [TcpListener.step, handleFrameAt_error isSegment]
      exact .inl ⟨rfl, fun _ _ => id⟩
    | some incoming =>
      dsimp only [TcpListener.step]
      rw [handleFrameAt_ok isSegment]
      obtain ⟨new, stored, transition⟩ := handleSegment_takes distinct
      exact .inr ⟨incoming, bytes, nowTick, _, new, rfl, rfl, stored, transition⟩

theorem Consistent.step (consistent : Consistent listener log) (endpoint : TcpLocalEndpoint)
    (input : Input) :
    Consistent (listener.step endpoint input) (log ++ listener.event endpoint input) := by
  rcases step_cases endpoint input consistent.distinct with ⟨silent, kept⟩ | ⟨_, _, _, _, _, -,
    event, stored, transition⟩
  · rw [silent, List.append_nil]
    exact ⟨(step_distinct endpoint input consistent.distinct).2,
      fun peer connection found => consistent.numbered _ _ (kept _ _ found),
      fun peer connection found => consistent.opened _ _ (kept _ _ found), consistent.inOrder,
      consistent.named⟩
  · rw [event]
    exact consistent.step_segment stored transition

theorem entry_new (localPort : UInt16) (peer : Peer) : (TcpListener.new localPort).entry peer = none :=
  rfl

theorem consistent_new (localPort : UInt16) : Consistent (.new localPort) [] where
  distinct := (alone_new ⟨default, default, 0⟩ localPort).distinct
  numbered := fun peer connection found => by rw [entry_new] at found; cases found
  opened := fun peer connection found => by rw [entry_new] at found; cases found
  inOrder := fun early peer event late same => by simp at same
  named := nofun

theorem Consistent.fed (consistent : Consistent listener log)
    (inputs : List (TcpLocalEndpoint × Input)) :
    Consistent (listener.fed inputs) (log ++ listener.events inputs) := by
  induction inputs generalizing listener log with
  | nil => rwa [TcpListener.events, List.append_nil]
  | cons given inputs ih =>
    obtain ⟨endpoint, input⟩ := given
    rw [TcpListener.events, ← List.append_assoc]
    exact ih (consistent.step endpoint input)

theorem localPort_fed (distinct : Distinct TcpServerConnection.peer listener.connections)
    (inputs : List (TcpLocalEndpoint × Input)) :
    (listener.fed inputs).localPort = listener.localPort := by
  induction inputs generalizing listener with
  | nil => rfl
  | cons given inputs ih =>
    obtain ⟨localPort, distinct'⟩ := step_distinct given.1 given.2 distinct
    exact (ih distinct').trans localPort

theorem localPort_reached (localPort : UInt16) (inputs : List (TcpLocalEndpoint × Input)) :
    ((TcpListener.new localPort).fed inputs).localPort = localPort :=
  localPort_fed (consistent_new localPort).distinct inputs

end

/-! ## A request that comes again -/

/-- The peer was served, and nothing has reached the numbers of its connection since. -/
structure Settled (listener : TcpListener) (peer : Peer) (remoteNext localNext : UInt32) : Prop where
  distinct : Distinct TcpServerConnection.peer listener.connections
  numbers : ∀ connection, listener.entry peer = some connection →
    connection.remoteNext = remoteNext ∧ connection.localNext = localNext ∧
      connection.phase ≠ .established

section

variable {listener listener' : TcpListener} {peer : Peer} {frame : Bytes}
  {incoming : IncomingTcpSegment} {endpoint : TcpLocalEndpoint} {nowTick : Nat}
  {answer : Checked (Option TcpServerAction)} {new : Option TcpServerConnection}
  {remoteNext localNext : UInt32} {connection : TcpServerConnection}

theorem Stored.settled
    (stored : Stored listener peer (some (connection.answered incoming nowTick)) listener')
    (distinct : Distinct TcpServerConnection.peer listener.connections) :
    Settled listener' peer (connection.answered incoming nowTick).remoteNext
      (connection.answered incoming nowTick).localNext := by
  refine ⟨stored.distinct distinct, fun current found => ?_⟩
  rw [stored.entry_same distinct] at found
  cases found
  exact ⟨rfl, rfl, nofun⟩

section

variable (settled : Settled listener peer remoteNext localNext)

include settled

/-- Without a SYN nothing changes the numbers of a connection that was served. -/
theorem Settled.step_segment (stored : Stored listener incoming.peer new listener')
    (transition : Transition listener frame incoming endpoint nowTick answer new)
    (noSyn : incoming.peer = peer → incoming.has tcpFlagSyn = false) :
    Settled listener' peer remoteNext localNext := by
  refine ⟨stored.distinct settled.distinct, fun connection found => ?_⟩
  rcases stored.entry_cases settled.distinct found with ⟨rfl, isNew⟩ | ⟨-, old⟩
  · cases transition with
    | kept => exact settled.numbers connection isNew
    | removed => cases isNew
    | touched old closing =>
      cases isNew
      obtain ⟨remote, isLocal, phase⟩ := settled.numbers _ old
      refine ⟨remote, isLocal, ?_⟩
      rcases closing with rfl | ⟨-, rfl⟩
      · exact phase
      · exact nofun
    | accepted syn =>
      rw [noSyn rfl] at syn
      cases syn
    | served old answers => exact absurd answers.established (settled.numbers _ old).2.2
  · exact settled.numbers connection old

theorem Settled.step (endpoint : TcpLocalEndpoint) (input : Input)
    (noSyn : ∀ incoming, input.segment endpoint listener.localPort = some incoming →
      incoming.peer = peer → incoming.has tcpFlagSyn = false) :
    Settled (listener.step endpoint input) peer remoteNext localNext := by
  rcases step_cases endpoint input settled.distinct with ⟨-, kept⟩ | ⟨incoming, _, _, _, _, isSegment,
    -, stored, transition⟩
  · exact ⟨(step_distinct endpoint input settled.distinct).2,
      fun connection found => settled.numbers connection (kept _ _ found)⟩
  · exact settled.step_segment stored transition (noSyn incoming isSegment)

theorem Settled.fed (inputs : List (TcpLocalEndpoint × Input))
    (noSyn : ∀ given ∈ inputs, ∀ incoming, given.2.segment given.1 listener.localPort = some incoming →
      incoming.peer = peer → incoming.has tcpFlagSyn = false) :
    Settled (listener.fed inputs) peer remoteNext localNext := by
  induction inputs generalizing listener with
  | nil => exact settled
  | cons given inputs ih =>
    obtain ⟨localPort, -⟩ := step_distinct given.1 given.2 settled.distinct
    obtain ⟨first, rest⟩ := List.forall_mem_cons.mp noSyn
    refine ih (settled.step given.1 given.2 first) ?_
    rw [localPort]
    exact rest

end

theorem response_congr {connection' : TcpServerConnection}
    (samePeer : connection'.peer = connection.peer) (endpoint : TcpLocalEndpoint)
    (localPort : UInt16) (sequence remoteNext : UInt32) :
    connection'.response endpoint localPort sequence remoteNext =
      connection.response endpoint localPort sequence remoteNext := by
  unfold TcpServerConnection.peer at samePeer
  rw [Peer.mk.injEq] at samePeer
  simp only [TcpServerConnection.response, TcpServerConnection.reply, samePeer]

theorem handleSegment_again (distinct : Distinct TcpServerConnection.peer listener.connections)
    (request : IsRequest frame incoming) (isEntry : listener.entry incoming.peer = some connection)
    (closing : connection.phase ≠ .established)
    (sequence : incoming.segment.sequence = connection.remoteNext -
      (.ofNat incoming.segment.payloadLen + incoming.count tcpFlagFin))
    (acknowledges : incoming.segment.acknowledgement =
      connection.localNext - .ofNat httpListenerResponse.length - 1)
    (built : connection.response endpoint listener.localPort incoming.segment.acknowledgement
      connection.remoteNext = .ok (reply, length)) :
    (listener.handleSegment frame incoming endpoint nowTick).1 =
        .ok (some { frame := reply, length, event := none }) ∧
      (listener.handleSegment frame incoming endpoint nowTick).2.servedConnections =
        listener.servedConnections := by
  obtain ⟨payload, isPayload, supported⟩ := request.supported
  obtain ⟨index, isIndex, stands, -⟩ := located_of_entry distinct isEntry
  rw [acknowledges] at built
  unfold TcpServerConnection.response at built
  have retransmits : listener.retransmitResponse index connection incoming payload endpoint nowTick =
      (.ok (some { frame := reply, length, event := none }),
        listener.setConnection index (some { connection with lastActivityTick := nowTick })) := by
    unfold TcpListener.retransmitResponse
    dsimp only
    rw [if_neg, built]
    simp [supported, sequence, acknowledges]
  have handles : listener.handleSegment frame incoming endpoint nowTick =
      listener.retransmitResponse index connection incoming payload endpoint nowTick := by
    unfold TcpListener.handleSegment
    simp only [request.notReset, request.notSyn, Bool.false_eq_true, if_false, isIndex, stands,
      if_neg request.nonempty, isPayload, if_pos closing]
  rw [handles, retransmits]
  exact ⟨rfl, rfl⟩

/-- The numbers of a connection lead back to the request that it was served for. -/
theorem Served.again
    (answers : Served listener.localPort frame incoming endpoint nowTick connection action)
    (isEntry : listener.entry incoming.peer = some connection)
    (localPort : later.localPort = listener.localPort)
    (settled : Settled later incoming.peer (connection.answered incoming nowTick).remoteNext
      (connection.answered incoming nowTick).localNext) (present : later.entry incoming.peer ≠ none)
    (nowTick' : Nat) :
    (later.handleSegment frame incoming endpoint nowTick').1 =
        .ok (some { action with event := none }) ∧
      (later.handleSegment frame incoming endpoint nowTick').2.servedConnections =
        later.servedConnections := by
  obtain ⟨current, isCurrent⟩ := Option.ne_none_iff_exists'.mp present
  obtain ⟨remote, isLocal, closing⟩ := settled.numbers current isCurrent
  have samePeer : current.peer = connection.peer :=
    (lookup_eq_some isCurrent).1.trans (lookup_eq_some isEntry).1.symm
  refine handleSegment_again settled.distinct answers.request isCurrent closing ?_ ?_ ?_
  · rw [remote, answers.next, TcpServerConnection.answered]
    grind
  · rw [isLocal, answers.acknowledges, TcpServerConnection.answered]
    grind
  · rw [response_congr samePeer, localPort, answers.acknowledges, remote]
    exact answers.built

end

/-- In every run no two entries have the same peer, the next number of each one is set by its phase,
    and a peer is served only once for each time it is accepted. A request that was served and comes
    again, with the entry still there and no SYN in between, gets the same bytes and counts for
    nothing. -/
theorem listener_sequences (localPort : UInt16) (inputs : List (TcpLocalEndpoint × Input)) :
    let reached := (TcpListener.new localPort).fed inputs
    Distinct TcpServerConnection.peer reached.connections ∧
      (∀ connection, some connection ∈ reached.connections →
        connection.localNext = connection.expectedNext) ∧
      InOrder ((TcpListener.new localPort).events inputs) ∧
      (∀ logged ∈ (TcpListener.new localPort).events inputs, Named logged) ∧
      ∀ endpoint frame nowTick incoming action event,
        parseTcpListenerSegment frame endpoint.mac endpoint.address localPort = .ok incoming →
        (reached.handleFrameAt frame endpoint nowTick).1 = .ok (some action) →
        action.event = some event → event.kind = .served →
        ∀ more : List (TcpLocalEndpoint × Input),
          (∀ given ∈ more, ∀ other, given.2.segment given.1 localPort = some other →
            other.peer = incoming.peer → other.has tcpFlagSyn = false) →
          let later := (reached.handleFrameAt frame endpoint nowTick).2.fed more
          later.entry incoming.peer ≠ none →
          ∀ nowTick',
            (later.handleFrameAt frame endpoint nowTick').1 =
                .ok (some { action with event := none }) ∧
              (later.handleFrameAt frame endpoint nowTick').2.servedConnections =
                later.servedConnections := by
  have consistent : Consistent ((TcpListener.new localPort).fed inputs) _ :=
    (consistent_new localPort).fed inputs
  have isPort := localPort_reached localPort inputs
  rw [List.nil_append] at consistent
  refine ⟨consistent.distinct, ?_, consistent.inOrder, consistent.named, ?_⟩
  · intro connection mem
    refine consistent.numbered connection.peer connection ?_
    exact (lookup_iff consistent.distinct).mpr ⟨rfl, List.mem_iff_getElem?.mp mem⟩
  · generalize (TcpListener.new localPort).fed inputs = reached at consistent isPort ⊢
    subst isPort
    intro endpoint frame nowTick incoming action event parsed isAction emits isServed more noSyn later
      present nowTick'
    have isSegment (tick : Nat) : (Input.frame frame tick).segment endpoint reached.localPort =
        some incoming := congrArg Except.toOption parsed
    obtain ⟨new, stored, transition⟩ := @handleSegment_takes reached frame incoming endpoint nowTick
      consistent.distinct
    rw [handleFrameAt_ok (isSegment nowTick)] at isAction
    rw [isAction] at transition
    obtain ⟨connection, _, same, isEntry, answers, rfl⟩ := (transition.of_event emits).2 isServed
    cases same
    have settled := stored.settled consistent.distinct
    have isLater : later = (reached.handleSegment frame incoming endpoint nowTick).2.fed more := by
      simp only [later, handleFrameAt_ok (isSegment nowTick)]
    have laterPort : later.localPort = reached.localPort := by
      rw [isLater, localPort_fed settled.distinct, stored.localPort]
    have isSegment' : (Input.frame frame nowTick').segment endpoint later.localPort =
        some incoming := by
      rw [laterPort]
      exact isSegment nowTick'
    rw [handleFrameAt_ok isSegment']
    refine answers.again isEntry laterPort ?_ present nowTick'
    rw [isLater]
    refine settled.fed more ?_
    rw [stored.localPort]
    exact noSyn

section

/-- The request of the first example peer, on the connection that its SYN has opened, with the
    checksums of its IPv4 header and its segment. -/
def exampleRequest : Bytes :=
  exampleEndpoint.mac.toList ++ (examplePeer 1).mac.toList ++ [8, 0] ++
    ([0x45, 0, 0, 45, 0x10, 0x30, 0x40, 0, 64, 6, 0x12, 0x8c] ++
      (examplePeer 1).address.toList ++ exampleEndpoint.address.toList) ++
    [0x0f, 0xa0, 0x1f, 0x90, 0, 0, 0, 101, 0x46, 0xe4, 0x54, 0xa1, 0x50, 0x18, 0x40, 0, 0xc2, 0x37,
      0, 0] ++ getPrefix

def exampleConnected : List (TcpLocalEndpoint × Input) :=
  [(exampleEndpoint, .frame (exampleSyn 1 0x1291 0x283f) 1)]

/-- The request is served, and the clock finds the connection fresh when the request comes again. -/
theorem listener_sequences_request :
    let served := ((TcpListener.new 8080).fed exampleConnected).handleFrameAt exampleRequest
      exampleEndpoint 2
    ∃ action, served.1 = .ok (some action) ∧ action.event.isSome ∧
      ((served.2.fed [(exampleEndpoint, .expire 3)]).handleFrameAt exampleRequest
        exampleEndpoint 4).1 = .ok (some { action with event := none }) := by
  have served : (eventOf (((TcpListener.new 8080).fed exampleConnected).handleFrameAt exampleRequest
      exampleEndpoint 2).1).map TcpServerEvent.kind = some .served := by
    decide +kernel
  have parsed : (parseTcpListenerSegment exampleRequest exampleEndpoint.mac exampleEndpoint.address
      8080).toOption.map IncomingTcpSegment.peer = some (examplePeer 1) := by
    decide +kernel
  have present : (((((TcpListener.new 8080).fed exampleConnected).handleFrameAt exampleRequest
      exampleEndpoint 2).2.fed [(exampleEndpoint, .expire 3)]).entry (examplePeer 1)).isSome := by
    decide +kernel
  obtain ⟨-, -, -, -, again⟩ := listener_sequences 8080 exampleConnected
  -- from here on nothing is computed
  generalize (TcpListener.new 8080).fed exampleConnected = reached at *
  generalize exampleRequest = request at *
  obtain ⟨event, emits, isServed⟩ := Option.map_eq_some_iff.mp served
  obtain ⟨action, isAction, isEvent⟩ := of_eventOf emits
  obtain ⟨incoming, isIncoming, isPeer⟩ := Option.map_eq_some_iff.mp parsed
  have isParsed : parseTcpListenerSegment request exampleEndpoint.mac exampleEndpoint.address 8080 =
      .ok incoming := by
    cases answer : parseTcpListenerSegment request exampleEndpoint.mac exampleEndpoint.address 8080 with
    | ok found =>
      rw [answer] at isIncoming
      exact congrArg Except.ok (Option.some.inj isIncoming)
    | error stop =>
      rw [answer] at isIncoming
      cases isIncoming
  rw [← isPeer] at present
  refine ⟨action, isAction, by rw [isEvent]; rfl, ?_⟩
  refine (again exampleEndpoint request 2 incoming action event isParsed isAction isEvent isServed
    [(exampleEndpoint, .expire 3)] ?_ (Option.isSome_iff_ne_none.mp present) 4).1
  intro given mem other isSegment
  rw [List.mem_singleton.mp mem] at isSegment
  cases isSegment

end

end CodexOS.Network
