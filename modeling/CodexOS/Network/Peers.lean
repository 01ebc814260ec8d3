import CodexOS.Network.Safety

/-! # What a peer sees of the listener

All peers share one table, but each one is served as if it were alone, as long as
there is room for it. The comparison is between two listeners that agree on one
peer: the same frame of that peer gets the same answer from both and leaves them
agreeing, wherever in the two tables the peer's connection stands.
-/

namespace CodexOS.Network

open SlotTable

structure Peer where
  mac : MacAddress
  address : Ipv4Address
  port : UInt16
  deriving DecidableEq

def TcpServerConnection.peer (connection : TcpServerConnection) : Peer where
  mac := connection.remoteMac
  address := connection.remoteAddress
  port := connection.remotePort

def IncomingTcpSegment.peer (incoming : IncomingTcpSegment) : Peer where
  mac := incoming.remoteMac
  address := incoming.remoteAddress
  port := incoming.remotePort

/-- An action without the number of connections served to everybody. -/
def TcpServerAction.seen (action : TcpServerAction) : TcpServerAction :=
  { action with event := action.event.map fun event => { event with connectionCount := 0 } }

/-- What the peer of a frame sees of the answer. -/
def seen (answer : Checked (Option TcpServerAction)) : Checked (Option TcpServerAction) :=
  answer.map (Option.map TcpServerAction.seen)

namespace TcpListener

def entry (listener : TcpListener) (peer : Peer) : Option TcpServerConnection :=
  lookup TcpServerConnection.peer listener.connections peer

/-- There is an entry for the peer or a slot for a new one. -/
def hasRoom (listener : TcpListener) (peer : Peer) : Bool :=
  (listener.entry peer).isSome || listener.connections.any Option.isNone

theorem connectionIndex_eq (listener : TcpListener) (incoming : IncomingTcpSegment) :
    listener.connectionIndex incoming =
      position TcpServerConnection.peer listener.connections incoming.peer := by
  unfold connectionIndex position
  congr
  funext entry
  congr
  funext connection
  apply decide_eq_decide.mpr
  rw [TcpServerConnection.peer, IncomingTcpSegment.peer, Peer.mk.injEq]
  grind

end TcpListener

/-- The listener after the slot of a peer was rewritten, or left as it was. -/
structure Stored (listener : TcpListener) (peer : Peer) (new : Option TcpServerConnection)
    (listener' : TcpListener) : Prop where
  localPort : listener'.localPort = listener.localPort
  own : ∀ connection, new = some connection → connection.peer = peer
  connections : (listener'.connections = listener.connections ∧ listener.entry peer = new) ∨
    ∃ index, Place TcpServerConnection.peer listener.connections peer index ∧
      listener'.connections = listener.connections.set index new

structure Agree (peer : Peer) (listener listener' : TcpListener) : Prop where
  localPort : listener'.localPort = listener.localPort
  distinct : Distinct TcpServerConnection.peer listener.connections
  distinct' : Distinct TcpServerConnection.peer listener'.connections
  entry : listener'.entry peer = listener.entry peer

section

variable {listener listener' : TcpListener} {peer other : Peer}
  {new : Option TcpServerConnection}

section

variable (stored : Stored listener peer new listener')

include stored

theorem Stored.distinct (distinct : Distinct TcpServerConnection.peer listener.connections) :
    Distinct TcpServerConnection.peer listener'.connections := by
  rcases stored.connections with ⟨same, -⟩ | ⟨index, place, set⟩
  · rw [same]
    exact distinct
  · rw [set]
    exact distinct.set place stored.own

theorem Stored.entry_same (distinct : Distinct TcpServerConnection.peer listener.connections) :
    listener'.entry peer = new := by
  rcases stored.connections with ⟨same, isNew⟩ | ⟨index, place, set⟩
  · rw [TcpListener.entry, same]
    exact isNew
  · rw [TcpListener.entry, set]
    exact lookup_set_same distinct place stored.own

theorem Stored.entry_other (distinct : Distinct TcpServerConnection.peer listener.connections)
    (isOther : other ≠ peer) : listener'.entry other = listener.entry other := by
  rcases stored.connections with ⟨same, -⟩ | ⟨index, place, set⟩
  · rw [TcpListener.entry, same]
    rfl
  · rw [TcpListener.entry, set]
    exact lookup_set_other distinct place stored.own isOther

end

end

/-- Two answers that look the same to the peer, and the same new entry in both tables. -/
structure Alike (peer : Peer) (listener listener' : TcpListener)
    (result result' : Checked (Option TcpServerAction) × TcpListener) : Prop where
  seen : seen result'.1 = seen result.1
  stored : ∃ new, Stored listener peer new result.2 ∧ Stored listener' peer new result'.2

section

variable {listener listener' : TcpListener} {peer : Peer} {index index' : Nat}
  {connection : TcpServerConnection} {incoming : IncomingTcpSegment} {frame payload : Bytes}
  {endpoint : TcpLocalEndpoint} {nowTick : Nat} {answer : Checked (Option TcpServerAction)}

theorem Agree.unchanged (agree : Agree peer listener listener') :
    Alike peer listener listener' (answer, listener) (answer, listener') := by
  refine ⟨rfl, listener.entry peer, ⟨rfl, ?_, .inl ⟨rfl, rfl⟩⟩, ⟨rfl, ?_, .inl ⟨rfl, agree.entry⟩⟩⟩
  · intro connection found
    exact (lookup_eq_some found).1
  · intro connection found
    exact (lookup_eq_some found).1

/-- The place of the peer in both tables. -/
structure Placed (peer : Peer) (listener listener' : TcpListener) (index index' : Nat) :
    Prop where
  place : Place TcpServerConnection.peer listener.connections peer index
  place' : Place TcpServerConnection.peer listener'.connections peer index'

/-- The same answer and the same new entry on both sides. -/
theorem Placed.rewrite (placed : Placed peer listener listener' index index')
    (isSeen : seen result'.1 = seen result.1)
    (own : ∀ connection, new = some connection → connection.peer = peer)
    (localPort : result.2.localPort = listener.localPort)
    (localPort' : result'.2.localPort = listener'.localPort)
    (set : result.2.connections = listener.connections.set index new)
    (set' : result'.2.connections = listener'.connections.set index' new) :
    Alike peer listener listener' result result' :=
  ⟨isSeen, new, ⟨localPort, own, .inr ⟨index, placed.place, set⟩⟩,
    ⟨localPort', own, .inr ⟨index', placed.place', set'⟩⟩⟩

section

variable (agree : Agree peer listener listener')

include agree

theorem handleControlSegment_alike (placed : Placed peer listener listener' index index')
    (own : connection.peer = peer) :
    Alike peer listener listener'
      (listener.handleControlSegment index connection incoming endpoint nowTick)
      (listener'.handleControlSegment index' connection incoming endpoint nowTick) := by
  unfold TcpListener.handleControlSegment
  split
  · exact agree.unchanged
  dsimp only
  split
  · refine placed.rewrite ?_ ?_ rfl rfl rfl rfl
    · simp only [TcpListener.setConnection, agree.localPort]
    · nofun
  · refine placed.rewrite rfl ?_ rfl rfl rfl rfl
    intro updated isUpdated
    cases isUpdated
    split <;> exact own

theorem retransmitResponse_alike (placed : Placed peer listener listener' index index')
    (own : connection.peer = peer) :
    Alike peer listener listener'
      (listener.retransmitResponse index connection incoming payload endpoint nowTick)
      (listener'.retransmitResponse index' connection incoming payload endpoint nowTick) := by
  unfold TcpListener.retransmitResponse
  dsimp only
  split
  · exact agree.unchanged
  rw [agree.localPort]
  split
  · exact agree.unchanged
  · refine placed.rewrite rfl ?_ rfl rfl rfl rfl
    intro updated isUpdated
    cases isUpdated
    exact own

theorem reset_agree : listener'.reset incoming endpoint = listener.reset incoming endpoint := by
  unfold TcpListener.reset
  rw [agree.localPort]

theorem serve_alike (placed : Placed peer listener listener' index index')
    (own : connection.peer = peer) :
    Alike peer listener listener'
      (listener.serve index connection incoming payload endpoint nowTick)
      (listener'.serve index' connection incoming payload endpoint nowTick) := by
  unfold TcpListener.serve
  split
  · exact agree.unchanged
  split
  · refine placed.rewrite ?_ ?_ rfl rfl rfl rfl
    · simp only [TcpListener.reset, TcpListener.setConnection, agree.localPort]
    · nofun
  dsimp only
  rw [agree.localPort]
  split
  · exact agree.unchanged
  · refine placed.rewrite ?_ ?_ rfl rfl rfl rfl
    · simp only [TcpListener.setConnection, agree.localPort]
      rfl
    · intro updated isUpdated
      cases isUpdated
      exact own

end

theorem slot_of_syn (incoming : IncomingTcpSegment)
    (distinct : Distinct TcpServerConnection.peer listener.connections) :
    (listener.hasRoom incoming.peer = false ∧
        (listener.connectionIndex incoming).or (listener.connections.findIdx? Option.isNone) =
          none) ∨
      listener.hasRoom incoming.peer = true ∧ ∃ index,
        (listener.connectionIndex incoming).or (listener.connections.findIdx? Option.isNone) =
          some index ∧
        Place TcpServerConnection.peer listener.connections incoming.peer index := by
  rw [TcpListener.connectionIndex_eq]
  cases found : position TcpServerConnection.peer listener.connections incoming.peer with
  | some index =>
    refine .inr ⟨?_, index, rfl, place_of_position distinct found⟩
    obtain ⟨connection, at_, hasKey⟩ := position_eq_some found
    have isEntry : listener.entry incoming.peer = some connection :=
      (lookup_iff distinct).mpr ⟨hasKey, index, at_⟩
    rw [TcpListener.hasRoom, isEntry]
    rfl
  | none =>
    have missing := position_eq_none found
    have room : listener.hasRoom incoming.peer = listener.connections.any Option.isNone := by
      rw [TcpListener.hasRoom, TcpListener.entry, missing]
      rfl
    rw [room]
    cases free : listener.connections.findIdx? Option.isNone with
    | none =>
      refine .inl ⟨?_, rfl⟩
      rw [List.any_eq_false]
      intro slot mem
      rw [List.findIdx?_eq_none_iff.mp free slot mem]
      exact Bool.false_ne_true
    | some index =>
      obtain ⟨bound, isFree, -⟩ := List.findIdx?_eq_some_iff_getElem.mp free
      refine .inr ⟨?_, index, rfl, place_of_free missing ?_⟩
      · exact List.any_eq_true.mpr ⟨_, List.getElem_mem bound, isFree⟩
      · rw [List.getElem?_eq_getElem bound, Option.isNone_iff_eq_none.mp isFree]

theorem acceptSyn_alike (agree : Agree incoming.peer listener listener')
    (room : listener'.hasRoom incoming.peer = listener.hasRoom incoming.peer) :
    Alike incoming.peer listener listener'
      (((listener.acceptSyn incoming endpoint nowTick).1.map some),
        (listener.acceptSyn incoming endpoint nowTick).2)
      (((listener'.acceptSyn incoming endpoint nowTick).1.map some),
        (listener'.acceptSyn incoming endpoint nowTick).2) := by
  unfold TcpListener.acceptSyn
  rcases slot_of_syn incoming agree.distinct with ⟨full, none⟩ | ⟨free, index, slot, place⟩
  · rcases slot_of_syn incoming agree.distinct' with ⟨-, none'⟩ | ⟨free', -⟩
    · simp only [none, none', reset_agree agree]
      exact agree.unchanged
    · rw [room, full] at free'
      cases free'
  · rcases slot_of_syn incoming agree.distinct' with ⟨full', -⟩ | ⟨-, index', slot', place'⟩
    · rw [room, free] at full'
      cases full'
    · simp only [slot, slot', agree.localPort]
      split
      · exact agree.unchanged
      · refine Placed.rewrite ⟨place, place'⟩ ?_ ?_ rfl rfl rfl rfl
        · simp only [TcpListener.setConnection, agree.localPort]
          rfl
        · intro updated isUpdated
          cases isUpdated
          rfl

theorem located (incoming : IncomingTcpSegment)
    (distinct : Distinct TcpServerConnection.peer listener.connections) :
    (listener.entry incoming.peer = none ∧ listener.connectionIndex incoming = none) ∨
      ∃ connection index, listener.entry incoming.peer = some connection ∧
        listener.connectionIndex incoming = some index ∧
        listener.connections[index]?.join = some connection ∧
        Place TcpServerConnection.peer listener.connections incoming.peer index := by
  rw [TcpListener.connectionIndex_eq]
  cases found : position TcpServerConnection.peer listener.connections incoming.peer with
  | none => exact .inl ⟨position_eq_none found, rfl⟩
  | some index =>
    obtain ⟨connection, at_, hasKey⟩ := position_eq_some found
    refine .inr ⟨connection, index, (lookup_iff distinct).mpr ⟨hasKey, index, at_⟩, rfl, ?_,
      place_of_position distinct found⟩
    rw [at_]
    rfl

theorem located_of_entry (distinct : Distinct TcpServerConnection.peer listener.connections)
    (isEntry : listener.entry incoming.peer = some connection) :
    ∃ index, listener.connectionIndex incoming = some index ∧
      listener.connections[index]?.join = some connection ∧
      Place TcpServerConnection.peer listener.connections incoming.peer index := by
  rcases located incoming distinct with ⟨missing, -⟩ | ⟨found, index, isFound, located⟩
  · cases missing.symm.trans isEntry
  · cases isFound.symm.trans isEntry
    exact ⟨index, located⟩

/-- A frame of a peer on which two listeners agree gets the same answer from both. -/
theorem handleSegment_alike (agree : Agree incoming.peer listener listener')
    (room : incoming.has tcpFlagRst = false → incoming.has tcpFlagSyn = true →
      listener'.hasRoom incoming.peer = listener.hasRoom incoming.peer) :
    Alike incoming.peer listener listener'
      (listener.handleSegment frame incoming endpoint nowTick)
      (listener'.handleSegment frame incoming endpoint nowTick) := by
  unfold TcpListener.handleSegment
  rcases located incoming agree.distinct with ⟨missing, none⟩ | ⟨connection, index, isEntry, isIndex,
    stands, place⟩
  · have none' : listener'.connectionIndex incoming = .none := by
      rcases located incoming agree.distinct' with ⟨-, none'⟩ | ⟨connection', -, isEntry', -⟩
      · exact none'
      · rw [agree.entry, missing] at isEntry'
        cases isEntry'
    simp only [none, none', reset_agree agree]
    split
    · exact agree.unchanged
    rename_i notReset
    split
    · exact acceptSyn_alike agree (room (Bool.eq_false_iff.mpr notReset) ‹_›)
    · exact agree.unchanged
  · have own : connection.peer = incoming.peer := (lookup_eq_some isEntry).1
    obtain ⟨index', isIndex', stands', place'⟩ :=
      located_of_entry agree.distinct' (agree.entry.trans isEntry)
    have placed : Placed incoming.peer listener listener' index index' := ⟨place, place'⟩
    simp only [isIndex, isIndex', stands, stands']
    split
    · refine placed.rewrite rfl ?_ rfl rfl rfl rfl
      nofun
    rename_i notReset
    split
    · exact acceptSyn_alike agree (room (Bool.eq_false_iff.mpr notReset) ‹_›)
    split
    · exact handleControlSegment_alike agree placed own
    split
    · exact agree.unchanged
    split
    · exact retransmitResponse_alike agree placed own
    · exact serve_alike agree placed own

end

/-- Every frame only touches the slot of its own peer. -/
theorem handleSegment_stored (distinct : Distinct TcpServerConnection.peer listener.connections) :
    ∃ new, Stored listener incoming.peer new
      (listener.handleSegment frame incoming endpoint nowTick).2 := by
  have alike : Alike incoming.peer listener listener
      (listener.handleSegment frame incoming endpoint nowTick)
      (listener.handleSegment frame incoming endpoint nowTick) :=
    handleSegment_alike ⟨rfl, distinct, distinct, rfl⟩ fun _ _ => rfl
  obtain ⟨new, stored, -⟩ := alike.stored
  exact ⟨new, stored⟩

/-! ## Whole runs -/

/-- What the listener is given: a frame, or the time to look for idle connections. -/
inductive Input
  | frame (bytes : Bytes) (nowTick : Nat)
  | expire (nowTick : Nat)

namespace Input

section

variable (endpoint : TcpLocalEndpoint) (localPort : UInt16)

/-- The segment of a well-formed frame. -/
def segment : Input → Option IncomingTcpSegment
  | frame bytes _ =>
    (parseTcpListenerSegment bytes endpoint.mac endpoint.address localPort).toOption
  | expire _ => none

def isFrom (peer : Peer) (input : Input) : Bool :=
  (input.segment endpoint localPort).any fun incoming => incoming.peer = peer

/-- A well-formed frame of somebody else. -/
def isForeign (peer : Peer) (input : Input) : Bool :=
  (input.segment endpoint localPort).any fun incoming => incoming.peer ≠ peer

/-- The inputs left when the frames of all other peers are deleted. -/
def withoutForeign (peer : Peer) (inputs : List Input) : List Input :=
  inputs.filter fun input => !input.isForeign endpoint localPort peer

end

end Input

namespace TcpListener

def step (endpoint : TcpLocalEndpoint) (listener : TcpListener) : Input → TcpListener
  | .frame bytes nowTick => (listener.handleFrameAt bytes endpoint nowTick).2
  | .expire nowTick => (listener.expireIdleConnections nowTick).2

def after (endpoint : TcpLocalEndpoint) (listener : TcpListener) (inputs : List Input) :
    TcpListener :=
  inputs.foldl (step endpoint) listener

/-- What a peer sees of the answer to an input, if it is a frame of its own. -/
def answer (endpoint : TcpLocalEndpoint) (peer : Peer) (listener : TcpListener) (input : Input) :
    List (Checked (Option TcpServerAction)) :=
  match input with
  | .frame bytes nowTick =>
    if input.isFrom endpoint listener.localPort peer then
      [seen (listener.handleFrameAt bytes endpoint nowTick).1]
    else []
  | .expire _ => []

/-- What a peer sees of the answers to its frames. -/
def answers (endpoint : TcpLocalEndpoint) (peer : Peer) (listener : TcpListener) :
    List Input → List (Checked (Option TcpServerAction))
  | [] => []
  | input :: inputs =>
    listener.answer endpoint peer input ++
      answers endpoint peer (listener.step endpoint input) inputs

/-- There is a slot whenever the peer asks for a connection and has none. -/
def roomFor (endpoint : TcpLocalEndpoint) (peer : Peer) (listener : TcpListener) :
    List Input → Bool
  | [] => true
  | input :: inputs =>
    ((input.segment endpoint listener.localPort).all fun incoming =>
      incoming.peer = peer → incoming.has tcpFlagRst = false → incoming.has tcpFlagSyn →
        listener.hasRoom peer) &&
      roomFor endpoint peer (listener.step endpoint input) inputs

end TcpListener

/-- A listener, and one that has only ever heard of this peer. -/
structure Alone (peer : Peer) (listener alone : TcpListener) : Prop extends
    Agree peer listener alone where
  only : ∀ connection, some connection ∈ alone.connections → connection.peer = peer
  slots : alone.connections ≠ []

section

variable {endpoint : TcpLocalEndpoint} {peer : Peer} {listener alone : TcpListener}
  {inputs : List Input} {input : Input} {incoming : IncomingTcpSegment}

theorem alone_new (peer : Peer) (localPort : UInt16) :
    Alone peer (.new localPort) (.new localPort) := by
  have free (slot : Option TcpServerConnection)
      (mem : slot ∈ (TcpListener.new localPort).connections) : slot = none :=
    List.eq_of_mem_replicate mem
  have distinct : Distinct TcpServerConnection.peer (TcpListener.new localPort).connections := by
    intro i j a b at_
    cases free _ (List.mem_of_getElem? at_)
  refine ⟨⟨rfl, distinct, distinct, rfl⟩, ?_, List.cons_ne_nil _ _⟩
  intro connection mem
  cases free _ mem

theorem Alone.hasRoom (related : Alone peer listener alone) : alone.hasRoom peer = true := by
  obtain ⟨slot, slots, isTable⟩ := List.exists_cons_of_ne_nil related.slots
  unfold TcpListener.hasRoom
  cases slot with
  | none => rw [isTable, List.any_cons, Option.isNone_none, Bool.true_or, Bool.or_true]
  | some connection =>
    have isEntry : alone.entry peer = some connection := by
      apply (lookup_iff related.distinct').mpr
      refine ⟨related.only connection ?_, 0, ?_⟩
      · rw [isTable]
        exact List.mem_cons_self
      · rw [isTable]
        rfl
    rw [isEntry, Option.isSome_some, Bool.true_or]

theorem Stored.only (stored : Stored alone peer new alone')
    (only : ∀ connection, some connection ∈ alone.connections → connection.peer = peer) :
    ∀ connection, some connection ∈ alone'.connections → connection.peer = peer := by
  intro connection mem
  rcases stored.connections with ⟨same, -⟩ | ⟨index, -, set⟩
  · rw [same] at mem
    exact only connection mem
  · rw [set] at mem
    rcases List.mem_or_eq_of_mem_set mem with old | isNew
    · exact only connection old
    · exact stored.own connection isNew.symm

theorem Stored.slots (stored : Stored alone peer new alone') (slots : alone.connections ≠ []) :
    alone'.connections ≠ [] := by
  rcases stored.connections with ⟨same, -⟩ | ⟨index, -, set⟩
  · rw [same]
    exact slots
  · rw [set]
    intro empty
    apply slots
    have length := congrArg List.length empty
    rw [List.length_set] at length
    exact List.length_eq_zero_iff.mp length

theorem handleFrameAt_ok
    (isSegment : (Input.frame bytes nowTick).segment endpoint listener.localPort = some incoming) :
    listener.handleFrameAt bytes endpoint nowTick =
      listener.handleSegment bytes incoming endpoint nowTick := by
  unfold TcpListener.handleFrameAt
  cases parsed : parseTcpListenerSegment bytes endpoint.mac endpoint.address listener.localPort with
  | error stop =>
    rw [Input.segment, parsed] at isSegment
    cases isSegment
  | ok segment =>
    rw [Input.segment, parsed] at isSegment
    cases isSegment
    rfl

theorem handleFrameAt_error
    (isSegment : (Input.frame bytes nowTick).segment endpoint listener.localPort = none) :
    (listener.handleFrameAt bytes endpoint nowTick).2 = listener := by
  unfold TcpListener.handleFrameAt
  cases parsed : parseTcpListenerSegment bytes endpoint.mac endpoint.address listener.localPort with
  | error stop => rfl
  | ok segment =>
    rw [Input.segment, parsed] at isSegment
    cases isSegment

theorem Alone.own (related : Alone peer listener alone)
    (isSegment : input.segment endpoint listener.localPort = some incoming)
    (isOwn : incoming.peer = peer)
    (room : incoming.has tcpFlagRst = false → incoming.has tcpFlagSyn = true →
      listener.hasRoom peer = true) :
    Alone peer (listener.step endpoint input) (alone.step endpoint input) ∧
      alone.answer endpoint peer input = listener.answer endpoint peer input := by
  subst isOwn
  cases input with
  | expire nowTick => cases isSegment
  | frame bytes nowTick =>
    have isSegment' := isSegment
    rw [← related.localPort] at isSegment'
    have alike : Alike incoming.peer listener alone
        (listener.handleSegment bytes incoming endpoint nowTick)
        (alone.handleSegment bytes incoming endpoint nowTick) :=
      handleSegment_alike related.toAgree fun notReset syn =>
        related.hasRoom.trans (room notReset syn).symm
    obtain ⟨new, stored, stored'⟩ := alike.stored
    simp only [TcpListener.step, TcpListener.answer, handleFrameAt_ok isSegment,
      handleFrameAt_ok isSegment', related.localPort, alike.seen, and_true]
    refine ⟨⟨?_, stored.distinct related.distinct, stored'.distinct related.distinct', ?_⟩,
      stored'.only related.only, stored'.slots related.slots⟩
    · rw [stored.localPort, stored'.localPort, related.localPort]
    · rw [stored.entry_same related.distinct, stored'.entry_same related.distinct']

theorem answer_of_ne (notFrom : input.isFrom endpoint listener.localPort peer = false) :
    listener.answer endpoint peer input = [] := by
  cases input with
  | expire nowTick => rfl
  | frame bytes nowTick => rw [TcpListener.answer, notFrom, if_neg Bool.false_ne_true]

theorem step_foreign (distinct : Distinct TcpServerConnection.peer listener.connections)
    (isSegment : input.segment endpoint listener.localPort = some incoming)
    (foreign : incoming.peer ≠ peer) :
    (listener.step endpoint input).localPort = listener.localPort ∧
      Distinct TcpServerConnection.peer (listener.step endpoint input).connections ∧
      (listener.step endpoint input).entry peer = listener.entry peer := by
  cases input with
  | expire nowTick => cases isSegment
  | frame bytes nowTick =>
    simp only [TcpListener.step, handleFrameAt_ok isSegment]
    obtain ⟨new, stored⟩ := handleSegment_stored distinct
    exact ⟨stored.localPort, stored.distinct distinct,
      stored.entry_other distinct (Ne.symm foreign)⟩

theorem Alone.common (related : Alone peer listener alone)
    (isSegment : input.segment endpoint listener.localPort = none) :
    Alone peer (listener.step endpoint input) (alone.step endpoint input) := by
  cases input with
  | frame bytes nowTick =>
    have isSegment' := isSegment
    rw [← related.localPort] at isSegment'
    rw [TcpListener.step, TcpListener.step, handleFrameAt_error isSegment,
      handleFrameAt_error isSegment']
    exact related
  | expire nowTick =>
    refine ⟨⟨related.localPort, related.distinct.keep, related.distinct'.keep, ?_⟩, ?_, ?_⟩
    · change lookup _ (alone.connections.map _) _ = lookup _ (listener.connections.map _) _
      rw [lookup_keep related.distinct, lookup_keep related.distinct']
      exact congrArg (Option.filter _) related.entry
    · intro connection mem
      obtain ⟨slot, old, kept⟩ := List.mem_map.mp mem
      obtain ⟨isSlot, -⟩ := Option.filter_eq_some_iff.mp kept
      exact related.only connection (isSlot ▸ old)
    · intro empty
      exact related.slots (List.map_eq_nil_iff.mp empty)

theorem step_distinct (endpoint : TcpLocalEndpoint) (input : Input)
    (distinct : Distinct TcpServerConnection.peer listener.connections) :
    (listener.step endpoint input).localPort = listener.localPort ∧
      Distinct TcpServerConnection.peer (listener.step endpoint input).connections := by
  cases input with
  | expire nowTick => exact ⟨rfl, distinct.keep⟩
  | frame bytes nowTick =>
    cases isSegment : (Input.frame bytes nowTick).segment endpoint listener.localPort with
    | none =>
      rw [TcpListener.step, handleFrameAt_error isSegment]
      exact ⟨rfl, distinct⟩
    | some incoming =>
      rw [TcpListener.step, handleFrameAt_ok isSegment]
      obtain ⟨new, stored⟩ := handleSegment_stored distinct
      exact ⟨stored.localPort, stored.distinct distinct⟩

theorem after_distinct (endpoint : TcpLocalEndpoint) (inputs : List Input)
    (distinct : Distinct TcpServerConnection.peer listener.connections) :
    (listener.after endpoint inputs).localPort = listener.localPort ∧
      Distinct TcpServerConnection.peer (listener.after endpoint inputs).connections := by
  induction inputs generalizing listener with
  | nil => exact ⟨rfl, distinct⟩
  | cons input inputs ih =>
    obtain ⟨localPort, distinct'⟩ := step_distinct endpoint input distinct
    obtain ⟨localPort', distinct''⟩ := ih distinct'
    exact ⟨localPort'.trans localPort, distinct''⟩

theorem Alone.kept (related : Alone peer listener alone)
    (kept : input.isForeign endpoint listener.localPort peer = false)
    (room : ∀ incoming, input.segment endpoint listener.localPort = some incoming →
      incoming.peer = peer → incoming.has tcpFlagRst = false → incoming.has tcpFlagSyn = true →
        listener.hasRoom peer = true) :
    Alone peer (listener.step endpoint input) (alone.step endpoint input) ∧
      alone.answer endpoint peer input = listener.answer endpoint peer input := by
  cases isSegment : input.segment endpoint listener.localPort with
  | none =>
    have notFrom : input.isFrom endpoint listener.localPort peer = false := by
      rw [Input.isFrom, isSegment]
      rfl
    refine ⟨related.common isSegment, ?_⟩
    rw [answer_of_ne notFrom, answer_of_ne (related.localPort ▸ notFrom)]
  | some incoming =>
    rw [Input.isForeign, isSegment] at kept
    have isOwn : incoming.peer = peer := not_not.mp (of_decide_eq_false kept)
    exact related.own isSegment isOwn (room incoming isSegment isOwn)

/-- With room for the peer, the run and the run without the others stay related. -/
theorem Alone.run (related : Alone peer listener alone)
    (room : listener.roomFor endpoint peer inputs = true) :
    alone.answers endpoint peer (Input.withoutForeign endpoint listener.localPort peer inputs) =
        listener.answers endpoint peer inputs ∧
      Alone peer (listener.after endpoint inputs)
        (alone.after endpoint (Input.withoutForeign endpoint listener.localPort peer inputs)) := by
  induction inputs generalizing listener alone with
  | nil => exact ⟨rfl, related⟩
  | cons input inputs ih =>
    rw [TcpListener.roomFor, Bool.and_eq_true] at room
    obtain ⟨now, later⟩ := room
    obtain ⟨localPort, distinct⟩ := step_distinct endpoint input related.distinct
    cases isForeign : input.isForeign endpoint listener.localPort peer with
    | false =>
      obtain ⟨next, answer⟩ := related.kept isForeign <| by
        intro incoming isSegment
        rw [isSegment] at now
        exact of_decide_eq_true now
      obtain ⟨answers, related'⟩ := ih next later
      rw [localPort] at answers related'
      have rest : Input.withoutForeign endpoint listener.localPort peer (input :: inputs) =
          input :: Input.withoutForeign endpoint listener.localPort peer inputs :=
        List.filter_cons_of_pos (by rw [isForeign]; rfl)
      rw [rest, TcpListener.answers, TcpListener.answers, answer, answers]
      exact ⟨rfl, related'⟩
    | true =>
      obtain ⟨incoming, isSegment, foreign⟩ : ∃ incoming,
          input.segment endpoint listener.localPort = some incoming ∧
            incoming.peer ≠ peer := by
        cases isSegment : input.segment endpoint listener.localPort with
        | none =>
          rw [Input.isForeign, isSegment] at isForeign
          cases isForeign
        | some incoming =>
          rw [Input.isForeign, isSegment] at isForeign
          exact ⟨incoming, rfl, of_decide_eq_true isForeign⟩
      have notFrom : input.isFrom endpoint listener.localPort peer = false := by
        rw [Input.isFrom, isSegment]
        exact decide_eq_false foreign
      obtain ⟨-, -, entry⟩ := step_foreign related.distinct isSegment foreign
      have next : Alone peer (listener.step endpoint input) alone :=
        { related with
          localPort := related.localPort.trans localPort.symm
          distinct
          entry := related.entry.trans entry.symm }
      obtain ⟨answers, related'⟩ := ih next later
      rw [localPort] at answers related'
      have rest : Input.withoutForeign endpoint listener.localPort peer (input :: inputs) =
          Input.withoutForeign endpoint listener.localPort peer inputs :=
        List.filter_cons_of_neg (by rw [isForeign]; exact nofun)
      rw [rest, TcpListener.answers, answer_of_ne notFrom, answers]
      exact ⟨rfl, related'⟩

/-- A peer that finds a free slot whenever it asks for one is answered as if it were alone, and its
    entry is the one it would have alone. No frame of another peer touches its entry or stops the
    listener, in any state that can be reached. -/
theorem peer_noninterference (endpoint : TcpLocalEndpoint) (localPort : UInt16) (peer : Peer)
    (inputs : List Input) :
    let own := Input.withoutForeign endpoint localPort peer inputs
    let reached := (TcpListener.new localPort).after endpoint inputs
    ((TcpListener.new localPort).roomFor endpoint peer inputs = true →
      (TcpListener.new localPort).answers endpoint peer inputs =
          (TcpListener.new localPort).answers endpoint peer own ∧
        reached.entry peer = ((TcpListener.new localPort).after endpoint own).entry peer) ∧
      ∀ frame nowTick,
        (reached.handleFrameAt frame endpoint nowTick).1 ≠ .error .panicked ∧
          ∀ incoming, parseTcpListenerSegment frame endpoint.mac endpoint.address localPort =
              .ok incoming → incoming.peer ≠ peer →
            (reached.handleFrameAt frame endpoint nowTick).2.entry peer = reached.entry peer := by
  have start := alone_new peer localPort
  refine ⟨?_, ?_⟩
  · intro room
    obtain ⟨answers, related⟩ := start.run room
    exact ⟨answers.symm, related.entry.symm⟩
  · intro frame nowTick
    obtain ⟨isPort, distinct⟩ := after_distinct endpoint inputs start.distinct
    refine ⟨?_, ?_⟩
    · intro panicked
      have safe := handleFrameAt_safe ((TcpListener.new localPort).after endpoint inputs) frame
        endpoint nowTick
      rw [panicked] at safe
      exact safe rfl
    · intro incoming parsed foreign
      have isSegment : (Input.frame frame nowTick).segment endpoint
          ((TcpListener.new localPort).after endpoint inputs).localPort = some incoming := by
        rw [isPort, Input.segment]
        exact congrArg Except.toOption parsed
      exact (step_foreign distinct isSegment foreign).2.2

end

section

def exampleEndpoint : TcpLocalEndpoint where
  mac := #v[0x52, 0x54, 0, 0x12, 0x34, 0x56]
  address := #v[10, 0, 2, 15]

def examplePeer (last : UInt8) : Peer where
  mac := #v[2, 0, 0, 0, 0, last]
  address := #v[10, 0, 2, last]
  port := 4000

/-- The frame with which an example peer asks for a connection: a SYN to port 8080, with the
    checksums of its IPv4 header and its segment. -/
def exampleSyn (last : UInt8) (headerChecksum checksum : UInt16) : Bytes :=
  exampleEndpoint.mac.toList ++ (examplePeer last).mac.toList ++ [8, 0] ++
    ([0x45, 0, 0, 40, 0x10, 0x30, 0x40, 0, 64, 6] ++ beU16 headerChecksum ++
      (examplePeer last).address.toList ++ exampleEndpoint.address.toList) ++
    ([0x0f, 0xa0, 0x1f, 0x90, 0, 0, 0, 100, 0, 0, 0, 0, 0x50, 2, 0x40, 0] ++ beU16 checksum ++
      [0, 0])

def exampleInputs : List Input :=
  [.frame (exampleSyn 1 0x1291 0x283f) 1, .frame (exampleSyn 2 0x1290 0x283e) 2, .expire 3]

/-- Two peers ask for a connection, and the first is served as if it were alone. -/
theorem peer_noninterference_two_peers :
    (TcpListener.new 8080).roomFor exampleEndpoint (examplePeer 1) exampleInputs = true ∧
      ((TcpListener.new 8080).after exampleEndpoint exampleInputs).entry (examplePeer 1) =
        ((TcpListener.new 8080).after exampleEndpoint (Input.withoutForeign exampleEndpoint 8080
          (examplePeer 1) exampleInputs)).entry (examplePeer 1) ∧
      (((TcpListener.new 8080).after exampleEndpoint exampleInputs).entry (examplePeer 1)).isSome ∧
      (((TcpListener.new 8080).after exampleEndpoint exampleInputs).entry (examplePeer 2)).isSome := by
  have room : (TcpListener.new 8080).roomFor exampleEndpoint (examplePeer 1) exampleInputs = true := by
    decide +kernel
  refine ⟨room, ?_, by decide +kernel, by decide +kernel⟩
  exact ((peer_noninterference exampleEndpoint 8080 (examplePeer 1) exampleInputs).1 room).2

end

end CodexOS.Network
