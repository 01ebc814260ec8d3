import CodexOS.Network.TcpListener

/-! # The listener never stops the kernel

Every index and range the parser uses was checked before. What it accepts has its
payload inside the frame, so the listener can slice it out.
-/

namespace CodexOS.Network

open Bytes

/-- No panic, and a postcondition for the value. -/
def Safe {α : Type} (x : Checked α) (post : α → Prop) : Prop :=
  match x with
  | .ok a => post a
  | .error stop => stop ≠ .panicked

namespace Safe

variable {α β : Type} {post : α → Prop} {mid : β → Prop}

theorem pure (holds : post a) : Safe (Pure.pure a) post :=
  holds

theorem bind (first : Safe x mid) (next : ∀ b, mid b → Safe (f b) post) : Safe (x >>= f) post := by
  cases x with
  | ok b => exact next b first
  | error stop => exact first

theorem guard [Decidable c] (next : ¬c → Safe (f ()) post) :
    Safe (if c then malformed >>= f else f ()) post := by
  split
  · exact nofun
  · exact next ‹_›

theorem weaken {mid : α → Prop} {x : Checked α} (holds : Safe x mid) (implies : ∀ a, mid a → post a) :
    Safe x post := by
  cases x with
  | ok a => exact implies a holds
  | error stop => exact holds

theorem map (holds : Safe x mid) (implies : ∀ b, mid b → post (f b)) :
    Safe (x.map f) post := by
  cases x with
  | ok b => exact implies b holds
  | error stop => exact holds

end Safe

section

variable {bytes : Bytes} {i start stop offset : Nat}

theorem safe_index (inside : i < bytes.length) : Safe (index bytes i) fun _ => True := by
  rw [index, List.getElem?_eq_getElem inside]
  trivial

theorem safe_range (order : start ≤ stop) (inside : stop ≤ bytes.length) :
    Safe (range bytes start stop) fun part => part.length = stop - start := by
  rw [range, get, if_pos ⟨order, inside⟩]
  exact length_slice (by omega)

theorem get_length (found : get bytes start stop = some part) :
    part.length = stop - start := by
  unfold get at found
  split at found
  · rename_i bounds
    cases found
    exact length_slice (by omega)
  · cases found

theorem safe_getBeU16 : Safe (getBeU16 bytes offset) fun _ => True := by
  unfold getBeU16
  split
  · exact nofun
  · rename_i part found
    have length := get_length found
    exact .bind (safe_index (by omega)) fun _ _ => .bind (safe_index (by omega)) fun _ _ => trivial

theorem safe_getBeU32 : Safe (getBeU32 bytes offset) fun _ => True := by
  unfold getBeU32
  split
  · exact nofun
  · rename_i part found
    have length := get_length found
    exact .bind (safe_index (by omega)) fun _ _ => .bind (safe_index (by omega)) fun _ _ =>
      .bind (safe_index (by omega)) fun _ _ => .bind (safe_index (by omega)) fun _ _ => trivial

theorem safe_readIpv4 : Safe (readIpv4 bytes offset) fun _ => True := by
  unfold readIpv4
  split
  · exact nofun
  · rename_i part found
    have length := get_length found
    exact .bind (safe_index (by omega)) fun _ _ => .bind (safe_index (by omega)) fun _ _ =>
      .bind (safe_index (by omega)) fun _ _ => .bind (safe_index (by omega)) fun _ _ => trivial

end

/-- The parser accepts only segments whose payload lies in the frame. -/
theorem parseTcpListenerSegment_safe (frame : Bytes) (localMac : MacAddress)
    (localAddress : Ipv4Address) (localPort : UInt16) :
    Safe (parseTcpListenerSegment frame localMac localAddress localPort) fun incoming =>
      incoming.segment.payloadOffset + incoming.segment.payloadLen ≤ frame.length := by
  unfold parseTcpListenerSegment
  refine .guard fun long => ?_
  have ethernet : ethernetHeaderBytes = 14 := rfl
  have ipv4 : ipv4HeaderBytes = 20 := rfl
  refine .guard fun _ => .bind safe_getBeU16 fun _ _ => .guard fun _ => ?_
  refine .bind (safe_range (by omega) (by omega)) fun _ _ => ?_
  refine .bind (safe_index (by omega)) fun versionAndLength _ => ?_
  refine .bind safe_getBeU16 fun totalBytes _ => .guard fun _ => .guard fun header => ?_
  refine .guard fun total => .guard fun fits => ?_
  refine .bind (safe_range (by omega) (by omega)) fun _ _ => .guard fun _ => ?_
  refine .bind (safe_index (by omega)) fun _ _ => .guard fun _ => ?_
  refine .bind safe_getBeU16 fun _ _ => .guard fun _ => .guard fun _ => ?_
  refine .bind safe_readIpv4 fun remoteAddress _ => ?_
  refine .bind (safe_index (by omega)) fun dataOffset _ => ?_
  refine .bind safe_getBeU16 fun _ _ => .guard fun _ => .guard fun _ => .guard fun data => ?_
  refine .bind (safe_range (by omega) (by omega)) fun _ _ => .guard fun _ => ?_
  refine .bind safe_getBeU16 fun _ _ => .bind safe_getBeU32 fun _ _ => ?_
  refine .bind safe_getBeU32 fun _ _ => .bind (safe_index (by omega)) fun _ _ => .pure ?_
  dsimp only
  omega

theorem buildTcpIpv4Frame_safe (request : TcpFrameRequest) :
    Safe (buildTcpIpv4Frame request) fun _ => True := by
  unfold buildTcpIpv4Frame
  dsimp only
  split
  · exact nofun
  · trivial

section

variable {listener : TcpListener} {incoming : IncomingTcpSegment} {endpoint : TcpLocalEndpoint}
  {frame payload : Bytes} {connection : TcpServerConnection} {index nowTick : Nat}

theorem reset_safe : Safe (listener.reset incoming endpoint) fun _ => True :=
  .bind (buildTcpIpv4Frame_safe _) fun _ _ => trivial

theorem safe_of_error (safe : Safe x fun _ => True) (failed : x = .error stop) :
    Safe (.error stop : Checked β) post := by
  rw [failed] at safe
  exact safe

theorem acceptSyn_safe : Safe (listener.acceptSyn incoming endpoint nowTick).1 fun _ => True := by
  unfold TcpListener.acceptSyn
  dsimp only
  split
  · exact reset_safe
  split
  · exact safe_of_error (buildTcpIpv4Frame_safe _) ‹_›
  · trivial

theorem handleControlSegment_safe :
    Safe (listener.handleControlSegment index connection incoming endpoint nowTick).1
      fun _ => True := by
  unfold TcpListener.handleControlSegment
  split
  · trivial
  dsimp only
  split
  · exact .bind (buildTcpIpv4Frame_safe _) fun _ _ => trivial
  · trivial

theorem retransmitResponse_safe :
    Safe (listener.retransmitResponse index connection incoming payload endpoint nowTick).1
      fun _ => True := by
  unfold TcpListener.retransmitResponse
  dsimp only
  split
  · trivial
  split
  · exact safe_of_error (buildTcpIpv4Frame_safe _) ‹_›
  · trivial

theorem serve_safe :
    Safe (listener.serve index connection incoming payload endpoint nowTick).1 fun _ => True := by
  unfold TcpListener.serve
  split
  · trivial
  split
  · exact reset_safe.map fun _ _ => trivial
  dsimp only
  split
  · exact safe_of_error (buildTcpIpv4Frame_safe _) ‹_›
  · trivial

theorem handleFrameAt_safe (listener : TcpListener) (frame : Bytes) (endpoint : TcpLocalEndpoint)
    (nowTick : Nat) : Safe (listener.handleFrameAt frame endpoint nowTick).1 fun _ => True := by
  have safe := parseTcpListenerSegment_safe frame endpoint.mac endpoint.address listener.localPort
  unfold TcpListener.handleFrameAt
  split
  · rename_i stop failed
    rw [failed] at safe
    exact safe
  rename_i incoming parsed
  rw [parsed] at safe
  unfold TcpListener.handleSegment
  split
  · split <;> trivial
  split
  · exact acceptSyn_safe.map fun _ _ => trivial
  split
  · exact reset_safe.map fun _ _ => trivial
  split
  · trivial
  split
  · exact handleControlSegment_safe
  dsimp only
  split
  · exact safe_of_error ((safe_range (Nat.le_add_right _ _) safe).weaken fun _ _ => trivial) ‹_›
  split
  · exact retransmitResponse_safe
  · exact serve_safe

end

end CodexOS.Network
