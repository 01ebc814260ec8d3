import CodexOS.Network.Safety
import Mathlib.Data.Set.Subsingleton

/-! # The two parsers of TCP segments

The client compares the fields of a frame with what it expects of its peer, the
listener reads them. Both make the same checks otherwise, so that a frame is
accepted by the one exactly when the other accepts it for the peer the frame names.
-/

namespace CodexOS.Network

open Bytes

section

variable {α β : Type} {x : Checked α} {f : α → Checked β} {b : β} {frame : Bytes}

theorem bind_eq_ok : (x >>= f) = .ok b ↔ ∃ a, x = .ok a ∧ f a = .ok b := by
  cases x with
  | error stop => exact ⟨nofun, nofun⟩
  | ok a => simp [bind, Except.bind]

theorem guard_eq_ok {c : Prop} [Decidable c] {f : Unit → Checked β} :
    (if c then malformed >>= f else f ()) = .ok b ↔ ¬c ∧ f () = .ok b := by
  by_cases refused : c
  · simp [refused, malformed, bind, Except.bind]
  · simp [refused]

theorem range_eq_ok : range frame start stop = .ok part ↔ get frame start stop = some part := by
  unfold range
  cases get frame start stop <;> simp

theorem readIpv4_eq_ok :
    readIpv4 frame offset = .ok address ↔ get frame offset (offset + 4) = some address.toList := by
  unfold readIpv4
  cases found : get frame offset (offset + 4) with
  | none => simp [malformed]
  | some bytes =>
    have length := get_length found
    rw [Nat.add_sub_cancel_left] at length
    obtain ⟨b0, b1, b2, b3, rfl⟩ := List.length_eq_four.mp length
    change Except.ok #v[b0, b1, b2, b3] = _ ↔ _
    rw [Except.ok.injEq, ← Vector.toList_inj, Option.some.injEq]
    rfl

theorem remoteMac_iff {mac : MacAddress} :
    (∃ part, range frame 6 12 = .ok part ∧ arrayAt 6 part 0 = mac) ↔
      get frame 6 12 = some mac.toList := by
  simp only [range_eq_ok]
  constructor
  · rintro ⟨part, found, rfl⟩
    have length := get_length found
    rw [toList_arrayAt (by omega), slice, List.drop_zero, List.take_of_length_le (by omega), found]
  · intro found
    exact ⟨_, found, arrayAt_of_slice (by simp) (List.take_of_length_le (by simp))⟩

theorem parseTcpListenerSegment_eq_ok {segment : TcpSegment} :
    parseTcpListenerSegment frame localMac address localPort =
        .ok ⟨remoteMac, remote, remotePort, segment⟩ ↔
      get frame 0 6 = some localMac.toList ∧
        parseTcpSegment frame remoteMac address remote localPort remotePort = .ok segment := by
  unfold parseTcpListenerSegment parseTcpSegment
  simp only [guard_eq_ok, bind_eq_ok, readIpv4_eq_ok, ← remoteMac_iff, not_not, pure, Except.pure,
    Except.ok.injEq, IncomingTcpSegment.mk.injEq]
  constructor
  · rintro ⟨long, isLocal, _, ethertype, rfl, mac, isMac, first, isFirst, total, isTotal, version, short,
      enough, fits, header, isHeader, verifies, _, protocol, rfl, offset, isOffset, whole, destination,
      _, source, data, isData, _, isPort, rfl, low, high, tcp, isTcp, sums, _, isRemote, sequence,
      isSequence, number, isNumber, flags, isFlags, rfl, rfl, rfl, same⟩
    simp_all
  · rintro ⟨isLocal, long, ⟨mac, isMac, rfl⟩, _, ethertype, rfl, first, isFirst, total, isTotal, version,
      short, enough, fits, header, isHeader, verifies, _, protocol, rfl, offset, isOffset, whole, source,
      destination, data, isData, _, isRemote, rfl, _, isPort, rfl, low, high, tcp, isTcp, sums, sequence,
      isSequence, number, isNumber, flags, isFlags, same⟩
    simp_all

/-- Where an accepted frame names its peer. -/
theorem peer_of_parseTcpSegment {segment : TcpSegment}
    (ok : parseTcpSegment frame remoteMac address remote localPort remotePort = .ok segment) :
    get frame 6 12 = some remoteMac.toList ∧ get frame 26 30 = some remote.toList ∧
      ∃ first, index frame 14 = .ok first ∧
        getBeU16 frame (14 + (first &&& 0x0f).toNat * 4) = .ok remotePort := by
  unfold parseTcpSegment at ok
  simp only [guard_eq_ok, bind_eq_ok, not_not] at ok
  obtain ⟨-, mac, _, -, -, first, isFirst, _, -, -, -, -, -, _, -, -, _, -, -, _, -, -, source, -, _, -,
    _, isRemote, rfl, -⟩ := ok
  exact ⟨mac, source, first, isFirst, isRemote⟩

end

/-- The listener accepts a frame with what it read of the peer exactly when the frame is for its own
    address and the client accepts the frame from that peer; and there is at most one such peer. -/
theorem tcp_parsers_agree (frame : Bytes) :
    (∀ localMac address localPort remoteMac remote remotePort segment,
      parseTcpListenerSegment frame localMac address localPort =
          .ok ⟨remoteMac, remote, remotePort, segment⟩ ↔
        get frame 0 6 = some localMac.toList ∧
          parseTcpSegment frame remoteMac address remote localPort remotePort = .ok segment) ∧
      {peer : MacAddress × Ipv4Address × UInt16 | ∃ address localPort segment,
        parseTcpSegment frame peer.1 address peer.2.1 localPort peer.2.2 = .ok segment}.Subsingleton := by
  refine ⟨fun _ _ _ _ _ _ _ => parseTcpListenerSegment_eq_ok, ?_⟩
  rintro ⟨mac, remote, port⟩ ⟨_, _, _, ok⟩ ⟨mac', remote', port'⟩ ⟨_, _, _, ok'⟩
  obtain ⟨isMac, isRemote, first, isFirst, isPort⟩ := peer_of_parseTcpSegment ok
  obtain ⟨isMac', isRemote', first', isFirst', isPort'⟩ := peer_of_parseTcpSegment ok'
  rw [isMac, Option.some.injEq, Vector.toList_inj] at isMac'
  rw [isRemote, Option.some.injEq, Vector.toList_inj] at isRemote'
  rw [isFirst, Except.ok.injEq] at isFirst'
  rw [← isFirst', isPort, Except.ok.injEq] at isPort'
  exact Prod.ext isMac' (Prod.ext isRemote' isPort')

end CodexOS.Network
