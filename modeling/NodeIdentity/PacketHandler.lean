import NodeIdentity.NidRouting
import NodeIdentity.NidMapper

/-!
# Packet handler

`packetHandler.c`.  The output thread puts a header before IP packets and
control messages.  It has one buffer for all four channels: the header in
front, where each branch overwrites some of the fields, and the payload behind
it.  The input thread records who a frame is from and hands its payload on.
-/

namespace NodeIdentity

open NodeIdentity.Library

/-- What `MAXBUFLEN` leaves for the payload. -/
def payloadLen : Nat := maxBufLen - nhLen

/-- `protocol` and `daddr` lie at these offsets of `struct iphdr`. -/
def protocolOffset : Nat := 9

def daddrOffset : Nat := 16

/-- The buffer of `thread_ph_output`, header and payload apart, and the
variable `nidcore` it shares with `updatePH`. -/
structure PhOutput where
  nh : NidHeader
  pt : Buffer payloadLen
  nidcore : NID

/-- The static buffer starts as zeros, with the own NID as source. -/
def initPhOutput (config : Configuration) : PhOutput :=
  { nh :=
      { type := .data
        srcNID := config.nid
        destNID := NID.zero
        srcNIDgw := NID.zero
        destNIDgw := NID.zero }
    pt := Buffer.zero payloadLen
    nidcore := config.nidcore }

def updatePH (config : Configuration) (ph : PhOutput) : PhOutput :=
  { ph with nidcore := config.nidcore }

namespace PhOutput

def daddr (ph : PhOutput) : NID32 :=
  nid32Codec.decode (ph.pt.bytes.drop daddrOffset)

def nmsg (ph : PhOutput) : NidMsg := nidMsgCodec.decode ph.pt.bytes

def read (ph : PhOutput) (datagram : List UInt8) : PhOutput :=
  { ph with pt := ph.pt.receive datagram }

/-- A header with the payload just read, as written to `sp_ph2nr`. -/
structure Frame where
  header : NidHeader
  payload : List UInt8
  deriving DecidableEq

def frame (ph : PhOutput) (datagram : List UInt8) : Frame :=
  ⟨ph.nh, ph.pt.bytes.take (Buffer.received payloadLen datagram)⟩

end PhOutput

/-- The channels `thread_ph_output` reads, in the order in which it looks. -/
inductive PhSource where
  | nf2ph
  | rvs2ph
  | mo2ph
  | gwt2ph
  deriving DecidableEq

/-- The branch for IP packets.  A packet for an unknown address is dropped. -/
def phOutputData (datagram : List UInt8) (nm : NidMapper) (ph : PhOutput) :
    PhOutput × Option PhOutput.Frame :=
  let ph := ph.read datagram
  match getNMEntry32 ph.daddr nm with
  | some nm_pt =>
      let ph :=
        { ph with
          nh :=
            { ph.nh with
              type := .data
              srcNIDgw := ph.nidcore
              destNID := nm_pt.nid
              destNIDgw := nm_pt.nidgw } }
      (ph, some (ph.frame datagram))
  | none => (ph, none)

/-- The branch of `sp_rvs2ph` and that of `sp_mo2ph`. -/
def phOutputControl (datagram : List UInt8) (ph : PhOutput) :
    PhOutput × Option PhOutput.Frame :=
  let ph := ph.read datagram
  let nmsg := ph.nmsg
  let ph :=
    { ph with
      nh :=
        { ph.nh with
          type := nmsg.type
          srcNID := nmsg.srcNID
          destNID := nmsg.destNID } }
  (ph, some (ph.frame datagram))

/-- The branch of `sp_gwt2ph`, the only one which sets every field. -/
def phOutputTalker (datagram : List UInt8) (ph : PhOutput) :
    PhOutput × Option PhOutput.Frame :=
  let ph := ph.read datagram
  let nmsg := ph.nmsg
  let ph :=
    { ph with
      nh :=
        { type := nmsg.type
          srcNID := nmsg.srcNID
          destNID := nmsg.destNID
          srcNIDgw := nmsg.srcNIDgw
          destNIDgw := nmsg.destNIDgw } }
  (ph, some (ph.frame datagram))

def threadPhOutput (source : PhSource) (datagram : List UInt8)
    (nm : NidMapper) (ph : PhOutput) : PhOutput × Option PhOutput.Frame :=
  match source with
  | .nf2ph => phOutputData datagram nm ph
  | .rvs2ph => phOutputControl datagram ph
  | .mo2ph => phOutputControl datagram ph
  | .gwt2ph => phOutputTalker datagram ph

/-- A control message is a full record, so the overlay is the message. -/
theorem nmsg_read_full (ph : PhOutput) (nmsg : NidMsg) :
    (ph.read (nidMsgCodec.encode nmsg)).nmsg = nmsg := by
  have full := ph.pt.decode_receive nidMsgCodec (by decide) nmsg []
  rwa [List.append_nil] at full

/-- The branches of the control channels give a frame the type its payload
begins with. -/
theorem threadPhOutput_typed {source : PhSource} (control : source ≠ .nf2ph)
    {datagram : List UInt8} (typed : msgTypeCodec.width ≤ datagram.length)
    (nm : NidMapper) (ph : PhOutput) :
    ∃ header, header.type = msgTypeCodec.decode datagram ∧
      (threadPhOutput source datagram nm ph).2 =
        some ⟨header, datagram.take payloadLen⟩ := by
  have type : (ph.read datagram).nmsg.type = msgTypeCodec.decode datagram :=
    ph.pt.decode_receive_of_prefixed msgTypeCodec_prefixed (by decide) typed
  have payload : (ph.read datagram).pt.bytes.take
      (Buffer.received payloadLen datagram) = datagram.take payloadLen :=
    ph.pt.take_received datagram
  cases source with
  | nf2ph => exact (control rfl).elim
  | gwt2ph =>
      simp only [threadPhOutput, phOutputTalker, PhOutput.frame, payload]
      exact ⟨_, type, rfl⟩
  | _ =>
      simp only [threadPhOutput, phOutputControl, PhOutput.frame, payload]
      exact ⟨_, type, rfl⟩

inductive RawSocket where
  | tcp
  | udp
  | icmp
  deriving DecidableEq

def rawSocket (protocol : UInt8) : Option RawSocket :=
  match protocol.toNat with
  | 6 => some .tcp
  | 17 => some .udp
  | 1 => some .icmp
  | _ => none

/-- What `thread_ph_input` does with a frame: the packet it gives to a raw
socket, or the datagram it writes to `sp_ph2co`. -/
structure PhInputTurn where
  buf : Buffer maxBufLen
  nm : NidMapper
  raw : Option (RawSocket × List UInt8)
  ph2co : Option (List UInt8)
  exits : Bool

/-- `sent` is what `sendto` reports for a packet; the thread ends the process
when it fails.  For a frame shorter than a header the length of the payload is
negative, which `sendto` and `write` refuse. -/
def threadPhInput (datagram : List UInt8) (sent : Bool)
    (buf : Buffer maxBufLen) (nm : NidMapper) : PhInputTurn :=
  let buf := buf.receive datagram
  let recv_bytes := Buffer.received maxBufLen datagram
  let nh_pt := nidHeaderCodec.decode buf.bytes
  let pt := buf.bytes.drop nhLen
  let payload :=
    if nhLen ≤ recv_bytes then some (pt.take (recv_bytes - nhLen)) else none
  let nm := newNMEntry nh_pt.srcNID nh_pt.srcNIDgw nm
  match nh_pt.type with
  | .data =>
      match rawSocket (pt.getD protocolOffset 0) with
      | some socket =>
          match payload with
          | some packet => ⟨buf, nm, some (socket, packet), none, !sent⟩
          | none => ⟨buf, nm, none, none, true⟩
      | none => ⟨buf, nm, none, none, false⟩
  | .redirect => ⟨buf, nm, none, payload, false⟩
  | .registry => ⟨buf, nm, none, payload, false⟩
  | .redirectCore => ⟨buf, nm, none, payload, false⟩
  | .rvsUpdate => ⟨buf, nm, none, payload, false⟩
  | .rvsAck => ⟨buf, nm, none, payload, false⟩
  | .rvsGet => ⟨buf, nm, none, payload, false⟩
  | .rvsResponse => ⟨buf, nm, none, payload, false⟩
  | .relocate => ⟨buf, nm, none, none, false⟩
  | .unknown _ _ => ⟨buf, nm, none, none, false⟩

theorem threadPhInput_state (datagram : List UInt8) (sent : Bool)
    (buf : Buffer maxBufLen) (nm : NidMapper) :
    (threadPhInput datagram sent buf nm).buf = buf.receive datagram ∧
      (threadPhInput datagram sent buf nm).nm =
        newNMEntry (nidHeaderCodec.decode (buf.receive datagram).bytes).srcNID
          (nidHeaderCodec.decode (buf.receive datagram).bytes).srcNIDgw nm := by
  simp only [threadPhInput]
  cases (nidHeaderCodec.decode (buf.receive datagram).bytes).type with
  | data =>
      simp only
      split
      · split <;> exact ⟨rfl, rfl⟩
      · exact ⟨rfl, rfl⟩
  | _ => exact ⟨rfl, rfl⟩

/-- The types whose payload is a matter of the control thread. -/
def MsgType.ForControl : MsgType → Prop
  | .data => False
  | .relocate => False
  | .unknown _ _ => False
  | _ => True

/-- The buffer which received a frame: the header, the length and the payload,
as far as there is room. -/
theorem receive_frame (header : NidHeader) (payload : List UInt8)
    (buf : Buffer maxBufLen) :
    nidHeaderCodec.decode (buf.receive (frame header payload)).bytes = header ∧
      nhLen ≤ Buffer.received maxBufLen (frame header payload) ∧
      ((buf.receive (frame header payload)).bytes.drop nhLen).take
          (Buffer.received maxBufLen (frame header payload) - nhLen) =
        payload.take payloadLen := by
  have width : (nidHeaderCodec.encode header).length = nhLen :=
    nidHeaderCodec.length_encode header
  refine ⟨buf.decode_receive nidHeaderCodec (by decide) header payload, ?_, ?_⟩
  · rw [Buffer.received, frame, List.length_append, width]
    exact le_min (Nat.le_add_right _ _) (by decide)
  · rw [← List.drop_take, Buffer.take_received, frame_take, frame]
    exact List.drop_left' width

theorem getElem?_receive_frame (header : NidHeader) {payload : List UInt8}
    (buf : Buffer maxBufLen) {index : Nat} (inside : index < payload.length)
    (room : index < payloadLen) :
    ((buf.receive (frame header payload)).bytes.drop nhLen)[index]? =
      payload[index]? := by
  have width : (nidHeaderCodec.encode header).length = nhLen :=
    nidHeaderCodec.length_encode header
  have inFrame : nhLen + index < (frame header payload).length := by
    rw [frame, List.length_append, width]
    exact Nat.add_lt_add_left inside nhLen
  have inBuffer : nhLen + index < maxBufLen :=
    Nat.add_lt_of_lt_sub' room
  rw [List.getElem?_drop, buf.getElem?_receive inFrame inBuffer, frame,
    List.getElem?_append_right (width.trans_le (Nat.le_add_right _ _)), width,
    Nat.add_sub_cancel_left]

theorem threadPhInput_ph2co (header : NidHeader) (payload : List UInt8)
    (sent : Bool) (buf : Buffer maxBufLen) (nm : NidMapper) :
    (header.type.ForControl →
      (threadPhInput (frame header payload) sent buf nm).ph2co =
        some (payload.take payloadLen)) ∧
    (¬ header.type.ForControl →
      (threadPhInput (frame header payload) sent buf nm).ph2co = none) := by
  obtain ⟨read, headed, body⟩ := receive_frame header payload buf
  simp only [threadPhInput, read, if_pos headed, body]
  cases header.type with
  | data =>
      refine ⟨False.elim, fun _ => ?_⟩
      simp only
      split <;> rfl
  | relocate => exact ⟨False.elim, fun _ => rfl⟩
  | unknown => exact ⟨False.elim, fun _ => rfl⟩
  | _ => exact ⟨fun _ => rfl, fun other => (other trivial).elim⟩

/-- A data frame goes out by the socket of its protocol, and the thread goes on
if it could. -/
theorem threadPhInput_data {header : NidHeader} (data : header.type = .data)
    {payload : List UInt8} (long : protocolOffset < payload.length)
    {socket : RawSocket}
    (protocol : rawSocket (payload.getD protocolOffset 0) = some socket)
    (sent : Bool) (buf : Buffer maxBufLen) (nm : NidMapper) :
    (threadPhInput (frame header payload) sent buf nm).raw =
        some (socket, payload.take payloadLen) ∧
      (threadPhInput (frame header payload) sent buf nm).exits = !sent := by
  obtain ⟨read, headed, body⟩ := receive_frame header payload buf
  have byte : ((buf.receive (frame header payload)).bytes.drop nhLen).getD
      protocolOffset 0 = payload.getD protocolOffset 0 := by
    rw [List.getD_eq_getElem?_getD, List.getD_eq_getElem?_getD,
      getElem?_receive_frame header buf long (by decide)]
  simp only [threadPhInput, read, data, byte, protocol, if_pos headed, body,
    and_self]

theorem threadPhInput_control {header : NidHeader} (control : header.type ≠ .data)
    (payload : List UInt8) (sent : Bool) (buf : Buffer maxBufLen)
    (nm : NidMapper) :
    (threadPhInput (frame header payload) sent buf nm).raw = none ∧
      (threadPhInput (frame header payload) sent buf nm).exits = false := by
  obtain ⟨read, _, _⟩ := receive_frame header payload buf
  simp only [threadPhInput, read]
  cases kind : header.type with
  | data => exact absurd kind control
  | _ => exact ⟨rfl, rfl⟩

end NodeIdentity
