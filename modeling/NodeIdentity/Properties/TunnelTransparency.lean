import NodeIdentity.Properties.DataIdentity
import NodeIdentity.Control
import NodeIdentity.Mobility
import NodeIdentity.Nidd
import NodeIdentity.Rvs

/-!
# Packets through the tunnel

The way of an IP packet from one node to the raw sockets of another:
`thread_ph_output` and `thread_nr_output` at the sender, `thread_nr_input` and
`thread_ph_input` at the receiver, and a queue behind each of the first three.
The threads take their turns in any order.  Each has one buffer for packets and
control messages alike, which keeps what a shorter one does not overwrite.
-/

namespace NodeIdentity

open NodeIdentity.Library

/-- A packet of a protocol with a raw socket, as the tunnel device gives it. -/
structure TransportPacket extends IpPacket where
  fits : bytes.length ≤ deviceMtu
  socket : RawSocket
  protocol : rawSocket (bytes.getD protocolOffset 0) = some socket

/-- A message of another channel.  It begins with its type, which is not that of
data. -/
structure ControlMessage where
  source : PhSource
  bytes : List UInt8
  channel : source ≠ .nf2ph
  typed : msgTypeCodec.width ≤ bytes.length
  control : msgTypeCodec.decode bytes ≠ .data

/-- What the threads of a node write to the other channels.  An answer of the
rendezvous server is to a request which `thread_control_rvs` let through. -/
inductive ControlSent : PhSource → NidMsg → Prop where
  | redirect (config : Configuration) (peer : NID) :
      ControlSent .mo2ph (redirectMsg config peer)
  | handover (config : Configuration) : ControlSent .rvs2ph (rvsUpdate config)
  | update (config : Configuration) :
      ControlSent .rvs2ph (threadRvsUpdate config)
  | get (config : Configuration) (request : NID) :
      ControlSent .rvs2ph (threadRvsGet config request)
  | answer {now : Timeval} {datagram : List UInt8} {buf : NmsgBuffer}
      {cm : ConnMapper} {nmsg : NidMsg} :
      (threadControlRvs now datagram buf cm).co2rvs = some nmsg →
      ∀ later rvs_table, ControlSent .rvs2ph
        (threadRvsProxyRecv
          ((threadRvsProxySend nmsg).served later rvs_table)).rvs2ph
  | talker (config : Configuration) (nmsg : NidMsg) :
      ControlSent .gwt2ph (threadGwTalker config nmsg)
  | acknowledged (config : Configuration) (nmsg : NidMsg) :
      ControlSent .gwt2ph (threadRvs2gw config nmsg)
  | core {config : Configuration} {now : Timeval} {nmsg written : NidMsg}
      {rt : RoutingTable} {registry_table : HashTable ConnEntry} :
      (threadGwCoreListener config now nmsg rt registry_table).gwt2ph =
        some written →
      ControlSent .gwt2ph written

/-- The threads with their buffers, and the queues: `network` has what was sent
and not received yet.  `running` ends with an `exit` of the receiver. -/
structure Tunnel where
  phOutput : PhOutput
  ph2nr : List (List UInt8)
  nrOutput : NrOutput
  network : List (List UInt8)
  running : Bool
  nrInput : NrInput
  nr2ph : List (List UInt8)
  phBuf : Buffer maxBufLen

/-- `packet` and `control` are turns of `thread_ph_output`, `send`, `receive`
and `deliver` those of the other threads.  Tables which further threads use
come with the turn, as they are then. -/
inductive TunnelEvent where
  | packet (ip : TransportPacket) (nm : NidMapper)
  | control (message : ControlMessage) (nm : NidMapper)
  | updatePH (config : Configuration)
  | send (now : Timeval) (cm : ConnMapper) (queueTable : QueueTable)
  | receive (now : Timeval) (sender : NID32) (cm : ConnMapper)
  | deliver (nm : NidMapper)

namespace Tunnel

def phTurn (s : Tunnel) (source : PhSource) (datagram : List UInt8)
    (nm : NidMapper) : Tunnel :=
  let turn := threadPhOutput source datagram nm s.phOutput
  { s with
    phOutput := turn.1
    ph2nr := s.ph2nr ++
      (turn.2.map fun out => frame out.header out.payload).toList }

/-- A turn with the packet given to a raw socket, which takes it.  `nid` is the
NID of the receiver. -/
def step (nid : NID) (s : Tunnel) :
    TunnelEvent → Option (Tunnel × Option (RawSocket × List UInt8))
  | .packet ip nm => some (s.phTurn .nf2ph ip.bytes nm, none)
  | .control message nm =>
      some (s.phTurn message.source message.bytes nm, none)
  | .updatePH config =>
      some ({ s with phOutput := NodeIdentity.updatePH config s.phOutput }, none)
  | .send now cm queueTable =>
      match s.ph2nr with
      | datagram :: rest =>
          let turn := threadNrOutput now datagram
            { s.nrOutput with cm := cm, queueTable := queueTable }
          some ({ s with
            nrOutput := turn.state
            ph2nr := rest
            network := s.network ++ (turn.sent.map Prod.snd).toList }, none)
      | [] => none
  | .receive now sender cm =>
      match s.running, s.network with
      | true, datagram :: rest =>
          let turn := threadNrInput nid now (some (datagram, sender))
            s.nrInput cm
          some ({ s with
            network := rest
            nrInput := turn.state
            nr2ph := s.nr2ph ++ turn.nr2ph.toList }, none)
      | _, _ => none
  | .deliver nm =>
      match s.running, s.nr2ph with
      | true, datagram :: rest =>
          let turn := threadPhInput datagram true s.phBuf nm
          some ({ s with
            running := !turn.exits
            nr2ph := rest
            phBuf := turn.buf }, turn.raw)
      | _, _ => none

/-- What was read and has not come to its end, the oldest first. -/
def inFlight (s : Tunnel) : List (List UInt8) :=
  s.nr2ph ++ s.network ++ s.ph2nr

/-- Nothing was read yet.  The buffers may hold anything. -/
structure Idle (s : Tunnel) : Prop where
  empty : s.inFlight = []
  running : s.running = true

end Tunnel

def tunnelMachine (nid : NID) :
    Machine Tunnel TunnelEvent (Option (RawSocket × List UInt8)) :=
  ⟨Tunnel.step nid⟩

/-- The mapper has the receiver for the destination of a packet. -/
def TunnelEvent.MapsTo (nid : NID) : TunnelEvent → Prop
  | .packet ip nm =>
      ∃ nm_pt, getNMEntry32 ip.daddr nm = some nm_pt ∧ nm_pt.nid = nid
  | _ => True

/-- The packet read, with the socket of its protocol. -/
def TunnelEvent.read : TunnelEvent → List (RawSocket × List UInt8)
  | .packet ip _ => [(ip.socket, ip.bytes)]
  | _ => []

/-- A turn of a thread behind `thread_ph_output`. -/
def TunnelEvent.Passes : TunnelEvent → Prop
  | .send _ _ _ => True
  | .receive _ _ _ => True
  | .deliver _ => True
  | _ => False

def packetsRead (events : List TunnelEvent) : List (RawSocket × List UInt8) :=
  events.flatMap TunnelEvent.read

def packetsSent (outputs : List (Option (RawSocket × List UInt8))) :
    List (RawSocket × List UInt8) :=
  outputs.flatMap Option.toList

/-- The rendezvous server is asked for updates and locators only. -/
theorem threadControlRvs_co2rvs {now : Timeval} {datagram : List UInt8}
    {buf : NmsgBuffer} {cm : ConnMapper} {nmsg : NidMsg}
    (forwarded : (threadControlRvs now datagram buf cm).co2rvs = some nmsg) :
    nmsg.type = .rvsUpdate ∨ nmsg.type = .rvsGet := by
  simp only [threadControlRvs] at forwarded
  split at forwarded
  · cases forwarded
  · cases forwarded
  · next update =>
      cases forwarded
      exact .inl update
  · next get =>
      cases forwarded
      exact .inr get
  · cases forwarded

theorem ControlSent.channel {source : PhSource} {nmsg : NidMsg}
    (sent : ControlSent source nmsg) : source ≠ .nf2ph := by
  intro data
  subst data
  cases sent

theorem ControlSent.control {source : PhSource} {nmsg : NidMsg}
    (sent : ControlSent source nmsg) : nmsg.type ≠ .data := by
  intro data
  cases sent with
  | answer forwarded later rvs_table =>
      rcases threadControlRvs_co2rvs forwarded with update | get
      · simp [threadRvsProxyRecv, RvsMsg.served, threadRvsProxySend,
          update] at data
      · simp [threadRvsProxyRecv, RvsMsg.served, threadRvsProxySend,
          get] at data
  | core written =>
      simp only [threadGwCoreListener] at written
      split at written
      · cases written
      · cases written
        cases data
  | _ => cases data

/-- The messages of the threads are control messages. -/
def ControlSent.message {source : PhSource} {nmsg : NidMsg}
    (sent : ControlSent source nmsg) : ControlMessage :=
  { source := source
    bytes := nidMsgCodec.encode nmsg
    channel := sent.channel
    typed := (nmsg_typed nmsg).1
    control := by
      rw [(nmsg_typed nmsg).2]
      exact sent.control }

/-- The packet in a frame, for the socket of its protocol. -/
def carriedPacket (datagram : List UInt8) : List (RawSocket × List UInt8) :=
  let payload := datagram.drop nhLen
  if (nidHeaderCodec.decode datagram).type = .data then
    ((rawSocket (payload.getD protocolOffset 0)).map
      fun socket => (socket, payload)).toList
  else []

/-- A frame as the sender makes them: one with data is for the receiver and
carries a packet. -/
structure Tunnelled (nid : NID) (header : NidHeader) (payload : List UInt8) :
    Prop where
  fits : payload.length ≤ payloadLen
  own : header.type = .data → header.destNID = nid
  packet : header.type = .data → protocolOffset < payload.length ∧
    ∃ socket, rawSocket (payload.getD protocolOffset 0) = some socket

def OnTheWay (nid : NID) (datagram : List UInt8) : Prop :=
  ∃ header payload, datagram = frame header payload ∧
    Tunnelled nid header payload

theorem carriedPacket_frame (header : NidHeader) (payload : List UInt8) :
    carriedPacket (frame header payload) =
      if header.type = .data then
        ((rawSocket (payload.getD protocolOffset 0)).map
          fun socket => (socket, payload)).toList
      else [] := by
  have body : (frame header payload).drop nhLen = payload :=
    List.drop_left' (nidHeaderCodec.length_encode header)
  have read : nidHeaderCodec.decode (frame header payload) = header :=
    nidHeaderCodec.decode_append header payload
  rw [carriedPacket, read, body]

theorem Tunnelled.whole {nid : NID} {header : NidHeader}
    {payload : List UInt8} (tunnelled : Tunnelled nid header payload) :
    (frame header payload).take maxBufLen = frame header payload := by
  rw [frame_take]
  congr 1
  exact List.take_of_length_le tunnelled.fits

/-- What a turn does to the frames on their way, given the packet it read and
the packet it sent. -/
inductive Passage (nid : NID) : List (RawSocket × List UInt8) →
    Option (RawSocket × List UInt8) → List (List UInt8) →
    List (List UInt8) → Prop where
  | enter {datagram : List UInt8} {inFlight : List (List UInt8)} :
      OnTheWay nid datagram →
      Passage nid (carriedPacket datagram) none inFlight (inFlight ++ [datagram])
  | stay {inFlight : List (List UInt8)} : Passage nid [] none inFlight inFlight
  | drop {datagram : List UInt8} {before after : List (List UInt8)} :
      carriedPacket datagram = [] →
      Passage nid [] none (before ++ datagram :: after) (before ++ after)
  | leave {datagram : List UInt8} {inFlight : List (List UInt8)}
      {raw : Option (RawSocket × List UInt8)} :
      carriedPacket datagram = raw.toList →
      Passage nid [] raw (datagram :: inFlight) inFlight

namespace Passage

variable {nid : NID} {read : List (RawSocket × List UInt8)}
  {sent : Option (RawSocket × List UInt8)} {before after : List (List UInt8)}

theorem onTheWay (passage : Passage nid read sent before after)
    (frames : ∀ datagram ∈ before, OnTheWay nid datagram) :
    ∀ datagram ∈ after, OnTheWay nid datagram := by
  cases passage with
  | enter made =>
      intro datagram member
      rcases List.mem_append.mp member with old | new
      · exact frames datagram old
      · rwa [List.mem_singleton.mp new]
  | stay => exact frames
  | drop _ =>
      intro datagram member
      apply frames datagram
      rcases List.mem_append.mp member with front | back
      · exact List.mem_append_left _ front
      · exact List.mem_append_right _ (List.mem_cons_of_mem _ back)
  | leave _ =>
      intro datagram member
      exact frames datagram (List.mem_cons_of_mem _ member)

theorem balanced (passage : Passage nid read sent before after) :
    before.flatMap carriedPacket ++ read =
      sent.toList ++ after.flatMap carriedPacket := by
  cases passage with
  | enter _ => simp
  | stay => simp
  | drop nothing => simp [nothing]
  | leave packet => simp [packet]

end Passage

theorem threadPhOutput_packet {packet : TransportPacket} {nm : NidMapper}
    {nm_pt : NMEntry32} (mapped : getNMEntry32 packet.daddr nm = some nm_pt)
    (ph : PhOutput) :
    ∃ header, (threadPhOutput .nf2ph packet.bytes nm ph).2 =
        some ⟨header, packet.bytes⟩ ∧
      header.type = .data ∧ header.destNID = nm_pt.nid := by
  have room : packet.bytes.length ≤ payloadLen :=
    packet.fits.trans (by decide)
  have payload : (ph.read packet.bytes).pt.bytes.take
      (Buffer.received payloadLen packet.bytes) = packet.bytes :=
    (ph.pt.take_received packet.bytes).trans (List.take_of_length_le room)
  simp only [threadPhOutput, phOutputData, daddr_read, mapped, PhOutput.frame,
    payload]
  exact ⟨_, rfl, rfl, rfl⟩

theorem Tunnelled.ofPacket {nid : NID} {header : NidHeader}
    (packet : TransportPacket) (own : header.destNID = nid) :
    Tunnelled nid header packet.bytes := by
  have long : protocolOffset < packet.bytes.length :=
    Nat.lt_of_lt_of_le (by decide) packet.complete
  exact {
    fits := packet.fits.trans (by decide)
    own := fun _ => own
    packet := fun _ => ⟨long, packet.socket, packet.protocol⟩ }

theorem Tunnelled.ofControl {nid : NID} {header : NidHeader}
    (control : header.type ≠ .data) (payload : List UInt8) :
    Tunnelled nid header (payload.take payloadLen) :=
  { fits := List.length_take_le _ _
    own := fun data => (control data).elim
    packet := fun data => (control data).elim }

namespace Tunnel

variable {nid : NID} {s next : Tunnel}

theorem inFlight_phTurn {source : PhSource} {datagram : List UInt8}
    {nm : NidMapper} {header : NidHeader} {payload : List UInt8}
    (out : (threadPhOutput source datagram nm s.phOutput).2 =
      some ⟨header, payload⟩) :
    (s.phTurn source datagram nm).inFlight =
      s.inFlight ++ [frame header payload] := by
  simp only [inFlight, phTurn, out, Option.map_some, Option.toList_some,
    List.append_assoc]

theorem passage_packet {packet : TransportPacket} {nm : NidMapper}
    (mapped : ∃ nm_pt, getNMEntry32 packet.daddr nm = some nm_pt ∧
      nm_pt.nid = nid) :
    Passage nid [(packet.socket, packet.bytes)] none s.inFlight
      (s.phTurn .nf2ph packet.bytes nm).inFlight := by
  obtain ⟨nm_pt, known, own⟩ := mapped
  obtain ⟨header, out, data, dest⟩ := threadPhOutput_packet known s.phOutput
  have tunnelled : Tunnelled nid header packet.bytes :=
    .ofPacket packet (dest.trans own)
  have content : carriedPacket (frame header packet.bytes) =
      [(packet.socket, packet.bytes)] := by
    rw [carriedPacket_frame, if_pos data, packet.protocol]
    rfl
  rw [inFlight_phTurn out, ← content]
  exact .enter ⟨header, packet.bytes, rfl, tunnelled⟩

theorem passage_control (message : ControlMessage) (nm : NidMapper) :
    Passage nid [] none s.inFlight
      (s.phTurn message.source message.bytes nm).inFlight := by
  obtain ⟨header, type, out⟩ :=
    threadPhOutput_typed message.channel message.typed nm s.phOutput
  have control : header.type ≠ .data := by
    rw [type]
    exact message.control
  have content :
      carriedPacket (frame header (message.bytes.take payloadLen)) = [] := by
    rw [carriedPacket_frame, if_neg control]
  rw [inFlight_phTurn out, ← content]
  exact .enter ⟨header, _, rfl, .ofControl control message.bytes⟩

/-- `thread_nr_output` passes a frame on as it is. -/
theorem passage_send {now : Timeval} {cm : ConnMapper}
    {queueTable : QueueTable} {sent : Option (RawSocket × List UInt8)}
    (frames : ∀ datagram ∈ s.inFlight, OnTheWay nid datagram)
    (stepped : s.step nid (.send now cm queueTable) = some (next, sent)) :
    Passage nid [] sent s.inFlight next.inFlight ∧
      next.running = s.running := by
  rw [step] at stepped
  split at stepped
  · next datagram rest queued =>
      cases stepped
      have member : datagram ∈ s.inFlight := by
        rw [inFlight, queued]
        exact List.mem_append_right _ List.mem_cons_self
      obtain ⟨header, payload, rfl, tunnelled⟩ := frames datagram member
      have same : s.nr2ph ++ (s.network ++ [frame header payload]) ++ rest =
          s.inFlight := by
        rw [inFlight, queued]
        simp
      simp only [inFlight, threadNrOutput, NrOutput.packet_read,
        Option.map_some, Option.toList_some, tunnelled.whole] at same ⊢
      rw [same]
      exact ⟨.stay, trivial⟩
  · cases stepped

/-- `thread_nr_input` passes a frame for the node on as it is, and one for
another carries no packet. -/
theorem passage_receive {now : Timeval} {sender : NID32} {cm : ConnMapper}
    {sent : Option (RawSocket × List UInt8)}
    (frames : ∀ datagram ∈ s.inFlight, OnTheWay nid datagram)
    (stepped : s.step nid (.receive now sender cm) = some (next, sent)) :
    Passage nid [] sent s.inFlight next.inFlight ∧
      next.running = s.running := by
  rw [step] at stepped
  split at stepped
  · next datagram rest _ queued =>
      cases stepped
      have member : datagram ∈ s.inFlight := by
        rw [inFlight, queued]
        exact List.mem_append_left _
          (List.mem_append_right _ List.mem_cons_self)
      obtain ⟨header, payload, rfl, tunnelled⟩ := frames datagram member
      have whole : payload.take (maxBufLen - nhLen) = payload :=
        List.take_of_length_le tunnelled.fits
      simp only [inFlight, queued,
        (threadNrInput_frame nid now header payload sender s.nrInput cm).2,
        whole, and_true]
      by_cases own : header.destNID = nid
      · simp only [if_pos own, Option.toList_some, List.append_assoc,
          List.cons_append]
        exact .stay
      · have nothing : carriedPacket (frame header payload) = [] := by
          rw [carriedPacket_frame, if_neg fun data => own (tunnelled.own data)]
        simp only [if_neg own, Option.toList_none, List.append_nil,
          List.append_assoc, List.cons_append]
        exact .drop nothing
  · cases stepped

/-- `thread_ph_input` gives the packet to its socket. -/
theorem passage_deliver {nm : NidMapper}
    {sent : Option (RawSocket × List UInt8)}
    (frames : ∀ datagram ∈ s.inFlight, OnTheWay nid datagram)
    (stepped : s.step nid (.deliver nm) = some (next, sent)) :
    Passage nid [] sent s.inFlight next.inFlight ∧ next.running = true := by
  rw [step] at stepped
  split at stepped
  · next datagram rest _ queued =>
      cases stepped
      have member : datagram ∈ s.inFlight := by
        rw [inFlight, queued]
        exact List.mem_append_left _ List.mem_cons_self
      obtain ⟨header, payload, rfl, tunnelled⟩ := frames datagram member
      simp only [inFlight, queued, List.cons_append]
      by_cases data : header.type = .data
      · obtain ⟨long, socket, protocol⟩ := tunnelled.packet data
        obtain ⟨raw, exits⟩ :=
          threadPhInput_data data long protocol true s.phBuf nm
        refine ⟨.leave ?_, by rw [exits]; rfl⟩
        rw [raw, carriedPacket_frame, if_pos data, protocol,
          List.take_of_length_le tunnelled.fits, Option.map_some]
      · obtain ⟨raw, exits⟩ :=
          threadPhInput_control data payload true s.phBuf nm
        refine ⟨.leave ?_, by rw [exits]; rfl⟩
        rw [raw, carriedPacket_frame, if_neg data, Option.toList_none]
  · cases stepped

theorem step_passage {event : TunnelEvent}
    {sent : Option (RawSocket × List UInt8)} (running : s.running = true)
    (frames : ∀ datagram ∈ s.inFlight, OnTheWay nid datagram)
    (mapped : event.MapsTo nid)
    (stepped : s.step nid event = some (next, sent)) :
    Passage nid event.read sent s.inFlight next.inFlight ∧
      next.running = true := by
  cases event with
  | packet ip nm =>
      cases stepped
      exact ⟨passage_packet mapped, running⟩
  | control message nm =>
      cases stepped
      exact ⟨passage_control message nm, running⟩
  | updatePH config =>
      cases stepped
      exact ⟨.stay, running⟩
  | send now cm queueTable =>
      obtain ⟨passage, same⟩ := passage_send frames stepped
      exact ⟨passage, same.trans running⟩
  | receive now sender cm =>
      obtain ⟨passage, same⟩ := passage_receive frames stepped
      exact ⟨passage, same.trans running⟩
  | deliver nm => exact passage_deliver frames stepped

end Tunnel

/-- The receiver runs, and what is on its way was made by the sender. -/
structure TunnelInvariant (nid : NID) (s : Tunnel) : Prop where
  running : s.running = true
  frames : ∀ datagram ∈ s.inFlight, OnTheWay nid datagram

namespace TunnelInvariant

variable {nid : NID} {s next : Tunnel} {event : TunnelEvent}
  {sent : Option (RawSocket × List UInt8)}

theorem ofIdle (idle : s.Idle) : TunnelInvariant nid s := by
  refine ⟨idle.running, ?_⟩
  rw [idle.empty]
  intro datagram member
  cases member

theorem step (invariant : TunnelInvariant nid s) (mapped : event.MapsTo nid)
    (stepped : (tunnelMachine nid).step s event = some (next, sent)) :
    TunnelInvariant nid next := by
  obtain ⟨passage, running⟩ :=
    Tunnel.step_passage invariant.running invariant.frames mapped stepped
  exact ⟨running, passage.onTheWay invariant.frames⟩

theorem balanced (invariant : TunnelInvariant nid s)
    (mapped : event.MapsTo nid)
    (stepped : (tunnelMachine nid).step s event = some (next, sent)) :
    s.inFlight.flatMap carriedPacket ++ event.read =
      sent.toList ++ next.inFlight.flatMap carriedPacket :=
  (Tunnel.step_passage invariant.running invariant.frames mapped
    stepped).1.balanced

end TunnelInvariant

/-- The turns which the frames on their way still need. -/
def Tunnel.distance (s : Tunnel) : Nat :=
  3 * s.ph2nr.length + 2 * s.network.length + s.nr2ph.length

theorem TunnelEvent.Passes.mapsTo {event : TunnelEvent} (passes : event.Passes)
    (nid : NID) : event.MapsTo nid := by
  cases event with
  | packet => exact passes.elim
  | _ => trivial

theorem TunnelEvent.Passes.read_eq_nil {event : TunnelEvent}
    (passes : event.Passes) : event.read = [] := by
  cases event with
  | packet => exact passes.elim
  | _ => rfl

theorem Tunnel.step_nearer {nid : NID} {s next : Tunnel} {event : TunnelEvent}
    {sent : Option (RawSocket × List UInt8)} (passes : event.Passes)
    (stepped : s.step nid event = some (next, sent)) :
    next.distance < s.distance := by
  cases event with
  | packet | control | updatePH => exact passes.elim
  | send now cm queueTable =>
      rw [step] at stepped
      split at stepped
      · next datagram rest queued =>
          cases stepped
          simp only [distance, queued, threadNrOutput, Option.map_some,
            Option.toList_some, List.length_append, List.length_cons,
            List.length_nil]
          omega
      · cases stepped
  | receive now sender cm =>
      rw [step] at stepped
      split at stepped
      · next datagram rest _ queued =>
          cases stepped
          simp only [distance, queued, List.length_cons, List.length_append]
          cases (threadNrInput nid now (some (datagram, sender)) s.nrInput
              cm).nr2ph with
          | none =>
              rw [Option.toList_none, List.length_nil]
              omega
          | some handed =>
              rw [Option.toList_some, List.length_singleton]
              omega
      · cases stepped
  | deliver nm =>
      rw [step] at stepped
      split at stepped
      · next datagram rest _ queued =>
          cases stepped
          simp only [distance, queued, List.length_cons]
          omega
      · cases stepped

theorem Tunnel.exists_turn {s : Tunnel} (nid : NID) (running : s.running = true)
    (pending : s.inFlight ≠ []) :
    ∃ event result, event.Passes ∧ s.step nid event = some result := by
  cases sending : s.ph2nr with
  | cons datagram rest =>
      refine ⟨.send (.ofSec 0) s.nrOutput.cm s.nrOutput.queueTable, ?_⟩
      simp [step, sending, TunnelEvent.Passes]
  | nil =>
      cases travelling : s.network with
      | cons datagram rest =>
          refine ⟨.receive (.ofSec 0) NID32.zero s.nrOutput.cm, ?_⟩
          simp [step, running, travelling, TunnelEvent.Passes]
      | nil =>
          cases arrived : s.nr2ph with
          | cons datagram rest =>
              refine ⟨.deliver (initNidMapper true), ?_⟩
              simp [step, running, arrived, TunnelEvent.Passes]
          | nil =>
              rw [inFlight, sending, travelling, arrived] at pending
              exact (pending rfl).elim

theorem TunnelInvariant.drains {nid : NID} {s : Tunnel}
    (invariant : TunnelInvariant nid s) :
    ∃ turns outputs final, (∀ turn ∈ turns, turn.Passes) ∧
      (tunnelMachine nid).Run s turns outputs final ∧ final.inFlight = [] := by
  have progress : ∀ state, TunnelInvariant nid state → ¬ state.inFlight = [] →
      ∃ event next sent, event.Passes ∧
        (tunnelMachine nid).step state event = some (next, sent) ∧
        TunnelInvariant nid next ∧ next.distance < state.distance := by
    intro state holds pending
    obtain ⟨event, ⟨next, sent⟩, passes, stepped⟩ :=
      Tunnel.exists_turn nid holds.running pending
    exact ⟨event, next, sent, passes, stepped,
      holds.step (passes.mapsTo nid) stepped, Tunnel.step_nearer passes stepped⟩
  exact Machine.exists_run_until progress invariant

/-- The raw sockets get the packets read, whole and in their order, and no
others: all of them when nothing is on its way any more, which the threads
bring about by going on. -/
theorem tunnel_transparent {nid : NID} {start final : Tunnel}
    {events : List TunnelEvent}
    {outputs : List (Option (RawSocket × List UInt8))}
    (idle : start.Idle) (mapped : ∀ event ∈ events, event.MapsTo nid)
    (run : (tunnelMachine nid).Run start events outputs final) :
    packetsSent outputs <+: packetsRead events ∧
      (final.inFlight = [] → packetsSent outputs = packetsRead events) ∧
      ∃ turns rest drained, (∀ turn ∈ turns, turn.Passes) ∧
        (tunnelMachine nid).Run final turns rest drained ∧
        packetsSent (outputs ++ rest) = packetsRead events := by
  have initial : TunnelInvariant nid start := .ofIdle idle
  have balance : packetsRead events =
      packetsSent outputs ++ final.inFlight.flatMap carriedPacket := by
    have kept := run.conserved initial TunnelInvariant.step
      TunnelInvariant.balanced mapped
    rwa [idle.empty, List.flatMap_nil, List.nil_append] at kept
  have reached := run.invariant_among initial TunnelInvariant.step mapped
  refine ⟨⟨_, balance.symm⟩, ?_, ?_⟩
  · intro empty
    rw [balance, empty, List.flatMap_nil, List.append_nil]
  · obtain ⟨turns, rest, drained, passes, further, empty⟩ := reached.drains
    refine ⟨turns, rest, drained, passes, further, ?_⟩
    have nothingRead : turns.flatMap TunnelEvent.read = [] := by
      apply List.flatMap_eq_nil_iff.mpr
      intro turn member
      exact (passes turn member).read_eq_nil
    have kept := further.conserved reached TunnelInvariant.step
      TunnelInvariant.balanced
      fun turn member => (passes turn member).mapsTo nid
    rw [nothingRead, empty, List.flatMap_nil, List.append_nil,
      List.append_nil] at kept
    rw [balance, kept, packetsSent, List.flatMap_append]
    rfl

section Example

private def tunnelEnd : NID := NID.ofNat (0x3ffe * 2 ^ 112 + 5)

/-- A TCP packet of twenty bytes to `1.0.0.5`. -/
private def tunnelPacket : TransportPacket :=
  { bytes := [0x45, 0, 0, 20, 0, 0, 0, 0, 64, 6, 0, 0, 1, 0, 0, 2, 1, 0, 0, 5]
    complete := by decide
    fits := by decide
    socket := .tcp
    protocol := rfl }

private def tunnelMessage : ControlMessage :=
  (ControlSent.redirect (.sample .node (NID.ofNat 7)) tunnelEnd).message

private def tunnelStart : Tunnel :=
  { phOutput := initPhOutput (.sample .node (NID.ofNat 7))
    ph2nr := []
    nrOutput :=
      mainNrOutput (.sample .node (NID.ofNat 7)) (Buffer.zero maxBufLen)
    network := []
    running := true
    nrInput := ⟨Buffer.zero maxBufLen, NID32.zero⟩
    nr2ph := []
    phBuf := Buffer.zero maxBufLen }

private def tunnelEvents : List TunnelEvent :=
  let nm := initNidMapper false
  let cm := tunnelStart.nrOutput.cm
  let send : TunnelEvent := .send (.ofSec 100) cm initRvsQueueTable
  let receive : TunnelEvent := .receive (.ofSec 100) (NID32.ofNat 10) cm
  [.packet tunnelPacket nm, send, .control tunnelMessage nm, receive,
    .packet tunnelPacket nm, .deliver nm, send, send, receive, receive,
    .deliver nm, .deliver nm]

/-- Two packets with a control message between them. -/
theorem tunnel_transparent_mixed : ∃ outputs final,
    (tunnelMachine tunnelEnd).Run tunnelStart tunnelEvents outputs final ∧
      packetsSent outputs = packetsRead tunnelEvents := by
  have handled : ((tunnelMachine tunnelEnd).exec tunnelStart tunnelEvents).any
      (fun result => decide (result.1.inFlight = [])) = true := by
    decide +kernel
  obtain ⟨outputs, final, run, empty⟩ := Machine.exists_run_of_exec handled
  have known : getNMEntry32 tunnelPacket.daddr (initNidMapper false) =
      some ⟨tunnelEnd, NID.ofNat (0x3ffe * 2 ^ 112 + 4)⟩ := by decide +kernel
  have mapped : ∀ event ∈ tunnelEvents, event.MapsTo tunnelEnd := by
    simp [tunnelEvents, TunnelEvent.MapsTo, known]
  exact ⟨outputs, final, run,
    (tunnel_transparent ⟨rfl, rfl⟩ mapped run).2.1 (of_decide_eq_true empty)⟩

end Example

end NodeIdentity
