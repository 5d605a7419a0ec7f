import NodeIdentity.Library.History
import NodeIdentity.Library.Machine
import NodeIdentity.PacketHandler
import NodeIdentity.Gwc
import NodeIdentity.Rvsc

/-!
# Headers of outgoing frames

`thread_ph_output` keeps one header for all frames, and a branch leaves the
fields it does not set as an earlier frame left them.  Which frames were sent
before therefore decides what those fields say.  The frames sent are recorded
here by what set their header, and the header is computed from that record.
-/

namespace NodeIdentity

open NodeIdentity.Library

/-- A packet long enough to have a destination address. -/
structure IpPacket where
  bytes : List UInt8
  complete : daddrOffset + 4 ≤ bytes.length

def IpPacket.daddr (packet : IpPacket) : NID32 :=
  nid32Codec.decode (packet.bytes.drop daddrOffset)

/-- What the thread reads, and what other threads do to the variable and the
table it uses.  Control messages are full records. -/
inductive PhEvent where
  | packet (packet : IpPacket)
  | rvs (nmsg : NidMsg)
  | mobility (nmsg : NidMsg)
  | talker (nmsg : NidMsg)
  | updatePH (config : Configuration)
  | newNM (nid nidgw : NID)
  | newNM32 (nid32 : NID32) (nid nidgw : NID)
  | updateNM (config : Configuration)

structure PhSender where
  ph : PhOutput
  nm : NidMapper

/-- What set the header of a frame: the gateway variable, for a packet, or a
control message, with or without the gateways of the message. -/
inductive Emission where
  | data (nidcore : NID)
  | control (nmsg : NidMsg)
  | talker (nmsg : NidMsg)

structure Sent where
  emission : Emission
  frame : PhOutput.Frame

namespace PhSender

/-- A turn of the thread on a datagram of `source`. -/
def turn (s : PhSender) (source : PhSource) (datagram : List UInt8)
    (emission : Emission) : PhSender × Option Sent :=
  let turn := threadPhOutput source datagram s.nm s.ph
  ({ s with ph := turn.1 }, turn.2.map fun frame => ⟨emission, frame⟩)

def apply (s : PhSender) : PhEvent → PhSender × Option Sent
  | .packet packet => s.turn .nf2ph packet.bytes (.data s.ph.nidcore)
  | .rvs nmsg => s.turn .rvs2ph (nidMsgCodec.encode nmsg) (.control nmsg)
  | .mobility nmsg => s.turn .mo2ph (nidMsgCodec.encode nmsg) (.control nmsg)
  | .talker nmsg => s.turn .gwt2ph (nidMsgCodec.encode nmsg) (.talker nmsg)
  | .updatePH config => ({ s with ph := NodeIdentity.updatePH config s.ph }, none)
  | .newNM nid nidgw => ({ s with nm := newNMEntry nid nidgw s.nm }, none)
  | .newNM32 nid32 nid nidgw =>
      ({ s with nm := newNMEntry32 nid32 nid nidgw s.nm }, none)
  | .updateNM config => ({ s with nm := NodeIdentity.updateNM config s.nm }, none)

end PhSender

def phMachine : Machine PhSender PhEvent (Option Sent) :=
  Machine.total PhSender.apply

namespace Emission

/-- The source which the emission leaves in the header, if it sets it. -/
def source : Emission → Option NID
  | data _ => none
  | control nmsg => some nmsg.srcNID
  | talker nmsg => some nmsg.srcNID

/-- The source gateway which the emission leaves in the header. -/
def gateway : Emission → Option NID
  | data nidcore => some nidcore
  | control _ => none
  | talker nmsg => some nmsg.srcNIDgw

/-- The last value which emissions have given to a field. -/
def last (field : Emission → Option NID) (initial : NID)
    (log : List Emission) : NID :=
  (lastOf field log).getD initial

theorem last_snoc (field : Emission → Option NID) (initial : NID)
    (log : List Emission) (emission : Emission) :
    last field initial (log ++ [emission]) =
      (field emission).getD (last field initial log) := by
  rw [last, lastOf_snoc]
  cases field emission with
  | none => rfl
  | some nid => rfl

end Emission

def emissions (outputs : List (Option Sent)) : List Emission :=
  outputs.filterMap fun output => output.map Sent.emission

/-- The source and the source gateway of the next header, if nobody sets them. -/
def leftSource (own : NID) (log : List Emission) : NID :=
  Emission.last Emission.source own log

def leftGateway (log : List Emission) : NID :=
  Emission.last Emission.gateway NID.zero log

/-- The header after an emission, up to the fields for the destination. -/
structure HeaderLeft (own : NID) (log : List Emission) (nh : NidHeader) :
    Prop where
  source : nh.srcNID = leftSource own log
  gateway : nh.srcNIDgw = leftGateway log

theorem daddr_read (packet : IpPacket) (ph : PhOutput) :
    (ph.read packet.bytes).daddr = packet.daddr :=
  ph.pt.decode_drop_receive (FixedCodec.bytes_prefixed 4) (by decide)
    packet.complete

theorem PhSender.apply_packet (s : PhSender) (packet : IpPacket) :
    (∃ entry, getNMEntry32 packet.daddr s.nm = some entry ∧
      ∃ sent, (s.apply (.packet packet)).2 = some sent ∧
        sent.emission = .data s.ph.nidcore ∧
        sent.frame.header =
          { type := .data
            srcNID := s.ph.nh.srcNID
            destNID := entry.nid
            srcNIDgw := s.ph.nidcore
            destNIDgw := entry.nidgw } ∧
        (s.apply (.packet packet)).1.ph.nh = sent.frame.header) ∨
    (getNMEntry32 packet.daddr s.nm = none ∧
      (s.apply (.packet packet)).2 = none ∧
      (s.apply (.packet packet)).1.ph.nh = s.ph.nh) := by
  simp only [PhSender.apply, PhSender.turn, threadPhOutput, phOutputData,
    daddr_read]
  cases known : getNMEntry32 packet.daddr s.nm with
  | some entry => exact .inl ⟨entry, rfl, _, rfl, rfl, rfl, rfl⟩
  | none => exact .inr ⟨rfl, rfl, rfl⟩

theorem PhSender.turn_control {s : PhSender} {source : PhSource}
    {nmsg : NidMsg}
    (branch : threadPhOutput source (nidMsgCodec.encode nmsg) s.nm s.ph =
      phOutputControl (nidMsgCodec.encode nmsg) s.ph) :
    ∃ sent, (s.turn source (nidMsgCodec.encode nmsg) (.control nmsg)).2 =
        some sent ∧ sent.emission = .control nmsg ∧
      sent.frame.header =
        { s.ph.nh with
          type := nmsg.type
          srcNID := nmsg.srcNID
          destNID := nmsg.destNID } ∧
      (s.turn source (nidMsgCodec.encode nmsg) (.control nmsg)).1.ph.nh =
        sent.frame.header := by
  simp only [turn, branch, phOutputControl, nmsg_read_full, Option.map_some]
  exact ⟨_, rfl, rfl, rfl, rfl⟩

theorem PhSender.turn_talker (s : PhSender) (nmsg : NidMsg) :
    ∃ sent, (s.apply (.talker nmsg)).2 = some sent ∧
      sent.emission = .talker nmsg ∧
      sent.frame.header =
        { type := nmsg.type
          srcNID := nmsg.srcNID
          destNID := nmsg.destNID
          srcNIDgw := nmsg.srcNIDgw
          destNIDgw := nmsg.destNIDgw } ∧
      (s.apply (.talker nmsg)).1.ph.nh = sent.frame.header := by
  simp only [apply, turn, threadPhOutput, phOutputTalker, nmsg_read_full,
    Option.map_some]
  exact ⟨_, rfl, rfl, rfl, rfl⟩

/-- A frame takes what its emission sets and keeps the rest of the header; the
header then stays until the next frame. -/
inductive HeaderStep (before after : NidHeader) : Option Sent → Prop where
  | silent : after = before → HeaderStep before after none
  | sent {sent : Sent} :
      after = sent.frame.header →
      sent.frame.header.srcNID = sent.emission.source.getD before.srcNID →
      sent.frame.header.srcNIDgw =
        sent.emission.gateway.getD before.srcNIDgw →
      HeaderStep before after (some sent)

theorem HeaderStep.ofHeader {before after header : NidHeader} {sent : Sent}
    {emission : Emission} (left : after = sent.frame.header)
    (emitted : sent.emission = emission) (written : sent.frame.header = header)
    (source : header.srcNID = emission.source.getD before.srcNID)
    (gateway : header.srcNIDgw = emission.gateway.getD before.srcNIDgw) :
    HeaderStep before after (some sent) := by
  subst emitted written
  exact .sent left source gateway

theorem PhSender.apply_nh (s : PhSender) (event : PhEvent) :
    HeaderStep s.ph.nh (s.apply event).1.ph.nh (s.apply event).2 := by
  cases event with
  | packet packet =>
      rcases s.apply_packet packet with forwarded | dropped
      · obtain ⟨entry, _, sent, output, emission, header, after⟩ := forwarded
        rw [output]
        exact .ofHeader after emission header rfl rfl
      · obtain ⟨_, output, after⟩ := dropped
        rw [output]
        exact .silent after
  | rvs nmsg =>
      obtain ⟨sent, output, emission, header, after⟩ :=
        turn_control (rfl : threadPhOutput .rvs2ph _ s.nm s.ph =
          phOutputControl (nidMsgCodec.encode nmsg) s.ph)
      rw [PhSender.apply, output]
      exact .ofHeader after emission header rfl rfl
  | mobility nmsg =>
      obtain ⟨sent, output, emission, header, after⟩ :=
        turn_control (rfl : threadPhOutput .mo2ph _ s.nm s.ph =
          phOutputControl (nidMsgCodec.encode nmsg) s.ph)
      rw [PhSender.apply, output]
      exact .ofHeader after emission header rfl rfl
  | talker nmsg =>
      obtain ⟨sent, output, emission, header, after⟩ := s.turn_talker nmsg
      rw [output]
      exact .ofHeader after emission header rfl rfl
  | updatePH => exact .silent rfl
  | newNM => exact .silent rfl
  | newNM32 => exact .silent rfl
  | updateNM => exact .silent rfl

theorem HeaderLeft.apply {own : NID} {log : List Emission} {s : PhSender}
    (left : HeaderLeft own log s.ph.nh) (event : PhEvent) :
    HeaderLeft own (log ++ emissions [(s.apply event).2])
      (s.apply event).1.ph.nh := by
  have step := s.apply_nh event
  revert step
  generalize (s.apply event).1.ph.nh = after
  generalize (s.apply event).2 = output
  intro step
  cases step with
  | silent same =>
      rw [same]
      simpa [emissions] using left
  | @sent sent same source gateway =>
      have log_eq : emissions [some sent] = [sent.emission] := rfl
      rw [log_eq, same]
      refine ⟨?_, ?_⟩
      · rw [source, left.source, leftSource, leftSource, Emission.last_snoc]
      · rw [gateway, left.gateway, leftGateway, leftGateway,
          Emission.last_snoc]

theorem headerLeft_of_run {config : Configuration} {nm : NidMapper}
    {events : List PhEvent} {outputs : List (Option Sent)} {s : PhSender}
    (run : phMachine.Run ⟨initPhOutput config, nm⟩ events outputs s) :
    HeaderLeft config.nid (emissions outputs) s.ph.nh := by
  induction run with
  | nil => exact ⟨rfl, rfl⟩
  | snoc _ last ih =>
      obtain ⟨rfl, rfl⟩ := Machine.total_step_iff.mp last
      rw [emissions, List.filterMap_append]
      exact ih.apply _

/-- The header of a data frame: own identity, own gateway, and what the mapper
holds for the address. -/
def OwnIdentity (config : Configuration) (s : PhSender) (packet : IpPacket)
    (header : NidHeader) : Prop :=
  header.type = .data ∧ header.srcNID = config.nid ∧
    header.srcNIDgw = s.ph.nidcore ∧
    ∃ entry, getNMEntry32 packet.daddr s.nm = some entry ∧
      header.destNID = entry.nid ∧ header.destNIDgw = entry.nidgw

/-- Every frame for a packet carries the own identity, whatever was handled
before it. -/
def DataFramesOwn (config : Configuration) : Prop :=
  ∀ (nm : NidMapper) (events : List PhEvent) (outputs : List (Option Sent))
    (s next : PhSender) (packet : IpPacket) (sent : Sent),
    phMachine.Run ⟨initPhOutput config, nm⟩ events outputs s →
    phMachine.step s (.packet packet) = some (next, some sent) →
    OwnIdentity config s packet sent.frame.header

/-- A data frame carries the own identity exactly if the last control message
before it did. -/
theorem ownIdentity_iff_leftSource {config : Configuration} {nm : NidMapper}
    {events : List PhEvent} {outputs : List (Option Sent)}
    {s next : PhSender} {packet : IpPacket} {sent : Sent}
    (run : phMachine.Run ⟨initPhOutput config, nm⟩ events outputs s)
    (emitted : phMachine.step s (.packet packet) = some (next, some sent)) :
    OwnIdentity config s packet sent.frame.header ↔
      leftSource config.nid (emissions outputs) = config.nid := by
  have left := headerLeft_of_run run
  obtain ⟨_, output⟩ := Machine.total_step_iff.mp emitted
  rcases s.apply_packet packet with forwarded | dropped
  · obtain ⟨entry, known, other, same, _, header, _⟩ := forwarded
    cases output.trans same
    rw [← left.source, OwnIdentity, header]
    constructor
    · intro identity
      exact identity.2.1
    · intro source
      exact ⟨rfl, source, rfl, entry, known, rfl, rfl⟩
  · cases output.trans dropped.2.1

section Example

private def gatewayNode : Configuration :=
  .sample .gateway (NID.ofNat 1)

/-- The registration of node 5, as the rendezvous server passes it on. -/
private def relayed : NidMsg :=
  threadGwTalker gatewayNode
    (threadRvs2gw { gatewayNode with type := .rvs, nid := NID.ofNat 3 }
      { type := .rvsAck
        srcNID := NID.ofNat 3
        destNID := NID.ofNat 5
        srcNIDgw := NID.ofNat 2
        destNIDgw := NID.zero
        nid := NID.ofNat 5
        ip := NID32.ofNat 50 })

private def toNodeTwo : IpPacket :=
  { bytes := List.replicate daddrOffset 0 ++ [1, 0, 0, 2]
    complete := by decide }

private def fresh : PhSender := ⟨initPhOutput gatewayNode, initNidMapper false⟩

private theorem run_one (s : PhSender) (event : PhEvent) :
    phMachine.Run s [event] [(s.apply event).2] (s.apply event).1 :=
  Machine.Run.nil.snoc (Machine.total_step_iff.mpr ⟨rfl, rfl⟩)

/-- After relaying a registration a gateway sends its packets in the name of
the rendezvous server. -/
theorem not_dataFramesOwn : ¬ DataFramesOwn gatewayNode := by
  intro own
  have stale : (((fresh.apply (.talker relayed)).1.apply
      (.packet toNodeTwo)).2).any
        (fun sent => sent.frame.header.srcNID ≠ gatewayNode.nid) = true := by
    decide +kernel
  obtain ⟨sent, emitted, foreign⟩ := (Option.any_eq_true _ _).mp stale
  have identity := own _ _ _ _ _ toNodeTwo sent
    (run_one fresh (.talker relayed))
    (Machine.total_step_iff.mpr ⟨rfl, emitted.symm⟩)
  exact (of_decide_eq_true foreign) identity.2.1

/-- Its own update of the rendezvous server does no harm. -/
theorem ownIdentity_after_update :
    ((((fresh.apply (.rvs (threadRvsUpdate gatewayNode))).1.apply
      (.packet toNodeTwo)).2).any
        (fun sent => sent.frame.header.srcNID = gatewayNode.nid)) = true := by
  have sends : ((fresh.apply (.rvs (threadRvsUpdate gatewayNode))).1.apply
      (.packet toNodeTwo)).2.isSome = true := by decide +kernel
  obtain ⟨sent, emitted⟩ := Option.isSome_iff_exists.mp sends
  have identity := (ownIdentity_iff_leftSource
    (run_one fresh (.rvs (threadRvsUpdate gatewayNode)))
    (Machine.total_step_iff.mpr ⟨rfl, emitted.symm⟩)).mpr (by decide +kernel)
  rw [emitted]
  exact decide_eq_true identity.2.1

end Example

end NodeIdentity
