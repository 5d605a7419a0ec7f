import NodeIdentity.Library.ByteBuffer
import NodeIdentity.ConnectionMapper
import NodeIdentity.RoutingTable
import NodeIdentity.Dhtc

/-!
# NID routing threads

One turn of each thread of `nid_routing.c`, on the datagram it reads.  The
output threads of a gateway and of a core gateway read two channels: packets
of the node itself come from the Packet Handler, packets being routed come
from the input thread.  A turn does not interleave with other threads.
-/

namespace NodeIdentity

open NodeIdentity.Library

/-- `MAXBUFLEN`. -/
def maxBufLen : Nat := 1500

/-- A buffer which is too short cuts the payload only. -/
theorem frame_take (header : NidHeader) (payload : List UInt8) :
    (frame header payload).take maxBufLen =
      frame header (payload.take (maxBufLen - nhLen)) := by
  have width : (nidHeaderCodec.encode header).length = nhLen :=
    nidHeaderCodec.length_encode header
  have whole : (nidHeaderCodec.encode header).take maxBufLen =
      nidHeaderCodec.encode header :=
    List.take_of_length_le (by rw [width]; decide)
  rw [frame, List.take_append, whole, width, frame]

/-- The buffer of an output thread and the tables it reaches. -/
structure NrOutput where
  buf : Buffer maxBufLen
  cm : ConnMapper
  queueTable : QueueTable
  rt : RoutingTable
  registry : HashTable ConnEntry
  dht : DhtMapping

/-- What a turn leaves and emits: `request` goes to `sp_cm2rvs`, `dhtRequest`
to `sp_dht`, and `sent` is the argument of `sendto`. -/
structure NrTurn where
  state : NrOutput
  request : Option NID
  dhtRequest : Option NID
  sent : Option (NID32 × List UInt8)

inductive NrSource where
  | ph2nr
  | nr
  deriving DecidableEq

namespace NrOutput

def read (s : NrOutput) (datagram : List UInt8) : NrOutput :=
  { s with buf := s.buf.receive datagram }

def header (s : NrOutput) : NidHeader := nidHeaderCodec.decode s.buf.bytes

/-- The first `recv_bytes` bytes of the buffer. -/
def packet (s : NrOutput) (datagram : List UInt8) : List UInt8 :=
  s.buf.bytes.take (Buffer.received maxBufLen datagram)

theorem header_read_frame (s : NrOutput) (header : NidHeader)
    (payload : List UInt8) :
    (s.read (frame header payload)).header = header :=
  Buffer.decode_receive nidHeaderCodec (by decide) s.buf header payload

@[simp] theorem read_cm (s : NrOutput) (datagram : List UInt8) :
    (s.read datagram).cm = s.cm :=
  rfl

@[simp] theorem read_queueTable (s : NrOutput) (datagram : List UInt8) :
    (s.read datagram).queueTable = s.queueTable :=
  rfl

theorem packet_read (s : NrOutput) (datagram : List UInt8) :
    (s.read datagram).packet datagram = datagram.take maxBufLen :=
  Buffer.take_received s.buf datagram

end NrOutput

def threadNrOutput (now : Timeval) (datagram : List UInt8) (s : NrOutput) :
    NrTurn :=
  let s := s.read datagram
  let answer := getCMEntry s.header.destNID now s.cm s.queueTable
  { state := { s with cm := answer.cm, queueTable := answer.queueTable }
    request := answer.request
    dhtRequest := none
    sent := some (answer.dst, s.packet datagram) }

def threadNrOutputGw (source : NrSource) (now : Timeval)
    (datagram : List UInt8) (s : NrOutput) : NrTurn :=
  let s := s.read datagram
  let header := s.header
  let packet := s.packet datagram
  match source with
  | .ph2nr =>
      let answer := getCMEntry header.destNID now s.cm s.queueTable
      let s := { s with cm := answer.cm, queueTable := answer.queueTable }
      if answer.found then
        ⟨s, answer.request, none, some (answer.dst, packet)⟩
      else
        let route := getRTEntry header.destNID now s.rt
        ⟨{ s with rt := route.rt }, answer.request, none,
          some (route.dst, packet)⟩
  | .nr =>
      let route := getRTEntry header.destNID now s.rt
      ⟨{ s with rt := route.rt }, none, none, some (route.dst, packet)⟩

/-- The nested lookups of `thread_nr_output_core`, the same in both branches:
routing table, registry, then the DHT table at the gateway of the destination.
The packet is dropped when all of them fail. -/
def routeCore (request : Option NID) (now : Timeval) (header : NidHeader)
    (packet : List UInt8) (s : NrOutput) : NrTurn :=
  let route := getRTEntry header.destNID now s.rt
  let s := { s with rt := route.rt }
  if route.found then ⟨s, request, none, some (route.dst, packet)⟩
  else
    let (registered, home) := getRegistry header.destNID s.registry
    if registered then ⟨s, request, none, some (home, packet)⟩
    else
      let remote := getDHTEntry header.destNIDgw now s.dht
      ⟨{ s with dht := remote.dht }, request, remote.request,
        remote.dst.map fun ip => (ip, packet)⟩

def threadNrOutputCore (source : NrSource) (now : Timeval)
    (datagram : List UInt8) (s : NrOutput) : NrTurn :=
  let s := s.read datagram
  let header := s.header
  let packet := s.packet datagram
  match source with
  | .ph2nr =>
      let answer := getCMEntry header.destNID now s.cm s.queueTable
      let s := { s with cm := answer.cm, queueTable := answer.queueTable }
      if answer.found then
        ⟨s, answer.request, none, some (answer.dst, packet)⟩
      else routeCore answer.request now header packet s
  | .nr => routeCore none now header packet s

/-- The buffer of an input thread and the address `recvfrom` stored last. -/
structure NrInput where
  buf : Buffer maxBufLen
  recvAddr : NID32

structure NrInputTurn where
  state : NrInput
  cm : ConnMapper
  nr2ph : Option (List UInt8)
  nr : Option (List UInt8)

namespace NrInput

def header (s : NrInput) : NidHeader := nidHeaderCodec.decode s.buf.bytes

/-- `none` is a failed `recvfrom`: the thread reports it and carries on with
the old buffer and a count of -1, which every `write` refuses. -/
def recvfrom (s : NrInput) :
    Option (List UInt8 × NID32) → NrInput × Option (List UInt8)
  | some (datagram, sender) =>
      let buf := s.buf.receive datagram
      (⟨buf, sender⟩,
        some (buf.bytes.take (Buffer.received maxBufLen datagram)))
  | none => (s, none)

end NrInput

def threadNrInput (nid : NID) (now : Timeval)
    (arrival : Option (List UInt8 × NID32)) (s : NrInput) (cm : ConnMapper) :
    NrInputTurn :=
  let (s, packet) := s.recvfrom arrival
  if s.header.destNID = nid then
    ⟨s, newCMEntry s.header.srcNID s.recvAddr now cm, packet, none⟩
  else ⟨s, cm, none, none⟩

def threadNrInputGw (nid : NID) (now : Timeval)
    (arrival : Option (List UInt8 × NID32)) (s : NrInput) (cm : ConnMapper) :
    NrInputTurn :=
  let (s, packet) := s.recvfrom arrival
  if s.header.destNID = nid then
    ⟨s, newCMEntry s.header.srcNID s.recvAddr now cm, packet, none⟩
  else ⟨s, cm, none, packet⟩

theorem threadNrInput_frame (nid : NID) (now : Timeval) (header : NidHeader)
    (payload : List UInt8) (sender : NID32) (s : NrInput) (cm : ConnMapper) :
    (threadNrInput nid now (some (frame header payload, sender)) s cm).cm =
        (if header.destNID = nid then newCMEntry header.srcNID sender now cm
        else cm) ∧
      (threadNrInput nid now (some (frame header payload, sender)) s cm).nr2ph =
        if header.destNID = nid then
          some (frame header (payload.take (maxBufLen - nhLen)))
        else none := by
  have read : nidHeaderCodec.decode
      (s.buf.receive (frame header payload)).bytes = header :=
    s.buf.decode_receive nidHeaderCodec (by decide) header payload
  simp only [threadNrInput, NrInput.recvfrom, NrInput.header, read,
    Buffer.take_received, frame_take]
  by_cases own : header.destNID = nid
  · simp only [if_pos own, and_self]
  · simp only [if_neg own, and_self]

end NodeIdentity
