import Mathlib.Data.Fintype.OfMap
import NodeIdentity.Library.ThreadNetwork
import NodeIdentity.Control
import NodeIdentity.DhtThreads
import NodeIdentity.Gwc
import NodeIdentity.Nidd
import NodeIdentity.Rvsc

/-!
# The daemon

The threads of one process, the memory they share and the socket pairs between
them.  A thread waits in `select` or in a read, takes its turn on one datagram
and writes what comes of it; nothing orders the threads among each other.  What
leaves the process goes into a pipe without limit, so that these pipes hold
everything sent so far.
-/

namespace NodeIdentity

open NodeIdentity.Library

/-- The socket pairs of `nidd.c`, and the three ways out: the socket of the
output thread, the raw sockets, and the socket to the rendezvous server. -/
inductive Pipe where
  | nf2ph
  | rvs2ph
  | mo2ph
  | gwt2ph
  | ph2nr
  | nr
  | nr2ph
  | ph2co
  | cm2rvs
  | co2rvs
  | rvs2gwt
  | co2gwl
  | gwl2gwt
  | dht
  | udp
  | raw
  | rvs
  deriving DecidableEq

instance : Fintype Pipe :=
  Fintype.ofList
    [.nf2ph, .rvs2ph, .mo2ph, .gwt2ph, .ph2nr, .nr, .nr2ph, .ph2co, .cm2rvs,
      .co2rvs, .rvs2gwt, .co2gwl, .gwl2gwt, .dht, .udp, .raw, .rvs]
    (fun pipe => by cases pipe <;> decide)

instance : Fintype Thread :=
  Fintype.ofList
    [.dhcp, .nidfilter, .phOutput, .phInput, .nrOutput, .nrOutputGw,
      .nrOutputCore, .nrInput, .nrInputGw, .debugRt, .rvsUpdate, .rvsGet,
      .rvsProxyRecv, .rvsProxySend, .rvs2gw, .mobility, .control, .controlRvs,
      .controlGw, .controlGwCore, .gwTalker, .gwListener, .gwCoreListener,
      .dhtUpdate, .dhtGet, .dnshandler]
    (fun thread => by cases thread <;> decide)

/-- A datagram, and where it goes if it leaves the process. -/
inductive Parcel where
  | datagram (bytes : List UInt8)
  | sendto (ip : NID32) (bytes : List UInt8)
  | inject (socket : RawSocket) (bytes : List UInt8)

def Parcel.bytes : Parcel → List UInt8
  | .datagram bytes => bytes
  | .sendto _ bytes => bytes
  | .inject _ bytes => bytes

/-- What the DHT does with a request: the client ends the process, it gives up
and ends the thread, or it answers. -/
inductive DhtOutcome where
  | exits
  | refused
  | answered (values : List (List UInt8))

/-- What a turn depends on besides the memory: the time, what `sendto`
reports, and the DHT. -/
structure Moment where
  now : Timeval
  sent : Bool
  dht : DhtOutcome

instance : Inhabited Moment := ⟨⟨.ofSec 0, true, .refused⟩⟩

/-- What the process waits for: a packet of the filter, a datagram on the data
port, a message of the rendezvous server, the timer of `thread_rvs_update`, an
event of the kernel, a message of the DHCP client, and what the DNS handler
makes of the mapper. -/
inductive Input where
  | packet (datagram : List UInt8)
  | arrival (now : Timeval) (arrival : Option (List UInt8 × NID32))
  | reply (rvs_msg : RvsMsg)
  | timer
  | netlink (now later : Timeval) (newaddr : Bool)
  | dhcp (message : List UInt8)
  | dns (nm : NidMapper)

/-- The variables of the process, those of the threads included. -/
structure Memory extends DhcpState where
  nr : NrOutput
  nrInput : NrInput
  phInput : Buffer maxBufLen
  control : NmsgBuffer
  count : Nat
  dhtGet : DhtGet
  dhtEnded : Bool
  exited : Bool

namespace Pipe

/-- The branch of `thread_ph_output`. -/
def phSource : Pipe → Option PhSource
  | nf2ph => some .nf2ph
  | rvs2ph => some .rvs2ph
  | mo2ph => some .mo2ph
  | gwt2ph => some .gwt2ph
  | _ => none

/-- The branch of an output thread of NID routing. -/
def nrSource : Pipe → Option NrSource
  | ph2nr => some .ph2nr
  | nr => some .nr
  | _ => none

/-- What leaves the process is taken at once. -/
def isExit : Pipe → Bool
  | udp => true
  | raw => true
  | rvs => true
  | _ => false

/-- A write of a message. -/
def nmsg (pipe : Pipe) (nmsg : NidMsg) : Pipe × Parcel :=
  (pipe, .datagram (nidMsgCodec.encode nmsg))

end Pipe

/-- The pipes a thread selects or reads from. -/
def Thread.reads : Thread → Pipe → Bool
  | .phOutput, pipe => pipe.phSource.isSome
  | .phInput, .nr2ph => true
  | .nrOutput, .ph2nr => true
  | .nrOutputGw, pipe => pipe.nrSource.isSome
  | .nrOutputCore, pipe => pipe.nrSource.isSome
  | .rvsGet, .cm2rvs => true
  | .rvsProxySend, .co2rvs => true
  | .rvs2gw, .rvs2gwt => true
  | .control, .ph2co => true
  | .controlRvs, .ph2co => true
  | .controlGw, .ph2co => true
  | .controlGwCore, .ph2co => true
  | .gwTalker, .rvs2gwt => true
  | .gwTalker, .gwl2gwt => true
  | .gwListener, .co2gwl => true
  | .gwCoreListener, .co2gwl => true
  | .dhtGet, .dht => true
  | _, _ => false

/-- The input a thread waits for. -/
def Thread.takes : Thread → Input → Bool
  | .nidfilter, .packet _ => true
  | .nrInput, .arrival _ _ => true
  | .nrInputGw, .arrival _ _ => true
  | .rvsProxyRecv, .reply _ => true
  | .rvsUpdate, .timer => true
  | .mobility, .netlink _ _ _ => true
  | .dhcp, .dhcp _ => true
  | .dnshandler, .dns _ => true
  | _, _ => false

namespace Memory

/-- The output thread writes its requests before it sends. -/
def nrOutputTurn (thread : Thread) (source : NrSource) (now : Timeval)
    (datagram : List UInt8) (memory : Memory) :
    Memory × List (Pipe × Parcel) :=
  match thread.nrTurn source now datagram memory.nr with
  | some turn =>
      ({ memory with nr := turn.state },
        turn.request.toList.map
            (fun nid => (.cm2rvs, .datagram (nidCodec.encode nid))) ++
          turn.dhtRequest.toList.map
            (fun nid => (.dht, .datagram (nidCodec.encode nid))) ++
          turn.sent.toList.map
            (fun packet => (.udp, .sendto packet.1 packet.2)))
  | none => (memory, [])

def phOutputTurn (source : PhSource) (datagram : List UInt8)
    (memory : Memory) : Memory × List (Pipe × Parcel) :=
  let turn := threadPhOutput source datagram memory.nm memory.ph
  ({ memory with ph := turn.1 },
    turn.2.toList.map fun sent =>
      (.ph2nr, .datagram (frame sent.header sent.payload)))

def phInputTurn (sent : Bool) (datagram : List UInt8) (memory : Memory) :
    Memory × List (Pipe × Parcel) :=
  let turn := threadPhInput datagram sent memory.phInput memory.nm
  ({ memory with
      phInput := turn.buf
      nm := turn.nm
      exited := turn.exits },
    turn.raw.toList.map
        (fun packet => (.raw, .inject packet.1 packet.2)) ++
      turn.ph2co.toList.map (fun message => (.ph2co, .datagram message)))

def controlTurn (now : Timeval) (datagram : List UInt8) (memory : Memory) :
    Memory × List (Pipe × Parcel) :=
  let turn := threadControl now datagram memory.control memory.nr.cm
    memory.nr.queueTable
  ({ memory with
      control := turn.buf
      nr := { memory.nr with cm := turn.cm, queueTable := turn.queueTable } },
    [])

def controlRvsTurn (now : Timeval) (datagram : List UInt8) (memory : Memory) :
    Memory × List (Pipe × Parcel) :=
  let turn := threadControlRvs now datagram memory.control memory.nr.cm
  ({ memory with
      control := turn.buf
      nr := { memory.nr with cm := turn.cm } },
    turn.co2rvs.toList.map (Pipe.nmsg .co2rvs))

def controlGwTurn (now : Timeval) (datagram : List UInt8) (memory : Memory) :
    Memory × List (Pipe × Parcel) :=
  let turn := threadControlGw now datagram memory.control memory.nr.cm
  ({ memory with
      control := turn.buf
      nr := { memory.nr with cm := turn.cm } },
    turn.co2gwl.toList.map (Pipe.nmsg .co2gwl))

def controlGwCoreTurn (now : Timeval) (datagram : List UInt8)
    (memory : Memory) : Memory × List (Pipe × Parcel) :=
  let turn := threadControlGwCore now datagram memory.control memory.nr.cm
    memory.nr.registry
  ({ memory with
      control := turn.buf
      nr := { memory.nr with cm := turn.cm, registry := turn.registry } },
    turn.co2gwl.toList.map (Pipe.nmsg .co2gwl))

/-- The thread ends the process when it cannot send. -/
def rvsProxySendTurn (sent : Bool) (nmsg : NidMsg) (memory : Memory) :
    Memory × List (Pipe × Parcel) :=
  ({ memory with exited := !sent },
    [(.rvs, .datagram (rvsMsgCodec.encode (threadRvsProxySend nmsg)))])

def gwListenerTurn (now : Timeval) (nmsg : NidMsg) (memory : Memory) :
    Memory × List (Pipe × Parcel) :=
  let turn := threadGwListener now nmsg memory.nr.rt
  ({ memory with nr := { memory.nr with rt := turn.1 } },
    [Pipe.nmsg .gwl2gwt turn.2])

def gwCoreListenerTurn (now : Timeval) (nmsg : NidMsg) (memory : Memory) :
    Memory × List (Pipe × Parcel) :=
  let turn := threadGwCoreListener memory.config now nmsg memory.nr.rt
    memory.nr.registry
  ({ memory with
      nr := { memory.nr with rt := turn.rt, registry := turn.registry } },
    turn.gwt2ph.toList.map (Pipe.nmsg .gwt2ph))

/-- A value which does not fit the array is written over its end, which is
taken for the end of the process. -/
def dhtGetTurn (moment : Moment) (nid : NID) (memory : Memory) : Memory :=
  match moment.dht with
  | .exits => { memory with exited := true }
  | .refused => { memory with dhtEnded := true }
  | .answered values =>
      match threadDhtGet moment.now nid values memory.dhtGet memory.nr.dht with
      | some turn =>
          { memory with
            dhtGet := turn.state
            nr := { memory.nr with dht := turn.dht } }
      | none => { memory with exited := true }

/-- A thread takes its turn on a datagram. -/
def turn (thread : Thread) (pipe : Pipe) (moment : Moment) (parcel : Parcel)
    (memory : Memory) : Memory × List (Pipe × Parcel) :=
  let datagram := parcel.bytes
  let nmsg := nidMsgCodec.decode datagram
  match thread with
  | .phOutput =>
      match pipe.phSource with
      | some source => memory.phOutputTurn source datagram
      | none => (memory, [])
  | .phInput => memory.phInputTurn moment.sent datagram
  | .nrOutput | .nrOutputGw | .nrOutputCore =>
      match pipe.nrSource with
      | some source => memory.nrOutputTurn thread source moment.now datagram
      | none => (memory, [])
  | .control => memory.controlTurn moment.now datagram
  | .controlRvs => memory.controlRvsTurn moment.now datagram
  | .controlGw => memory.controlGwTurn moment.now datagram
  | .controlGwCore => memory.controlGwCoreTurn moment.now datagram
  | .rvsProxySend => memory.rvsProxySendTurn moment.sent nmsg
  | .rvsGet =>
      (memory, [Pipe.nmsg .rvs2ph
        (threadRvsGet memory.config (nidCodec.decode datagram))])
  | .rvs2gw =>
      (memory, [Pipe.nmsg .gwt2ph (threadRvs2gw memory.config nmsg)])
  | .gwListener => memory.gwListenerTurn moment.now nmsg
  | .gwCoreListener => memory.gwCoreListenerTurn moment.now nmsg
  | .gwTalker =>
      (memory, [Pipe.nmsg .gwt2ph (threadGwTalker memory.config nmsg)])
  | .dhtGet => (memory.dhtGetTurn moment (nidCodec.decode datagram), [])
  | _ => (memory, [])

/-- The thread of the data port; one of the two functions runs. -/
def arrivalTurn (thread : Thread) (now : Timeval)
    (arrival : Option (List UInt8 × NID32)) (memory : Memory) :
    Memory × List (Pipe × Parcel) :=
  let turn :=
    match thread with
    | .nrInput =>
        threadNrInput memory.config.nid now arrival memory.nrInput memory.nr.cm
    | _ =>
        threadNrInputGw memory.config.nid now arrival memory.nrInput
          memory.nr.cm
  ({ memory with
      nrInput := turn.state
      nr := { memory.nr with cm := turn.cm } },
    turn.nr2ph.toList.map (fun packet => (.nr2ph, .datagram packet)) ++
      turn.nr.toList.map (fun packet => (.nr, .datagram packet)))

def mobilityTurn (now later : Timeval) (newaddr : Bool) (memory : Memory) :
    Memory × List (Pipe × Parcel) :=
  let turn := threadMobility memory.config memory.mobility now later newaddr
    memory.count memory.nr.cm
  ({ memory with
      count := turn.count
      nr := { memory.nr with cm := turn.cm } },
    turn.mo2ph.map (Pipe.nmsg .mo2ph) ++
      turn.rvs2ph.toList.map (Pipe.nmsg .rvs2ph))

/-- A thread takes its turn on an input.  A message of the DHCP client which
leads to an invalid access ends the process. -/
def input (thread : Thread) (input : Input) (memory : Memory) :
    Memory × List (Pipe × Parcel) :=
  match input with
  | .packet datagram => (memory, [(.nf2ph, .datagram datagram)])
  | .arrival now arrival => memory.arrivalTurn thread now arrival
  | .reply rvs_msg =>
      let turn := threadRvsProxyRecv rvs_msg
      (memory, Pipe.nmsg .rvs2ph turn.rvs2ph ::
        turn.rvs2gwt.toList.map (Pipe.nmsg .rvs2gwt))
  | .timer => (memory, [Pipe.nmsg .rvs2ph (threadRvsUpdate memory.config)])
  | .netlink now later newaddr => memory.mobilityTurn now later newaddr
  | .dhcp message =>
      match threadDhcp message memory.toDhcpState with
      | some settings => ({ memory with toDhcpState := settings }, [])
      | none => ({ memory with exited := true }, [])
  | .dns nm => ({ memory with nm := nm }, [])

/-- The threads which run: those `main` starts, except for the one which gives
up when the DHT refuses a connection. -/
def runs (options : MainOptions) (type : NodeType) (thread : Thread)
    (memory : Memory) : Bool :=
  (mainThreads options type).contains thread &&
    !(thread = .dhtGet && memory.dhtEnded)

end Memory

/-- `capacity` is what the kernel lets wait in each socket pair. -/
def daemon (options : MainOptions) (type : NodeType) (capacity : Pipe → Nat) :
    ThreadNetwork Thread Pipe Parcel Moment Input Memory :=
  { reads := fun memory thread pipe =>
      memory.runs options type thread && thread.reads pipe
    turn := Memory.turn
    takes := fun memory thread input =>
      memory.runs options type thread && thread.takes input
    input := Memory.input
    halted := Memory.exited
    capacity := fun pipe => if pipe.isExit then none else some (capacity pipe) }

abbrev DaemonState := ThreadNetwork.State Thread Pipe Parcel Memory

abbrev DaemonEvent := ThreadNetwork.Event Thread Pipe Moment Input

abbrev DaemonMove := ThreadNetwork.Move Pipe Parcel

/-- What `main` leaves for the threads, with zeros where nothing has been
written yet. -/
def mainMemory (config : Configuration) (options : MainOptions) : Memory :=
  { config := config
    ip := NID32.zero
    mobility := .intradomain
    serverAddress := []
    nm := mainNidMapper config options.get_dns
    ph := initPhOutput config
    nr := mainNrOutput config (Buffer.zero maxBufLen)
    nrInput := ⟨Buffer.zero maxBufLen, NID32.zero⟩
    phInput := Buffer.zero maxBufLen
    control := Buffer.zero nmsgLen
    count := 0
    dhtGet := ⟨Buffer.zero inet6AddrStrLen, NID32.zero⟩
    dhtEnded := false
    exited := false }

/-- Nothing waits in the pipes, and no thread is in a turn. -/
def bootState (memory : Memory) : DaemonState :=
  { memory := memory
    queue := fun _ => []
    pending := fun _ => [] }

end NodeIdentity
