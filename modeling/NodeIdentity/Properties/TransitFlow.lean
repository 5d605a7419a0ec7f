import NodeIdentity.Properties.GatewayFlow

/-!
# Packets through the threads of a gateway

A packet for another node goes through two threads of a gateway, the input and
the output thread of NID routing, while the other threads use the output thread
as well.  The pipe between the two keeps the order, so the packets leave in the
order in which they arrived, in every order of moves.
-/

namespace NodeIdentity

open NodeIdentity.Library

theorem threadNrInputGw_failed (nid : NID) (now : Timeval) (s : NrInput)
    (cm : ConnMapper) :
    (threadNrInputGw nid now none s cm).state = s ∧
      (threadNrInputGw nid now none s cm).nr = none := by
  have turn : threadNrInputGw nid now none s cm =
      if s.header.destNID = nid then
        ⟨s, newCMEntry s.header.srcNID s.recvAddr now cm, none, none⟩
      else ⟨s, cm, none, none⟩ := rfl
  rw [turn]
  split <;> exact ⟨rfl, rfl⟩

theorem threadNrInputGw_transit (nid : NID) (now : Timeval)
    (datagram : List UInt8) (sender : NID32) (s : NrInput) (cm : ConnMapper) :
    let turn := threadNrInputGw nid now (some (datagram, sender)) s cm
    let buf := s.buf.receive datagram
    turn.state.buf = buf ∧
      turn.nr = if (nidHeaderCodec.decode buf.bytes).destNID = nid then none
        else some (datagram.take maxBufLen) := by
  simp only [threadNrInputGw, NrInput.recvfrom, NrInput.header,
    Buffer.take_received]
  by_cases own : (nidHeaderCodec.decode
      (s.buf.receive datagram).bytes).destNID = nid
  · simp only [if_pos own, and_self]
  · simp only [if_neg own, and_self]

section Gateway

variable (options : MainOptions) (capacity : Pipe → Nat)

/-- What an input leaves in the buffer of the input thread, and the packet for
another node it brings, as far as the buffer takes it.  A datagram shorter than
a header is read with what the ones before it have left behind it. -/
def Input.transit (nid : NID) (buf : Buffer maxBufLen) :
    Input → Buffer maxBufLen × List (List UInt8)
  | .arrival _ (some (datagram, _)) =>
      let buf := buf.receive datagram
      (buf, if (nidHeaderCodec.decode buf.bytes).destNID = nid then []
        else [datagram.take maxBufLen])
  | _ => (buf, [])

/-- The packets for other nodes among the datagrams which arrive. -/
def inTransit (nid : NID) (buf : Buffer maxBufLen) :
    List DaemonEvent → List (List UInt8)
  | [] => []
  | .input _ input :: events =>
      let (buf, packets) := input.transit nid buf
      packets ++ inTransit nid buf events
  | .read _ _ _ :: events => inTransit nid buf events
  | .write _ :: events => inTransit nid buf events

def Parcel.whole (parcel : Parcel) : List (List UInt8) := [parcel.bytes]

def relayedPackets : DaemonMove → List (List UInt8) :=
  ThreadNetwork.Move.sent Parcel.whole .nr .udp

/-- What waits to be relayed has gone through a buffer. -/
def transitFits (pipe : Pipe) (parcel : Parcel) : Prop :=
  pipe = .nr → parcel.bytes.length ≤ maxBufLen

theorem threadNrInputGw_transit_length {nid : NID} {now : Timeval}
    {arrival : Option (List UInt8 × NID32)} {s : NrInput} {cm : ConnMapper}
    {packet : List UInt8}
    (out : (threadNrInputGw nid now arrival s cm).nr = some packet) :
    packet.length ≤ maxBufLen := by
  cases arrival with
  | none =>
      rw [(threadNrInputGw_failed _ _ _ _).2] at out
      cases out
  | some arrival =>
      rw [(threadNrInputGw_transit _ _ _ _ _ _).2] at out
      split at out
      · cases out
      · cases out
        exact List.length_take_le _ _

theorem transit_keeps (nid : NID) :
    (daemon options .gateway capacity).Keeps (fun _ => True)
      (fun memory => memory.config.nid = nid) transitFits := by
  constructor
  · intro memory thread source now message _ same _
    exact (congrArg Configuration.nid (turn_config _ _ _ _ _)).trans same
  · intro memory thread source now message write reads _ _ member here
    have writes := Memory.turn_writes member
    obtain ⟨runs, _⟩ := gateway_reads options capacity reads
    rw [here] at writes
    simp only [List.mem_cons, List.not_mem_nil, or_false] at runs
    rcases runs with rfl | rfl | rfl | rfl | rfl | rfl <;> cases writes
  · intro memory thread input _ same _
    exact (input_nid _ _ _).trans same
  · intro memory thread input write takes _ _ member here
    have waits := (daemon_takes options capacity takes).2
    have writes := Memory.input_writes waits member
    rw [here] at writes
    cases thread with
    | nrInputGw =>
        cases input with
        | arrival now arrival =>
            rcases List.mem_append.mp member with own | others
            · obtain ⟨_, _, rfl⟩ := List.mem_map.mp own
              cases here
            · obtain ⟨packet, out, rfl⟩ := List.mem_map.mp others
              exact threadNrInputGw_transit_length (Option.mem_toList.mp out)
        | _ => cases waits
    | _ => cases writes

theorem turn_nrInput (thread : Thread) (pipe : Pipe) (moment : Moment)
    (parcel : Parcel) (memory : Memory) :
    (memory.turn thread pipe moment parcel).1.nrInput = memory.nrInput := by
  cases thread with
  | phOutput =>
      simp only [Memory.turn]
      split <;> rfl
  | nrOutput | nrOutputGw | nrOutputCore =>
      simp only [Memory.turn]
      split
      · unfold Memory.nrOutputTurn
        split <;> rfl
      · rfl
  | dhtGet =>
      simp only [Memory.turn, Memory.dhtGetTurn]
      split
      · rfl
      · rfl
      · split <;> rfl
  | gwCoreListener => simp only [Memory.turn, Memory.gwCoreListenerTurn]
  | _ => rfl

theorem inTransit_input (nid : NID) (buf : Buffer maxBufLen) (thread : Thread)
    (input : Input) (later : List DaemonEvent) :
    inTransit nid buf (.input thread input :: later) =
      (input.transit nid buf).2 ++
        inTransit nid (input.transit nid buf).1 later :=
  rfl

theorem arrivalTurn_transit (now : Timeval)
    (arrival : Option (List UInt8 × NID32)) (memory : Memory) :
    let turn := memory.arrivalTurn .nrInputGw now arrival
    let transit := (Input.arrival now arrival).transit memory.config.nid
      memory.nrInput.buf
    turn.1.nrInput.buf = transit.1 ∧
      ThreadNetwork.Move.put Parcel.whole .nr ⟨none, turn.2⟩ = transit.2 := by
  intro turn transit
  have state : turn.1.nrInput = (threadNrInputGw memory.config.nid now arrival
      memory.nrInput memory.nr.cm).state := by
    simp only [turn, Memory.arrivalTurn]
  have put : ThreadNetwork.Move.put Parcel.whole .nr ⟨none, turn.2⟩ =
      (threadNrInputGw memory.config.nid now arrival memory.nrInput
        memory.nr.cm).nr.toList.flatMap fun packet => [packet] := by
    simp only [turn, Memory.arrivalTurn]
    rw [put_append, put_elsewhere (by decide), List.nil_append]
    exact put_toList .nr Parcel.whole Parcel.datagram _
  rw [state, put]
  cases arrival with
  | none =>
      obtain ⟨kept, silent⟩ := threadNrInputGw_failed memory.config.nid now
        memory.nrInput memory.nr.cm
      rw [kept, silent]
      exact ⟨rfl, rfl⟩
  | some arrival =>
      obtain ⟨datagram, sender⟩ := arrival
      obtain ⟨left, routed⟩ := threadNrInputGw_transit memory.config.nid now
        datagram sender memory.nrInput memory.nr.cm
      rw [left, routed]
      refine ⟨rfl, ?_⟩
      simp only [transit, Input.transit]
      split <;> rfl

theorem input_nrInput {thread : Thread} {input : Input} (memory : Memory)
    (other : thread ≠ .nrInputGw)
    (takes : (daemon options .gateway capacity).takes memory thread input =
      true) :
    (memory.input thread input).1.nrInput = memory.nrInput ∧
      ∀ nid buf, input.transit nid buf = (buf, []) := by
  obtain ⟨runs, waits⟩ := daemon_takes options capacity takes
  cases input with
  | arrival now arrival =>
      cases thread with
      | nrInputGw => exact (other rfl).elim
      | nrInput => exact absurd runs (by decide)
      | _ => cases waits
  | dhcp message =>
      refine ⟨?_, fun _ _ => rfl⟩
      simp only [Memory.input]
      split <;> rfl
  | _ => exact ⟨rfl, fun _ _ => rfl⟩

/-- What a move puts into the pipe of the relayed packets comes first among
the packets which are still to come. -/
theorem inTransit_step {s next : DaemonState} {event : DaemonEvent}
    {move : DaemonMove}
    (stepped : (daemon options .gateway capacity).step s event =
      some (next, move)) (later : List DaemonEvent) :
    move.put Parcel.whole .nr ++
        inTransit s.memory.config.nid next.memory.nrInput.buf later =
      inTransit s.memory.config.nid s.memory.nrInput.buf (event :: later) := by
  have carrier := daemon_carrier options capacity Parcel.whole
    (by decide : ∀ thread ∈ mainThreads ⟨true, true, true⟩ .gateway,
      thread.writes .nr = true → thread = .nrInputGw)
  cases event with
  | read thread source now =>
      obtain ⟨_, _, reads, message, rest, _, rfl, rfl⟩ :=
        ThreadNetwork.step_read stepped
      have others : thread ≠ .nrInputGw := by
        intro here
        subst here
        cases (daemon_reads options .gateway capacity reads).2
      have quiet : ThreadNetwork.Move.put Parcel.whole .nr
          ⟨some (source, message),
            (s.memory.turn thread source now message).2⟩ = [] :=
        ThreadNetwork.flatMap_silent
          (carrier.turn thread source now message s.memory others reads)
      have kept := turn_nrInput thread source now message s.memory
      refine (congrArg (· ++ _) quiet).trans ?_
      exact congrArg (fun input : NrInput =>
        inTransit s.memory.config.nid input.buf later) kept
  | write thread =>
      obtain ⟨_, _, _, _, _, _, rfl, rfl⟩ := ThreadNetwork.step_write stepped
      rfl
  | input thread input =>
      obtain ⟨_, _, takes, rfl, rfl⟩ := ThreadNetwork.step_input stepped
      by_cases here : thread = .nrInputGw
      · subst here
        cases input with
        | arrival now arrival =>
            obtain ⟨left, put⟩ := arrivalTurn_transit now arrival s.memory
            rw [inTransit_input, ← left, ← put]
            rfl
        | _ => cases (daemon_takes options capacity takes).2
      · have quiet : ThreadNetwork.Move.put Parcel.whole .nr
            ⟨none, (s.memory.input thread input).2⟩ = [] :=
          ThreadNetwork.flatMap_silent
            (carrier.input thread input s.memory here takes)
        obtain ⟨kept, nothing⟩ :=
          input_nrInput options capacity s.memory here takes
        rw [inTransit_input, nothing]
        refine (congrArg (· ++ _) quiet).trans ?_
        exact congrArg (fun input : NrInput =>
          inTransit s.memory.config.nid input.buf later) kept

/-- What is put into the pipe of the relayed packets are the packets for other
nodes, in the order of arrival. -/
theorem inTransit_run {nid : NID} {start s : DaemonState}
    {events : List DaemonEvent} {moves : List DaemonMove}
    (fit : start.Fit (fun memory => memory.config.nid = nid) transitFits)
    (run : (daemon options .gateway capacity).machine.Run start events moves s)
    (later : List DaemonEvent) :
    moves.flatMap (ThreadNetwork.Move.put Parcel.whole .nr) ++
        inTransit nid s.memory.nrInput.buf later =
      inTransit nid start.memory.nrInput.buf (events ++ later) := by
  induction run generalizing later with
  | nil => rfl
  | @snoc events moves state next event move earlier last ih =>
      have same := ((transit_keeps options capacity nid).run fit
        (fun event _ => event.admits_true) earlier).memory
      have step := inTransit_step options capacity last later
      rw [same] at step
      rw [List.flatMap_append, List.flatMap_singleton, List.append_assoc, step,
        ih, List.append_assoc, List.singleton_append]

theorem outlet_relayed (nid : NID) :
    (daemon options .gateway capacity).Outlet
      (fun memory => memory.config.nid = nid) transitFits .nr Parcel.whole .udp
      Parcel.whole .nrOutputGw := by
  constructor
  · exact daemon_reader options capacity (by decide)
  · intro memory now message _ short
    obtain ⟨ip, put⟩ := nrOutputGw_puts .nr now.now message.bytes memory
      Parcel.whole
    rw [List.take_of_length_le (short rfl)] at put
    exact put

/-- A gateway relays the packets for other nodes as they came.  Whatever the
order in which its threads move and whatever else they handle, the packets it
has sent are the first of those which arrived, as far as its buffers take them,
and when the gateway is drained all of them have been sent, each once and in
the order of arrival. -/
theorem transit_relayed {memory : Memory} {s : DaemonState}
    {events : List DaemonEvent} {moves : List DaemonMove}
    (run : (daemon options .gateway capacity).machine.Run (bootState memory)
      events moves s) :
    let arrived := inTransit memory.config.nid memory.nrInput.buf events
    let relayed := moves.flatMap relayedPackets
    relayed <+: arrived ∧
      ((daemon options .gateway capacity).Drained s → relayed = arrived) := by
  intro arrived relayed
  have keeps := transit_keeps options capacity memory.config.nid
  have fit : (bootState memory).Fit
      (fun other => other.config.nid = memory.config.nid) transitFits :=
    ThreadNetwork.fit_of_empty rfl ⟨fun _ => rfl, fun _ => rfl⟩
  have entered := inTransit_run options capacity fit run []
  have nr := daemon_pipe options capacity .nrOutputGw
    (daemon_carrier options capacity Parcel.whole
      (by decide : ∀ thread ∈ mainThreads ⟨true, true, true⟩ .gateway,
        thread.writes .nr = true → thread = .nrInputGw))
    (by decide) (by decide) run
  have sent := (outlet_relayed options capacity _).run keeps fit
    (fun event _ => event.admits_true) run
  simp only [inTransit, List.append_nil] at entered
  rw [entered, ← sent] at nr
  exact nr

end Gateway

section Example

private def relaying : ThreadNetwork Thread Pipe Parcel Moment Input Memory :=
  daemon ⟨false, false, false⟩ .gateway (fun _ => 1)

private def starting : Memory :=
  mainMemory (.sample .gateway (NID.ofNat 1)) ⟨false, false, false⟩

private def strayPacket (destination : Nat) : List UInt8 :=
  frame
    { type := .data
      srcNID := NID.ofNat 7
      destNID := NID.ofNat destination
      srcNIDgw := NID.ofNat 2
      destNIDgw := NID.ofNat 2 } [1, 2, 3]

private def arrive (datagram : List UInt8) : DaemonEvent :=
  .input .nrInputGw (.arrival (.ofSec 100) (some (datagram, NID32.ofNat 9)))

private def relayMove : DaemonEvent :=
  .read .nrOutputGw .nr ⟨.ofSec 100, true, .refused⟩

private def traffic : List DaemonEvent :=
  [arrive (strayPacket 8), .write .nrInputGw, arrive [4, 5, 6], relayMove,
    .write .nrInputGw, .write .nrOutputGw, arrive (strayPacket 9), relayMove,
    .write .nrOutputGw, .write .nrInputGw, relayMove, .write .nrOutputGw]

/-- Three bytes behind a packet for another node go the same way. -/
theorem transit_relayed_short : ∃ moves s,
    relaying.machine.Run (bootState starting) traffic moves s ∧
      relaying.Drained s ∧
      moves.flatMap relayedPackets =
        [strayPacket 8, [4, 5, 6], strayPacket 9] := by
  have evaluated : (relaying.machine.exec (bootState starting) traffic).any
      (fun result => (∀ thread, (result.1.pending thread).isEmpty) ∧
        ∀ pipe : Pipe, pipe.isExit ∨ (result.1.queue pipe).isEmpty) = true := by
    decide +kernel
  obtain ⟨moves, s, run, empty⟩ := Machine.exists_run_of_exec evaluated
  obtain ⟨threads, pipes⟩ := of_decide_eq_true empty
  have drained : relaying.Drained s :=
    drained_of_empty _ .gateway _ threads pipes
  have relayed := (transit_relayed _ (fun _ => 1) run).2 drained
  have arrived : inTransit starting.config.nid starting.nrInput.buf traffic =
      [strayPacket 8, [4, 5, 6], strayPacket 9] := by decide +kernel
  exact ⟨moves, s, run, drained, relayed.trans arrived⟩

end Example

end NodeIdentity
