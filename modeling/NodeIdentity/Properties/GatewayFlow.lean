import NodeIdentity.Properties.DaemonFlow
import NodeIdentity.Properties.RoutingMap

/-!
# Registrations through the threads of a gateway

A registration which arrives at a gateway goes through five threads before it
leaves for the next gateway, each of which other threads may hold up and which
share some of their pipes with other messages.  Each thread is a stage, so in
every order of their moves the registrations leave in the order in which they
came, and none before its route has been written.
-/

namespace NodeIdentity

open NodeIdentity.Library

/-- The frame in which the packet handler sends a message of the talker. -/
def talkerFrame (nmsg : NidMsg) : List UInt8 :=
  frame
    { type := nmsg.type
      srcNID := nmsg.srcNID
      destNID := nmsg.destNID
      srcNIDgw := nmsg.srcNIDgw
      destNIDgw := nmsg.destNIDgw } (nidMsgCodec.encode nmsg)

/-- What a gateway with a configuration sends for a registration: a frame for
the next gateway, with the locator of this one. -/
def announcementFrame (config : Configuration) (nmsg : NidMsg) : List UInt8 :=
  talkerFrame (threadGwTalker config nmsg)

namespace Parcel

abbrev registrations : Parcel → List NidMsg :=
  Parcel.control MsgType.IsRegistry id

abbrev framed : Parcel → List NidMsg :=
  Parcel.framedControl MsgType.IsRegistry id

/-- The messages of the talker, in the frames they will leave in. -/
abbrev talked : Parcel → List (List UInt8) :=
  Parcel.control MsgType.IsRegistry talkerFrame

def registryFrames (parcel : Parcel) : List (List UInt8) :=
  if (nidHeaderCodec.decode parcel.bytes).type.IsRegistry then [parcel.bytes]
  else []

end Parcel

/-- What the threads of a gateway rely on in what they read. -/
def gatewayFits (pipe : Pipe) (parcel : Parcel) : Prop :=
  match pipe with
  | .nr2ph | .ph2nr => WellFormed parcel.bytes
  | .ph2co | .co2gwl | .gwl2gwt =>
      ∃ nmsg, parcel.bytes = nidMsgCodec.encode nmsg
  | .gwt2ph =>
      ∃ nmsg, parcel.bytes = nidMsgCodec.encode nmsg ∧ nmsg.type = .registry
  | .rvs2ph =>
      ∃ nmsg, parcel.bytes = nidMsgCodec.encode nmsg ∧ nmsg.type = .rvsUpdate
  | .mo2ph =>
      ∃ nmsg, parcel.bytes = nidMsgCodec.encode nmsg ∧ nmsg.type = .redirect
  | .rvs2gwt => False
  | _ => True

def RTCall.route : RTCall → Option (NID × NID32)
  | .newRT _ nid ip => some (nid, ip)
  | .getRT _ _ => none

/-- The table has been called to store the route of each registration, in
their order, and otherwise for lookups only. -/
def RoutesWritten (before after : RoutingTable) (routed : List NidMsg) : Prop :=
  ∃ calls : List RTCall,
    after = calls.foldl (fun rt call => (rt.apply call).1) before ∧
      calls.filterMap RTCall.route =
        routed.map fun nmsg => (nmsg.nid, nmsg.ip)

theorem RoutesWritten.refl (rt : RoutingTable) : RoutesWritten rt rt [] :=
  ⟨[], rfl, rfl⟩

theorem RoutesWritten.trans {before between after : RoutingTable}
    {first second : List NidMsg} (earlier : RoutesWritten before between first)
    (later : RoutesWritten between after second) :
    RoutesWritten before after (first ++ second) := by
  obtain ⟨calls, rfl, written⟩ := earlier
  obtain ⟨others, rfl, writtenThen⟩ := later
  refine ⟨calls ++ others, List.foldl_append.symm, ?_⟩
  rw [List.filterMap_append, List.map_append, written, writtenThen]

theorem threadNrOutputGw_rt (source : NrSource) (now : Timeval)
    (datagram : List UInt8) (s : NrOutput) :
    RoutesWritten s.rt (threadNrOutputGw source now datagram s).state.rt [] := by
  have looked : ∀ nid, RoutesWritten s.rt (getRTEntry nid now s.rt).rt [] :=
    fun nid => ⟨[.getRT now nid], rfl, rfl⟩
  cases source with
  | nr => exact looked _
  | ph2nr =>
      simp only [threadNrOutputGw]
      split
      · exact .refl s.rt
      · exact looked _

theorem zipWith_of_prefix {α β γ : Type} (combine : α → β → γ) {first : List α}
    {front whole : List β} (lengths : first.length = front.length)
    (prefixed : front <+: whole) :
    List.zipWith combine first front = List.zipWith combine first whole := by
  obtain ⟨rest, rfl⟩ := prefixed
  have split : List.zipWith combine (first ++ []) (front ++ rest) =
      List.zipWith combine first front ++ List.zipWith combine [] rest :=
    List.zipWith_append lengths
  rw [List.append_nil, List.zipWith_nil_left, List.append_nil] at split
  exact split.symm

section Gateway

variable (options : MainOptions) (capacity : Pipe → Nat)

theorem gateway_reads {memory : Memory} {thread : Thread} {pipe : Pipe}
    (reads : (daemon options .gateway capacity).reads memory thread pipe = true) :
    thread ∈ [.phOutput, .phInput, .nrOutputGw, .controlGw, .gwTalker,
      .gwListener] ∧ thread.reads pipe = true := by
  obtain ⟨runs, reads⟩ := daemon_reads options .gateway capacity reads
  have all := (mainThreads_between options .gateway).2 runs
  refine ⟨?_, reads⟩
  cases thread with
  | phOutput | phInput | nrOutputGw | controlGw | gwTalker | gwListener =>
      decide
  | dhcp | nidfilter | nrInputGw | debugRt | mobility | rvsUpdate
  | dnshandler => cases reads
  | _ => exact absurd all (by decide)

theorem gateway_turn_fits {memory : Memory} {thread : Thread} {pipe : Pipe}
    {moment : Moment} {parcel : Parcel} {write : Pipe × Parcel}
    (reads : (daemon options .gateway capacity).reads memory thread pipe = true)
    (fits : gatewayFits pipe parcel)
    (member : write ∈ (memory.turn thread pipe moment parcel).2) :
    gatewayFits write.1 write.2 := by
  obtain ⟨runs, reads⟩ := gateway_reads options capacity reads
  simp only [List.mem_cons, List.not_mem_nil, or_false] at runs
  rcases runs with rfl | rfl | rfl | rfl | rfl | rfl
  · have full : pipe = .nf2ph ∨
        ∃ nmsg, parcel.bytes = nidMsgCodec.encode nmsg := by
      cases pipe with
      | nf2ph => exact .inl rfl
      | rvs2ph | mo2ph | gwt2ph =>
          obtain ⟨nmsg, full, _⟩ := fits
          exact .inr ⟨nmsg, full⟩
      | _ => cases reads
    obtain ⟨target, formed⟩ := phOutput_fits full member
    rw [target]
    exact formed
  · cases pipe with
    | nr2ph =>
        rcases phInput_fits fits member with raw | ⟨target, full⟩
        · rw [raw]
          trivial
        · rw [target]
          exact full
    | _ => cases reads
  · have out := Memory.turn_writes member
    cases write with
    | mk target sent =>
        cases target with
        | cm2rvs | udp => trivial
        | _ => cases out
  · simp only [Memory.turn, Memory.controlGwTurn] at member
    obtain ⟨nmsg, _, rfl⟩ := List.mem_map.mp member
    exact ⟨nmsg, rfl⟩
  · simp only [Memory.turn] at member
    cases List.mem_singleton.mp member
    exact ⟨_, rfl, rfl⟩
  · simp only [Memory.turn, Memory.gwListenerTurn] at member
    cases List.mem_singleton.mp member
    exact ⟨_, rfl⟩

theorem gateway_input_fits {memory : Memory} {thread : Thread} {input : Input}
    {write : Pipe × Parcel}
    (takes : (daemon options .gateway capacity).takes memory thread input = true)
    (formed : input.WellFormed)
    (member : write ∈ (memory.input thread input).2) :
    gatewayFits write.1 write.2 := by
  obtain ⟨runs, takes⟩ := daemon_takes options capacity takes
  cases input with
  | packet datagram =>
      cases List.mem_singleton.mp member
      trivial
  | arrival now arrival =>
      rcases arrival_fits formed member with ⟨target, own⟩ | others
      · rw [target]
        exact own
      · rw [others]
        trivial
  | reply rvs_msg =>
      cases thread with
      | rvsProxyRecv => exact absurd runs (by decide)
      | _ => cases takes
  | timer =>
      cases List.mem_singleton.mp member
      exact ⟨_, rfl, rfl⟩
  | netlink now later newaddr =>
      obtain ⟨redirects, update⟩ := threadMobility_types memory.config
        memory.mobility now later newaddr memory.count memory.nr.cm
      rcases List.mem_append.mp member with mo2ph | rvs2ph
      · obtain ⟨nmsg, written, rfl⟩ := List.mem_map.mp mo2ph
        exact ⟨nmsg, rfl, redirects nmsg written⟩
      · obtain ⟨nmsg, written, rfl⟩ := List.mem_map.mp rvs2ph
        exact ⟨nmsg, rfl, update nmsg (Option.mem_toList.mp written)⟩
  | dhcp message =>
      simp only [Memory.input] at member
      split at member <;> cases member
  | dns nm => cases member

theorem gateway_keeps (nid : NID) :
    (daemon options .gateway capacity).Keeps Input.WellFormed
      (fun memory => memory.config.nid = nid) gatewayFits :=
  { turn_holds := fun _ same _ =>
      (congrArg Configuration.nid (turn_config _ _ _ _ _)).trans same
    turn_fits := fun reads _ => gateway_turn_fits options capacity reads
    input_holds := fun _ same _ => (input_nid _ _ _).trans same
    input_fits := fun takes _ => gateway_input_fits options capacity takes }

abbrev GatewayStage {γ : Type} (source : Pipe) (carryIn : Parcel → List γ)
    (target : Pipe) (carryOut : Parcel → List γ) (worker : Thread) : Prop :=
  ∀ nid, ThreadNetwork.Stage (daemonLayers options .gateway capacity)
    (fun memory => memory.config.nid = nid) gatewayFits source carryIn target
    carryOut worker

theorem threadControlGw_full (now : Timeval) (nmsg : NidMsg)
    (buf : NmsgBuffer) (cm : ConnMapper) :
    (threadControlGw now (nidMsgCodec.encode nmsg) buf cm).co2gwl =
      if nmsg.type = .registry then some nmsg else none := by
  simp only [threadControlGw, nmsg_receive_full]
  cases nmsg.type <;> rfl

theorem stage_controlGw : GatewayStage options capacity .ph2co
    Parcel.registrations .co2gwl Parcel.messages .controlGw := by
  intro nid
  apply daemon_stage options capacity (by decide) (by decide)
    (fun input => by cases input <;> rfl)
  · intro memory now message _ fits
    obtain ⟨nmsg, full⟩ := fits
    simp only [Memory.turn, Memory.controlGwTurn, full, threadControlGw_full,
      Parcel.registrations, Parcel.control, MsgType.IsRegistry,
      nmsg_of_full full]
    split
    · simp [ThreadNetwork.Move.put, Pipe.nmsg, Parcel.messages, nmsg_encode]
    · rfl
  · intro memory other now message different reads _
    cases other with
    | ph2co => exact (different rfl).elim
    | _ => cases reads

theorem stage_gwListener : GatewayStage options capacity .co2gwl
    Parcel.messages .gwl2gwt Parcel.messages .gwListener := by
  intro nid
  apply daemon_stage options capacity (by decide) (by decide)
    (fun input => by cases input <;> rfl)
  · intro memory now message _ fits
    obtain ⟨nmsg, full⟩ := fits
    simp [ThreadNetwork.Move.put, Memory.turn, Memory.gwListenerTurn,
      Pipe.nmsg, Parcel.messages, nmsg_encode, threadGwListener,
      nmsg_of_full full, full, nidMsgCodec.decode_encode]
  · intro memory other now message different reads _
    cases other with
    | co2gwl => exact (different rfl).elim
    | _ => cases reads

theorem threadPhOutput_talker (nmsg : NidMsg) (nm : NidMapper)
    (ph : PhOutput) :
    ((threadPhOutput .gwt2ph (nidMsgCodec.encode nmsg) nm ph).2.map fun sent =>
        frame sent.header sent.payload) = some (talkerFrame nmsg) := by
  have payload : (ph.read (nidMsgCodec.encode nmsg)).pt.bytes.take
      (Buffer.received payloadLen (nidMsgCodec.encode nmsg)) =
        nidMsgCodec.encode nmsg := by
    refine (ph.pt.take_received _).trans ?_
    apply List.take_of_length_le
    rw [nidMsgCodec.length_encode]
    decide
  simp only [threadPhOutput, phOutputTalker, PhOutput.frame, nmsg_read_full,
    payload, Option.map_some, talkerFrame]

theorem stage_talked : GatewayStage options capacity .gwt2ph Parcel.talked
    .ph2nr Parcel.registryFrames .phOutput := by
  intro nid
  have other : ∀ {header : NidHeader}, ¬ header.type.IsRegistry →
      ∀ payload, (Parcel.datagram (frame header payload)).registryFrames =
        [] := by
    intro header unlike payload
    rw [Parcel.registryFrames, Parcel.bytes, header_frame, if_neg unlike]
  apply daemon_stage options capacity (by decide) (by decide)
    (fun input => by cases input <;> rfl)
  · intro memory now message _ fits
    obtain ⟨nmsg, full, type⟩ := fits
    obtain ⟨sent, out, whole⟩ := Option.map_eq_some_iff.mp
      (threadPhOutput_talker nmsg memory.nm memory.ph)
    have registry : nmsg.type.IsRegistry := type
    simp only [Memory.turn, Pipe.phSource, Memory.phOutputTurn, full, out]
    rw [put_toList .ph2nr Parcel.registryFrames fun sent : PhOutput.Frame =>
      .datagram (frame sent.header sent.payload)]
    rw [Option.toList_some, List.flatMap_singleton, whole, Parcel.talked,
      Parcel.control, nmsg_of_full full, if_pos registry, talkerFrame,
      Parcel.registryFrames, Parcel.bytes, header_frame, if_pos registry]
  · intro memory pipe now message different reads fits
    have control : ∀ {branch : PhSource} {nmsg : NidMsg}, branch ≠ .nf2ph →
        message.bytes = nidMsgCodec.encode nmsg → ¬ nmsg.type.IsRegistry →
        ThreadNetwork.Move.put Parcel.registryFrames .ph2nr
          ⟨none, (memory.phOutputTurn branch message.bytes).2⟩ = [] := by
      intro branch nmsg isControl full unlike
      obtain ⟨header, same, out⟩ := phOutput_control isControl full memory
      rw [out]
      simp only [ThreadNetwork.Move.put, List.flatMap_singleton, if_true]
      exact other (same ▸ unlike) _
    cases pipe with
    | gwt2ph => exact (different rfl).elim
    | nf2ph =>
        simp only [Memory.turn, Pipe.phSource, Memory.phOutputTurn,
          threadPhOutput]
        rw [put_toList]
        apply List.flatMap_eq_nil_iff.mpr
        intro sent out
        apply other
        rw [phOutputData_type (Option.mem_toList.mp out)]
        decide
    | rvs2ph | mo2ph =>
        obtain ⟨nmsg, full, type⟩ := fits
        refine control (by decide) full ?_
        rw [type]
        decide
    | _ => cases reads

/-- What a turn of the talker announces is said with the configuration of that
moment. -/
def talkConfig (memory : Memory) : DaemonEvent → List Configuration
  | .read thread _ _ => if thread = .gwTalker then [memory.config] else []
  | _ => []

/-- The configurations of the daemon at the turns of its talker. -/
def talkConfigs (s : DaemonState) : List DaemonEvent → List Configuration
  | [] => []
  | event :: events =>
      talkConfig s.memory event ++
        match (daemon options .gateway capacity).step s event with
        | some (next, _) => talkConfigs next events
        | none => []

theorem talk_step {s next : DaemonState} {event : DaemonEvent}
    {move : DaemonMove} {Holds : Memory → Prop} (fit : s.Fit Holds gatewayFits)
    (stepped : (daemon options .gateway capacity).step s event =
      some (next, move)) :
    let told := move.got Parcel.messages .gwl2gwt
    let configs := talkConfig s.memory event
    configs.length = told.length ∧
      move.put Parcel.talked .gwt2ph =
        List.zipWith announcementFrame configs told := by
  have carrier := daemon_carrier options capacity Parcel.talked
    (by decide : ∀ thread ∈ mainThreads ⟨true, true, true⟩ .gateway,
      thread.writes .gwt2ph = true → thread = .gwTalker)
  cases event with
  | input thread input =>
      obtain ⟨_, _, takes, _, rfl⟩ := ThreadNetwork.step_input stepped
      have others : thread ≠ .gwTalker := by
        intro here
        subst here
        cases (daemon_takes options capacity takes).2
      exact ⟨rfl, ThreadNetwork.flatMap_silent
        (carrier.input thread input s.memory others takes)⟩
  | write thread =>
      obtain ⟨_, _, _, _, _, _, _, rfl⟩ := ThreadNetwork.step_write stepped
      exact ⟨rfl, rfl⟩
  | read thread source now =>
      obtain ⟨_, _, reads, message, rest, front, _, rfl⟩ :=
        ThreadNetwork.step_read stepped
      have fits : gatewayFits source message := by
        apply fit.queue source message
        rw [front]
        exact List.mem_cons_self
      by_cases talker : thread = .gwTalker
      · subst talker
        have reads := (daemon_reads options .gateway capacity reads).2
        cases source with
        | rvs2gwt => exact fits.elim
        | gwl2gwt =>
            obtain ⟨nmsg, full⟩ := fits
            refine ⟨rfl, ?_⟩
            simp [ThreadNetwork.Move.put, ThreadNetwork.Move.got, daemon,
              Memory.turn, Pipe.nmsg, Parcel.messages, Parcel.talked,
              Parcel.control, MsgType.IsRegistry, nmsg_encode, talkConfig,
              threadGwTalker, announcementFrame, nmsg_of_full full, full,
              nidMsgCodec.decode_encode]
        | _ => cases reads
      · have elsewhere : source ≠ .gwl2gwt := by
          intro here
          subst here
          exact talker (daemon_reader options capacity (by decide) reads)
        have nothing : ThreadNetwork.Move.got Parcel.messages .gwl2gwt
            ⟨some (source, message),
              (s.memory.turn thread source now message).2⟩ = [] :=
          if_neg elsewhere
        have silent : talkConfig s.memory (.read thread source now) = [] :=
          if_neg talker
        have quiet := ThreadNetwork.flatMap_silent
          (carrier.turn thread source now message s.memory talker reads)
        refine ⟨?_, ?_⟩
        · exact (congrArg List.length silent).trans
            (congrArg List.length nothing).symm
        · refine Eq.trans quiet ?_
          rw [silent]
          rfl

theorem talk_run {nid : NID} {start s : DaemonState}
    {events : List DaemonEvent} {moves : List DaemonMove}
    (fit : start.Fit (fun memory => memory.config.nid = nid) gatewayFits)
    (formed : ∀ event ∈ events, event.Admits Input.WellFormed)
    (run : (daemon options .gateway capacity).machine.Run start events moves
      s) (later : List DaemonEvent) :
    let told := moves.flatMap (ThreadNetwork.Move.got Parcel.messages .gwl2gwt)
    ∃ configs, talkConfigs options capacity start (events ++ later) =
        configs ++ talkConfigs options capacity s later ∧
      configs.length = told.length ∧
      moves.flatMap (ThreadNetwork.Move.put Parcel.talked .gwt2ph) =
        List.zipWith announcementFrame configs told := by
  induction run generalizing later with
  | nil => exact ⟨[], rfl, rfl, rfl⟩
  | @snoc events moves state next event move earlier last ih =>
      have before : ∀ event ∈ events, event.Admits Input.WellFormed :=
        fun event member => formed event (List.mem_append_left _ member)
      obtain ⟨configs, replayed, lengths, said⟩ := ih before (event :: later)
      have fits := (gateway_keeps options capacity nid).run fit before earlier
      obtain ⟨length, here⟩ := talk_step options capacity fits last
      have replay : talkConfigs options capacity state (event :: later) =
          talkConfig state.memory event ++
            talkConfigs options capacity next later := by
        have stepped : (daemon options .gateway capacity).step state event =
            some (next, move) := last
        simp only [talkConfigs, stepped]
      refine ⟨configs ++ talkConfig state.memory event, ?_, ?_, ?_⟩
      · rw [List.append_assoc, List.singleton_append, replayed, replay,
          List.append_assoc]
      · rw [List.flatMap_append, List.flatMap_singleton, List.length_append,
          List.length_append, lengths, length]
      · rw [List.flatMap_append, List.flatMap_append, List.flatMap_singleton,
          List.flatMap_singleton, List.zipWith_append lengths, said, here]

/-- The registrations for a gateway among the datagrams of the network. -/
def ownRegistrations (nid : NID) : DaemonEvent → List NidMsg :=
  ThreadNetwork.Event.entering (ownControl nid MsgType.IsRegistry id)

/-- The registrations of its own a gateway sends: those in the frames it sends
for what comes from the packet handler, and not in those it only relays. -/
def announcements : DaemonMove → List (List UInt8) :=
  ThreadNetwork.Move.sent Parcel.registryFrames .ph2nr .udp

theorem threadNrOutputGw_sent (source : NrSource) (now : Timeval)
    (datagram : List UInt8) (s : NrOutput) :
    ∃ ip, (threadNrOutputGw source now datagram s).sent =
      some (ip, datagram.take maxBufLen) := by
  cases source with
  | nr =>
      simp only [threadNrOutputGw, NrOutput.packet_read]
      exact ⟨_, rfl⟩
  | ph2nr =>
      simp only [threadNrOutputGw, NrOutput.packet_read]
      split <;> exact ⟨_, rfl⟩

theorem nrOutputGw_puts (source : NrSource) (now : Timeval)
    (datagram : List UInt8) (memory : Memory) {γ : Type}
    (carry : Parcel → List γ) :
    ∃ ip, ThreadNetwork.Move.put carry .udp
        ⟨none, (memory.nrOutputTurn .nrOutputGw source now datagram).2⟩ =
      carry (.sendto ip (datagram.take maxBufLen)) := by
  obtain ⟨ip, sent⟩ := threadNrOutputGw_sent source now datagram memory.nr
  refine ⟨ip, ?_⟩
  simp only [Memory.nrOutputTurn, Thread.nrTurn, sent]
  rw [put_append, put_append, put_elsewhere (by decide),
    put_elsewhere (by decide)]
  simp [ThreadNetwork.Move.put]

theorem registryFrames_take {datagram : List UInt8}
    (formed : WellFormed datagram) :
    (Parcel.datagram (datagram.take maxBufLen)).registryFrames =
      (Parcel.datagram datagram).registryFrames := by
  obtain ⟨header, payload, rfl, full⟩ := formed
  simp only [frame_take, Parcel.registryFrames, Parcel.bytes, header_frame]
  by_cases registry : header.type.IsRegistry
  · obtain ⟨nmsg, rfl, _⟩ := full registry.forControl
    rw [nmsg_encode_take nmsg (by decide)]
  · rw [if_neg registry, if_neg registry]

theorem outlet_announcements (nid : NID) :
    (daemon options .gateway capacity).Outlet
      (fun memory => memory.config.nid = nid) gatewayFits .ph2nr
      Parcel.registryFrames .udp Parcel.registryFrames .nrOutputGw := by
  constructor
  · exact daemon_reader options capacity (by decide)
  · intro memory now message _ fits
    obtain ⟨ip, put⟩ := nrOutputGw_puts .ph2nr now.now message.bytes memory
      Parcel.registryFrames
    exact put.trans (registryFrames_take fits)

/-- The listener stores the route of each registration it reads, and no other
thread stores any. -/
theorem routes_step {s next : DaemonState} {event : DaemonEvent}
    {move : DaemonMove}
    (stepped : (daemon options .gateway capacity).step s event =
      some (next, move)) :
    RoutesWritten s.memory.nr.rt next.memory.nr.rt
      (move.got Parcel.messages .co2gwl) := by
  cases event with
  | input thread input =>
      obtain ⟨_, _, _, rfl, rfl⟩ := ThreadNetwork.step_input stepped
      have same : (s.memory.input thread input).1.nr.rt = s.memory.nr.rt := by
        cases input with
        | dhcp message =>
            simp only [Memory.input]
            split <;> rfl
        | _ => rfl
      exact ⟨[], same, rfl⟩
  | write thread =>
      obtain ⟨_, _, _, _, _, _, rfl, rfl⟩ := ThreadNetwork.step_write stepped
      exact .refl _
  | read thread source now =>
      obtain ⟨_, _, reads, message, _, _, rfl, rfl⟩ :=
        ThreadNetwork.step_read stepped
      have others : ∀ {after : RoutingTable} {writes : List (Pipe × Parcel)},
          thread ≠ .gwListener → RoutesWritten s.memory.nr.rt after [] →
          RoutesWritten s.memory.nr.rt after (ThreadNetwork.Move.got
            Parcel.messages .co2gwl ⟨some (source, message), writes⟩) := by
        intro after writes different kept
        have elsewhere : source ≠ .co2gwl := by
          intro here
          subst here
          exact different (daemon_reader options capacity (by decide) reads)
        have nothing : ThreadNetwork.Move.got Parcel.messages .co2gwl
            ⟨some (source, message), writes⟩ = [] := if_neg elsewhere
        rwa [nothing]
      obtain ⟨runs, waits⟩ := gateway_reads options capacity reads
      simp only [List.mem_cons, List.not_mem_nil, or_false] at runs
      rcases runs with rfl | rfl | rfl | rfl | rfl | rfl
      · have same : (s.memory.turn .phOutput source now message).1.nr.rt =
            s.memory.nr.rt := by
          simp only [Memory.turn]
          split <;> rfl
        exact others (by decide) ⟨[], same, rfl⟩
      · exact others (by decide) (.refl _)
      · have looked : ∀ branch, RoutesWritten s.memory.nr.rt
            (s.memory.nrOutputTurn .nrOutputGw branch now.now
              message.bytes).1.nr.rt [] :=
          fun branch => threadNrOutputGw_rt branch now.now _ s.memory.nr
        cases source with
        | ph2nr => exact others (by decide) (looked .ph2nr)
        | nr => exact others (by decide) (looked .nr)
        | _ => cases waits
      · exact others (by decide) (.refl _)
      · exact others (by decide) (.refl _)
      · cases source with
        | co2gwl =>
            exact ⟨[.newRT now.now message.nmsg.nid message.nmsg.ip], rfl, rfl⟩
        | _ => cases waits

theorem routes_run {start s : DaemonState} {events : List DaemonEvent}
    {moves : List DaemonMove}
    (run : (daemon options .gateway capacity).machine.Run start events moves
      s) :
    RoutesWritten start.memory.nr.rt s.memory.nr.rt
      (moves.flatMap (ThreadNetwork.Move.got Parcel.messages .co2gwl)) := by
  induction run with
  | nil => exact .refl _
  | snoc _ last ih =>
      rw [List.flatMap_append, List.flatMap_singleton]
      exact ih.trans (routes_step options capacity last)

end Gateway

section Example

private def between : Configuration :=
  .sample .gateway (NID.ofNat 1)

private def few : MainOptions := ⟨false, false, false⟩

private def passage : ThreadNetwork Thread Pipe Parcel Moment Input Memory :=
  daemon few .gateway (fun _ => 1)

private def registration : NidMsg :=
  { type := .registry
    srcNID := NID.ofNat 3
    destNID := NID.ofNat 1
    srcNIDgw := NID.ofNat 5
    destNIDgw := NID.zero
    nid := NID.ofNat 9
    ip := NID32.ofNat 90 }

private def registryHeader : NidHeader :=
  { type := .registry
    srcNID := NID.ofNat 3
    destNID := NID.ofNat 1
    srcNIDgw := NID.ofNat 5
    destNIDgw := NID.zero }

private def moment : Moment := ⟨.ofSec 100, true, .refused⟩

private def through : List DaemonEvent :=
  [.input .nrInputGw (.arrival (.ofSec 100) (some (frame registryHeader
      (nidMsgCodec.encode registration), NID32.ofNat 90))),
    .write .nrInputGw, .read .phInput .nr2ph moment, .write .phInput,
    .read .controlGw .ph2co moment, .write .controlGw,
    .read .gwListener .co2gwl moment, .write .gwListener,
    .read .gwTalker .gwl2gwt moment, .write .gwTalker,
    .read .phOutput .gwt2ph moment, .write .phOutput,
    .read .nrOutputGw .ph2nr moment, .write .nrOutputGw]

end Example

end NodeIdentity
