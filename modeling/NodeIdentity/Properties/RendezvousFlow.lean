import NodeIdentity.Properties.DaemonFlow

/-!
# Requests and answers through the threads of a rendezvous host

The daemon in front of the rendezvous server.  Requests come in by the input
thread and leave for the server through four more threads.  An answer of the
server goes to the packet handler, an acknowledgement a second time through
`thread_rvs2gw`, as a registration at the gateway.  All of these ways keep the
order.
-/

namespace NodeIdentity

open NodeIdentity.Library

def MsgType.IsRequest (type : MsgType) : Prop :=
  type = .rvsUpdate ∨ type = .rvsGet

instance : DecidablePred MsgType.IsRequest :=
  fun type => inferInstanceAs (Decidable (type = .rvsUpdate ∨ type = .rvsGet))

theorem MsgType.IsRequest.forControl {type : MsgType}
    (request : type.IsRequest) : type.ForControl := by
  rcases request with rfl | rfl <;> trivial

def MsgType.IsAnswer (type : MsgType) : Prop :=
  type = .rvsAck ∨ type = .rvsResponse

instance : DecidablePred MsgType.IsAnswer :=
  fun type => inferInstanceAs (Decidable (type = .rvsAck ∨ type = .rvsResponse))

/-- The message `thread_rvs_proxy_send` has made an `RVS_msg` of. -/
def RvsMsg.nmsg (rvs_msg : RvsMsg) : NidMsg :=
  { type := rvs_msg.type
    srcNID := rvs_msg.srcNID
    destNID := rvs_msg.destNID
    srcNIDgw := rvs_msg.srcNIDgw
    destNIDgw := rvs_msg.destNIDgw
    nid := rvs_msg.nid
    ip := rvs_msg.ip }

namespace Parcel

def asked (parcel : Parcel) : List NidMsg :=
  [(rvsMsgCodec.decode parcel.bytes).nmsg]

end Parcel

/-- What `thread_rvs_proxy_recv` passes on. -/
def Input.replies : Input → List NidMsg
  | .reply rvs_msg => [(threadRvsProxyRecv rvs_msg).rvs2ph]
  | _ => []

def Input.answers (input : Input) : List NidMsg :=
  input.replies.filter fun nmsg => decide nmsg.type.IsAnswer

/-- The registrations which the acknowledgements among some answers lead to. -/
def registrationsFor (config : Configuration) (answers : List NidMsg) :
    List NidMsg :=
  (answers.filter (·.type = .rvsAck)).map (threadRvs2gw config)

/-- Frames are well formed, and what comes in place of the server's replies is
of some types. -/
def Input.Served (allowed : MsgType → Prop) : Input → Prop
  | .reply rvs_msg => allowed rvs_msg.type
  | input => input.WellFormed

/-- What the threads of a rendezvous host rely on in what they read. -/
def rvsFits (allowed : MsgType → Prop) (pipe : Pipe) (parcel : Parcel) :
    Prop :=
  match pipe with
  | .nr2ph | .ph2nr => WellFormed parcel.bytes
  | .ph2co => ∃ nmsg, parcel.bytes = nidMsgCodec.encode nmsg
  | .co2rvs =>
      ∃ nmsg, parcel.bytes = nidMsgCodec.encode nmsg ∧ nmsg.type.IsRequest
  | .rvs2ph =>
      ∃ nmsg, parcel.bytes = nidMsgCodec.encode nmsg ∧
        (nmsg.type = .rvsUpdate ∨ allowed nmsg.type)
  | .rvs2gwt => ∃ nmsg, parcel.bytes = nidMsgCodec.encode nmsg
  | .gwt2ph =>
      ∃ nmsg, parcel.bytes = nidMsgCodec.encode nmsg ∧ nmsg.type = .registry
  | .mo2ph => False
  | .rvs =>
      ∃ nmsg, parcel.bytes = rvsMsgCodec.encode (threadRvsProxySend nmsg) ∧
        nmsg.type.IsRequest
  | _ => True

theorem threadControlRvs_full (now : Timeval) (nmsg : NidMsg)
    (buf : NmsgBuffer) (cm : ConnMapper) :
    (threadControlRvs now (nidMsgCodec.encode nmsg) buf cm).co2rvs =
      if nmsg.type.IsRequest then some nmsg else none := by
  simp only [threadControlRvs, nmsg_receive_full, MsgType.IsRequest]
  cases nmsg.type <;> rfl

section Rvs

variable (options : MainOptions) (capacity : Pipe → Nat)
  {allowed : MsgType → Prop}

theorem rvs_reads {memory : Memory} {thread : Thread} {pipe : Pipe}
    (reads : (daemon options .rvs capacity).reads memory thread pipe = true) :
    thread ∈ [.phOutput, .phInput, .nrOutput, .rvsProxySend, .controlRvs,
      .rvs2gw] ∧ thread.reads pipe = true := by
  obtain ⟨runs, reads⟩ := daemon_reads options .rvs capacity reads
  have all := (mainThreads_between options .rvs).2 runs
  refine ⟨?_, reads⟩
  cases thread with
  | phOutput | phInput | nrOutput | rvsProxySend | controlRvs | rvs2gw =>
      decide
  | nidfilter | nrInput | rvsProxyRecv | rvsUpdate | dnshandler => cases reads
  | _ => exact absurd all (by decide)

theorem rvs_turn_fits {memory : Memory} {thread : Thread} {pipe : Pipe}
    {moment : Moment} {parcel : Parcel} {write : Pipe × Parcel}
    (reads : (daemon options .rvs capacity).reads memory thread pipe = true)
    (fits : rvsFits allowed pipe parcel)
    (member : write ∈ (memory.turn thread pipe moment parcel).2) :
    rvsFits allowed write.1 write.2 := by
  obtain ⟨runs, reads⟩ := rvs_reads options capacity reads
  simp only [List.mem_cons, List.not_mem_nil, or_false] at runs
  rcases runs with rfl | rfl | rfl | rfl | rfl | rfl
  · have full : pipe = .nf2ph ∨
        ∃ nmsg, parcel.bytes = nidMsgCodec.encode nmsg := by
      cases pipe with
      | nf2ph => exact .inl rfl
      | rvs2ph | gwt2ph =>
          obtain ⟨nmsg, full, _⟩ := fits
          exact .inr ⟨nmsg, full⟩
      | mo2ph => exact fits.elim
      | _ => cases reads
    obtain ⟨target, formed⟩ := phOutput_fits full member
    rw [target]
    exact formed
  · cases pipe with
    | nr2ph =>
        rcases phInput_fits fits member with raw | ⟨target, full⟩
        · rw [raw]
          trivial
        · rw [target]
          exact full
    | _ => cases reads
  · have out := Memory.turn_writes member
    cases write with
    | mk target sent =>
        cases target with
        | cm2rvs | udp => trivial
        | _ => cases out
  · cases pipe with
    | co2rvs =>
        obtain ⟨nmsg, full, request⟩ := fits
        cases List.mem_singleton.mp member
        refine ⟨nmsg, ?_, request⟩
        rw [full, nidMsgCodec.decode_encode]
        rfl
    | _ => cases reads
  · cases pipe with
    | ph2co =>
        obtain ⟨nmsg, full⟩ := fits
        simp only [Memory.turn, Memory.controlRvsTurn, full,
          threadControlRvs_full] at member
        obtain ⟨handed, out, rfl⟩ := List.mem_map.mp member
        split at out
        · next request =>
            cases Option.mem_toList.mp out
            exact ⟨nmsg, rfl, request⟩
        · cases out
    | _ => cases reads
  · simp only [Memory.turn] at member
    cases List.mem_singleton.mp member
    exact ⟨_, rfl, rfl⟩

theorem rvs_input_fits {memory : Memory} {thread : Thread} {input : Input}
    {write : Pipe × Parcel}
    (takes : (daemon options .rvs capacity).takes memory thread input = true)
    (served : input.Served allowed)
    (member : write ∈ (memory.input thread input).2) :
    rvsFits allowed write.1 write.2 := by
  obtain ⟨runs, takes⟩ := daemon_takes options capacity takes
  cases input with
  | packet datagram =>
      cases List.mem_singleton.mp member
      trivial
  | arrival now arrival =>
      rcases arrival_fits served member with ⟨target, own⟩ | others
      · rw [target]
        exact own
      · rw [others]
        trivial
  | reply rvs_msg =>
      rcases List.mem_cons.mp member with rfl | acknowledged
      · exact ⟨_, rfl, .inr served⟩
      · obtain ⟨nmsg, _, rfl⟩ := List.mem_map.mp acknowledged
        exact ⟨nmsg, rfl⟩
  | timer =>
      cases List.mem_singleton.mp member
      exact ⟨_, rfl, .inl rfl⟩
  | netlink now later newaddr =>
      cases thread with
      | mobility => exact absurd runs (by decide)
      | _ => cases takes
  | dhcp message =>
      cases thread with
      | dhcp => exact absurd runs (by decide)
      | _ => cases takes
  | dns nm => cases member

theorem rvs_keeps (allowed : MsgType → Prop) (config : Configuration) :
    (daemon options .rvs capacity).Keeps (Input.Served allowed)
      (fun memory => memory.config = config) (rvsFits allowed) :=
  { turn_holds := fun _ same _ => (turn_config _ _ _ _ _).trans same
    turn_fits := fun reads _ => rvs_turn_fits options capacity reads
    input_holds := fun takes same _ => by
      obtain ⟨runs, takes⟩ := daemon_takes options capacity takes
      have other : ∀ thread ∈ mainThreads ⟨true, true, true⟩ .rvs,
          thread ≠ .dhcp := by decide
      exact (input_config (other _ runs) takes _).trans same
    input_fits := fun takes _ => rvs_input_fits options capacity takes }

abbrev RvsStage (allowed : MsgType → Prop) (config : Configuration)
    (source : Pipe) (carryIn : Parcel → List NidMsg) (target : Pipe)
    (carryOut : Parcel → List NidMsg) (worker : Thread) : Prop :=
  ThreadNetwork.Stage (daemonLayers options .rvs capacity)
    (fun memory => memory.config = config) (rvsFits allowed) source carryIn
    target carryOut worker

variable (allowed) (config : Configuration)

theorem stage_controlRvs : RvsStage options capacity allowed config .ph2co
    (Parcel.control MsgType.IsRequest id) .co2rvs Parcel.messages
    .controlRvs := by
  apply daemon_stage options capacity (by decide) (by decide)
    (fun input => by cases input <;> rfl)
  · intro memory now message _ fits
    obtain ⟨nmsg, full⟩ := fits
    simp only [Memory.turn, Memory.controlRvsTurn, full, threadControlRvs_full,
      Parcel.control, nmsg_of_full full]
    split
    · simp [ThreadNetwork.Move.put, Pipe.nmsg, Parcel.messages, nmsg_encode]
    · rfl
  · intro memory other now message different reads _
    cases other with
    | ph2co => exact (different rfl).elim
    | _ => cases reads

theorem stage_rvsProxySend : RvsStage options capacity allowed config .co2rvs
    Parcel.messages .rvs Parcel.asked .rvsProxySend := by
  apply daemon_stage options capacity (by decide) (by decide)
    (fun input => by cases input <;> rfl)
  · intro memory now message _ _
    have written : (memory.turn .rvsProxySend .co2rvs now message).2 =
        [(.rvs, .datagram (rvsMsgCodec.encode
          (threadRvsProxySend message.nmsg)))] := rfl
    rw [written]
    simp only [ThreadNetwork.Move.put, List.flatMap_singleton, if_true,
      Parcel.asked, Parcel.bytes, FixedCodec.decode_encode]
    rfl
  · intro memory other now message different reads _
    cases other with
    | co2rvs => exact (different rfl).elim
    | _ => cases reads

theorem put_reply {γ : Type} (carry : Parcel → List γ) (thread : Thread)
    (rvs_msg : RvsMsg) (memory : Memory) :
    let turn := threadRvsProxyRecv rvs_msg
    let writes := (memory.input thread (.reply rvs_msg)).2
    ThreadNetwork.Move.put carry .rvs2ph ⟨none, writes⟩ =
        carry (.datagram (nidMsgCodec.encode turn.rvs2ph)) ∧
      ThreadNetwork.Move.put carry .rvs2gwt ⟨none, writes⟩ =
        turn.rvs2gwt.toList.flatMap fun nmsg =>
          carry (.datagram (nidMsgCodec.encode nmsg)) := by
  intro turn writes
  have split : writes = [Pipe.nmsg .rvs2ph turn.rvs2ph] ++
      turn.rvs2gwt.toList.map (Pipe.nmsg .rvs2gwt) := rfl
  constructor
  · rw [split, put_append]
    have elsewhere := put_elsewhere (by decide : Pipe.rvs2gwt ≠ .rvs2ph) carry
      (fun nmsg => .datagram (nidMsgCodec.encode nmsg)) turn.rvs2gwt
    refine (congrArg (_ ++ ·) elsewhere).trans ?_
    simp [ThreadNetwork.Move.put, Pipe.nmsg]
  · rw [split, put_append]
    exact put_toList .rvs2gwt carry
      (fun nmsg => .datagram (nidMsgCodec.encode nmsg)) turn.rvs2gwt

theorem carrier_answers : (daemon options .rvs capacity).SoleCarrier
    (Parcel.control MsgType.IsAnswer id) .rvsProxyRecv .rvs2ph := by
  constructor
  · intro thread pipe moment parcel memory _ reads write member here
    have writes := Memory.turn_writes member
    obtain ⟨runs, _⟩ := rvs_reads options capacity reads
    rw [here] at writes
    have quiet : ∀ thread ∈ [Thread.phOutput, .phInput, .nrOutput,
        .rvsProxySend, .controlRvs, .rvs2gw],
        thread.writes .rvs2ph = false := by
      decide
    cases (quiet thread runs).symm.trans writes
  · intro thread input memory other takes write member here
    obtain ⟨runs, takes⟩ := daemon_takes options capacity takes
    have writes := Memory.input_writes takes member
    rw [here] at writes
    cases thread with
    | rvsUpdate =>
        cases input with
        | timer =>
            cases List.mem_singleton.mp member
            rw [Pipe.nmsg, Parcel.control, nmsg_encode]
            exact if_neg (by rintro (type | type) <;> cases type)
        | _ => cases takes
    | rvsProxyRecv => exact (other rfl).elim
    | rvsGet | mobility => exact absurd runs (by decide)
    | _ => cases writes

theorem inlet_answers : (daemon options .rvs capacity).Inlet
    (Input.Served allowed) (fun memory => memory.config = config)
    Input.answers .rvs2ph (Parcel.control MsgType.IsAnswer id)
    .rvsProxyRecv := by
  constructor
  · exact carrier_answers options capacity
  · intro memory pipe
    simp only [daemon, Thread.reads, Bool.and_false]
  · intro memory input takes _ served
    have waits := (daemon_takes options capacity takes).2
    cases input with
    | reply rvs_msg =>
        have put := (put_reply (Parcel.control MsgType.IsAnswer id)
          .rvsProxyRecv rvs_msg memory).1
        refine put.trans ?_
        rw [Parcel.control, nmsg_encode, Input.answers, Input.replies,
          List.filter_singleton, cond_eq_ite]
        simp only [decide_eq_true_eq, id]
    | _ => cases waits
  · intro memory other input different takes
    have waits := (daemon_takes options capacity takes).2
    cases input with
    | reply rvs_msg =>
        cases other with
        | rvsProxyRecv => exact (different rfl).elim
        | _ => cases waits
    | _ => rfl

/-- An acknowledgement as `thread_rvs2gw` passes it on. -/
def Parcel.forGateway (config : Configuration) (parcel : Parcel) :
    List NidMsg :=
  [threadRvs2gw config parcel.nmsg]

def Input.registrations (config : Configuration) (input : Input) :
    List NidMsg :=
  registrationsFor config input.replies

theorem inlet_registrations : (daemon options .rvs capacity).Inlet
    (Input.Served allowed) (fun memory => memory.config = config)
    (Input.registrations config) .rvs2gwt (Parcel.forGateway config)
    .rvsProxyRecv := by
  constructor
  · exact daemon_carrier options capacity _ (by decide)
  · intro memory pipe
    simp only [daemon, Thread.reads, Bool.and_false]
  · intro memory input takes _ _
    have waits := (daemon_takes options capacity takes).2
    cases input with
    | reply rvs_msg =>
        have put := (put_reply (Parcel.forGateway config) .rvsProxyRecv
          rvs_msg memory).2
        refine put.trans ?_
        simp only [Input.registrations, Input.replies, registrationsFor]
        by_cases ack : (threadRvsProxyRecv rvs_msg).rvs2ph.type = .rvsAck
        · have twice : (threadRvsProxyRecv rvs_msg).rvs2gwt =
              some (threadRvsProxyRecv rvs_msg).rvs2ph := if_pos ack
          rw [twice]
          simp [Parcel.forGateway, nmsg_encode, ack]
        · have once : (threadRvsProxyRecv rvs_msg).rvs2gwt = none := if_neg ack
          rw [once]
          simp [ack]
    | _ => cases waits
  · intro memory other input different takes
    have waits := (daemon_takes options capacity takes).2
    cases input with
    | reply rvs_msg =>
        cases other with
        | rvsProxyRecv => exact (different rfl).elim
        | _ => cases waits
    | _ => rfl

theorem stage_rvs2gw : RvsStage options capacity allowed config .rvs2gwt
    (Parcel.forGateway config) .gwt2ph
    (Parcel.control MsgType.IsRegistry id) .rvs2gw := by
  apply daemon_stage options capacity (by decide) (by decide)
    (fun input => by cases input <;> rfl)
  · intro memory now message same fits
    obtain ⟨nmsg, full⟩ := fits
    subst same
    have written : (memory.turn .rvs2gw .rvs2gwt now message).2 =
        [Pipe.nmsg .gwt2ph (threadRvs2gw memory.config message.nmsg)] := rfl
    rw [written]
    simp only [ThreadNetwork.Move.put, List.flatMap_singleton, Pipe.nmsg,
      if_true, Parcel.control, nmsg_encode, id, Parcel.forGateway]
    exact if_pos rfl
  · intro memory other now message different reads _
    cases other with
    | rvs2gwt => exact (different rfl).elim
    | _ => cases reads

theorem stage_answers : RvsStage options capacity allowed config .rvs2ph
    (Parcel.control MsgType.IsAnswer id) .ph2nr
    (Parcel.framedControl MsgType.IsAnswer id) .phOutput := by
  apply stage_phOutput options capacity id rfl (by decide) (by decide)
  · intro parcel fits
    obtain ⟨nmsg, full, _⟩ := fits
    exact ⟨nmsg, full⟩
  · intro other parcel different filter reads fits
    cases other with
    | rvs2ph => exact (different rfl).elim
    | nf2ph => exact (filter rfl).elim
    | mo2ph => exact fits.elim
    | gwt2ph =>
        obtain ⟨nmsg, full, type⟩ := fits
        refine ⟨nmsg, full, ?_⟩
        rw [type]
        decide
    | _ => cases reads

theorem stage_registrations (spared : ¬ allowed .registry) :
    RvsStage options capacity allowed config .gwt2ph
      (Parcel.control MsgType.IsRegistry id) .ph2nr
    (Parcel.framedControl MsgType.IsRegistry id) .phOutput := by
  apply stage_phOutput options capacity id rfl (by decide) (by decide)
  · intro parcel fits
    obtain ⟨nmsg, full, _⟩ := fits
    exact ⟨nmsg, full⟩
  · intro other parcel different filter reads fits
    cases other with
    | gwt2ph => exact (different rfl).elim
    | nf2ph => exact (filter rfl).elim
    | mo2ph => exact fits.elim
    | rvs2ph =>
        obtain ⟨nmsg, full, type⟩ := fits
        refine ⟨nmsg, full, ?_⟩
        rcases type with type | type
        · rw [type]
          decide
        · intro registry
          rw [registry] at type
          exact spared type
    | _ => cases reads

theorem stage_nrOutput {kinds : MsgType → Prop} [DecidablePred kinds]
    (control : ∀ type, kinds type → type.ForControl) :
    RvsStage options capacity allowed config .ph2nr
      (Parcel.framedControl kinds id) .udp (Parcel.framedControl kinds id)
      .nrOutput := by
  apply daemon_stage options capacity (by decide) (by decide)
    (fun input => by cases input <;> rfl)
  · intro memory now message _ fits
    have put : ThreadNetwork.Move.put (Parcel.framedControl kinds id) .udp
        ⟨none, (memory.turn .nrOutput .ph2nr now message).2⟩ =
          (Parcel.datagram (message.bytes.take maxBufLen)).framedControl kinds
            id := by
      simp only [Memory.turn, Pipe.nrSource, Memory.nrOutputTurn,
        Thread.nrTurn, threadNrOutput, NrOutput.packet_read]
      rw [put_append, put_append, put_elsewhere (by decide),
        put_elsewhere (by decide)]
      simp only [ThreadNetwork.Move.put, Option.toList_some, List.map_cons,
        List.map_nil, List.flatMap_singleton, if_true, List.nil_append]
      rfl
    rw [put]
    exact framedControl_take id control fits
  · intro memory other now message different reads _
    cases other with
    | ph2nr => exact (different rfl).elim
    | _ => cases reads

theorem exit_unread {pipe : Pipe} (exit : pipe.isExit = true)
    (memory : Memory) (thread : Thread) :
    (daemon options .rvs capacity).reads memory thread pipe = false := by
  have silent : thread.reads pipe = false := by
    cases reads : thread.reads pipe with
    | false => rfl
    | true =>
        have inside := Thread.height_pos reads
        cases pipe with
        | udp | raw | rvs => cases inside
        | _ => cases exit
  simp only [daemon, silent, Bool.and_false]

variable {allowed} {memory : Memory} {s : DaemonState}
  {events : List DaemonEvent} {moves : List DaemonMove}

/-- The messages which have left the host, of one kind: those which went into
the pipe of the output thread, in the same order. -/
theorem udp_of_ph2nr {kinds : MsgType → Prop} [DecidablePred kinds]
    (control : ∀ type, kinds type → type.ForControl)
    (served : ∀ event ∈ events, event.Admits (Input.Served allowed))
    (run : (daemon options .rvs capacity).machine.Run (bootState memory)
      events moves s) :
    (s.queue .udp).flatMap (Parcel.framedControl kinds id) <+:
        moves.flatMap (ThreadNetwork.Move.put
          (Parcel.framedControl kinds id) .ph2nr) ∧
      ((daemon options .rvs capacity).Drained s →
        (s.queue .udp).flatMap (Parcel.framedControl kinds id) =
          moves.flatMap (ThreadNetwork.Move.put
            (Parcel.framedControl kinds id) .ph2nr)) := by
  have fit : (bootState memory).Fit
      (fun other => other.config = memory.config) (rvsFits allowed) :=
    ThreadNetwork.fit_of_empty rfl ⟨fun _ => rfl, fun _ => rfl⟩
  have ph2nr := daemon_pipe options capacity .nrOutput
    (daemon_carrier options capacity (Parcel.framedControl kinds id)
      (by decide : ∀ thread ∈ mainThreads ⟨true, true, true⟩ .rvs,
        thread.writes .ph2nr = true → thread = .phOutput))
    (by decide) (by decide) run
  have sent := (stage_nrOutput options capacity allowed memory.config
    control).run (rvs_keeps options capacity allowed _) fit served run
  have udp := ThreadNetwork.queue_prefix_put
    (daemon_carrier options capacity (Parcel.framedControl kinds id)
      (by decide : ∀ thread ∈ mainThreads ⟨true, true, true⟩ .rvs,
        thread.writes .udp = true → thread = .nrOutput))
    ⟨rfl, fun _ => rfl⟩ (exit_unread options capacity rfl) run
  rw [sent] at udp
  exact ⟨udp.1.trans ph2nr.1, fun drained =>
    (udp.2 (drained.1 .nrOutput)).trans (ph2nr.2 drained)⟩

theorem Input.Served.wellFormed {allowed : MsgType → Prop} {input : Input}
    (served : input.Served allowed) : input.WellFormed := by
  cases input with
  | reply rvs_msg => trivial
  | _ => exact served

theorem MsgType.IsAnswer.forControl {type : MsgType} (answer : type.IsAnswer) :
    type.ForControl := by
  rcases answer with rfl | rfl <;> trivial

/-- The requests which have gone to the server are the first of those which
have arrived. -/
theorem requests_pass
    (served : ∀ event ∈ events, event.Admits (Input.Served allowed))
    (run : (daemon options .rvs capacity).machine.Run (bootState memory)
      events moves s) :
    let arrived := events.flatMap (ThreadNetwork.Event.entering
      (ownControl memory.config.nid MsgType.IsRequest id))
    (s.queue .rvs).flatMap Parcel.asked <+: arrived ∧
      ((daemon options .rvs capacity).Drained s →
        (s.queue .rvs).flatMap Parcel.asked = arrived) := by
  intro arrived
  have keeps := rvs_keeps options capacity allowed memory.config
  have fit : (bootState memory).Fit
      (fun other => other.config = memory.config) (rvsFits allowed) :=
    ThreadNetwork.fit_of_empty rfl ⟨fun _ => rfl, fun _ => rfl⟩
  have control : ∀ type, MsgType.IsRequest type → type.ForControl :=
    fun _ => MsgType.IsRequest.forControl
  have entered := (inlet_arrivals options capacity id control
    Input.Served.wellFormed (congrArg Configuration.nid)).run keeps fit served
      run
  have nr2ph := daemon_pipe options capacity .phInput
    (daemon_carrier options capacity (Parcel.framedControl MsgType.IsRequest id)
      (by decide : ∀ thread ∈ mainThreads ⟨true, true, true⟩ .rvs,
        thread.writes .nr2ph = true → thread = .nrInput))
    (by decide) (by decide) run
  have handled := (stage_phInput options capacity id control fun fits =>
    fits).run keeps fit served run
  have ph2co := daemon_pipe options capacity .controlRvs
    (daemon_carrier options capacity (Parcel.control MsgType.IsRequest id)
      (by decide : ∀ thread ∈ mainThreads ⟨true, true, true⟩ .rvs,
        thread.writes .ph2co = true → thread = .phInput))
    (by decide) (by decide) run
  have accepted :=
    (stage_controlRvs options capacity allowed memory.config).run keeps fit
      served run
  have co2rvs := daemon_pipe options capacity .rvsProxySend
    (daemon_carrier options capacity Parcel.messages
      (by decide : ∀ thread ∈ mainThreads ⟨true, true, true⟩ .rvs,
        thread.writes .co2rvs = true → thread = .controlRvs))
    (by decide) (by decide) run
  have asked :=
    (stage_rvsProxySend options capacity allowed memory.config).run keeps fit
      served run
  have rvs := ThreadNetwork.queue_prefix_put
    (daemon_carrier options capacity Parcel.asked
      (by decide : ∀ thread ∈ mainThreads ⟨true, true, true⟩ .rvs,
        thread.writes .rvs = true → thread = .rvsProxySend))
    ⟨rfl, fun _ => rfl⟩ (exit_unread options capacity rfl) run
  rw [entered] at nr2ph
  rw [handled] at ph2co
  rw [accepted] at co2rvs
  rw [asked] at rvs
  constructor
  · exact rvs.1.trans (co2rvs.1.trans (ph2co.1.trans nr2ph.1))
  · intro drained
    calc (s.queue .rvs).flatMap Parcel.asked
        = _ := rvs.2 (drained.1 .rvsProxySend)
      _ = _ := co2rvs.2 drained
      _ = _ := ph2co.2 drained
      _ = arrived := nr2ph.2 drained

/-- The answers which have left the host are the first of those which
`thread_rvs_proxy_recv` received. -/
theorem answers_pass
    (served : ∀ event ∈ events, event.Admits (Input.Served allowed))
    (run : (daemon options .rvs capacity).machine.Run (bootState memory)
      events moves s) :
    let answers :=
      events.flatMap (ThreadNetwork.Event.entering Input.answers)
    let sent :=
      (s.queue .udp).flatMap (Parcel.framedControl MsgType.IsAnswer id)
    sent <+: answers ∧
      ((daemon options .rvs capacity).Drained s → sent = answers) := by
  intro answers sent
  have keeps := rvs_keeps options capacity allowed memory.config
  have fit : (bootState memory).Fit
      (fun other => other.config = memory.config) (rvsFits allowed) :=
    ThreadNetwork.fit_of_empty rfl ⟨fun _ => rfl, fun _ => rfl⟩
  have entered := (inlet_answers options capacity allowed memory.config).run
    keeps fit served run
  have rvs2ph := daemon_pipe options capacity .phOutput
    (carrier_answers options capacity) (by decide) (by decide) run
  have framed := (stage_answers options capacity allowed memory.config).run
    keeps fit served run
  have left := udp_of_ph2nr options capacity
    (fun _ => MsgType.IsAnswer.forControl) served run
  rw [entered] at rvs2ph
  rw [framed] at left
  exact ⟨left.1.trans rvs2ph.1, fun drained =>
    (left.2 drained).trans (rvs2ph.2 drained)⟩

/-- So are the registrations for the acknowledgements among them, unless one
comes in as a reply. -/
theorem registrations_pass (spared : ¬ allowed .registry)
    (served : ∀ event ∈ events, event.Admits (Input.Served allowed))
    (run : (daemon options .rvs capacity).machine.Run (bootState memory)
      events moves s) :
    let registrations := registrationsFor memory.config
      (events.flatMap (ThreadNetwork.Event.entering Input.replies))
    let sent :=
      (s.queue .udp).flatMap (Parcel.framedControl MsgType.IsRegistry id)
    sent <+: registrations ∧
      ((daemon options .rvs capacity).Drained s → sent = registrations) := by
  intro registrations sent
  have keeps := rvs_keeps options capacity allowed memory.config
  have fit : (bootState memory).Fit
      (fun other => other.config = memory.config) (rvsFits allowed) :=
    ThreadNetwork.fit_of_empty rfl ⟨fun _ => rfl, fun _ => rfl⟩
  have all : registrations = events.flatMap
      (ThreadNetwork.Event.entering (Input.registrations memory.config)) := by
    simp only [registrations, registrationsFor, List.filter_flatMap,
      List.map_flatMap]
    apply congrArg (List.flatMap · events)
    funext event
    cases event <;> rfl
  have entered := (inlet_registrations options capacity allowed
    memory.config).run keeps fit served run
  have rvs2gwt := daemon_pipe options capacity .rvs2gw
    (daemon_carrier options capacity (Parcel.forGateway memory.config)
      (by decide : ∀ thread ∈ mainThreads ⟨true, true, true⟩ .rvs,
        thread.writes .rvs2gwt = true → thread = .rvsProxyRecv))
    (by decide) (by decide) run
  have passed := (stage_rvs2gw options capacity allowed memory.config).run
    keeps fit served run
  have gwt2ph := daemon_pipe options capacity .phOutput
    (daemon_carrier options capacity
      (Parcel.control MsgType.IsRegistry id)
      (by decide : ∀ thread ∈ mainThreads ⟨true, true, true⟩ .rvs,
        thread.writes .gwt2ph = true → thread = .rvs2gw))
    (by decide) (by decide) run
  have framed := (stage_registrations options capacity allowed memory.config
    spared).run keeps fit served run
  have left := udp_of_ph2nr options capacity
    (fun _ => MsgType.IsRegistry.forControl) served run
  rw [entered, ← all] at rvs2gwt
  rw [passed] at gwt2ph
  rw [framed] at left
  exact ⟨left.1.trans (gwt2ph.1.trans rvs2gwt.1), fun drained =>
    (left.2 drained).trans ((gwt2ph.2 drained).trans (rvs2gwt.2 drained))⟩

end Rvs

end NodeIdentity
