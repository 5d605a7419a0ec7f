import NodeIdentity.Library.ThreadFlow
import NodeIdentity.Properties.DaemonRest
import NodeIdentity.Properties.LocationUpdate

/-!
# Messages through the threads of a daemon

What the types of daemons have in common: a control message of the network
comes in through the input thread, goes to the control thread through
`thread_ph_input`, and a control message of the daemon goes out through
`thread_ph_output` and the output thread.  Each of these threads is a stage, an
inlet or an outlet, for the messages of any types and for any view of them.
-/

namespace NodeIdentity

open NodeIdentity.Library

def MsgType.IsRegistry (type : MsgType) : Prop := type = .registry

instance : DecidablePred MsgType.IsRegistry :=
  fun type => inferInstanceAs (Decidable (type = .registry))

theorem MsgType.IsRegistry.forControl {type : MsgType}
    (registry : type.IsRegistry) : type.ForControl := by
  rw [registry]
  trivial

section Views

variable {γ : Type} (kinds : MsgType → Prop) [DecidablePred kinds]
  (view : NidMsg → γ)

namespace Parcel

def nmsg (parcel : Parcel) : NidMsg := nidMsgCodec.decode parcel.bytes

def messages (parcel : Parcel) : List NidMsg := [parcel.nmsg]

/-- The messages of some types in a pipe of control messages. -/
def control (parcel : Parcel) : List γ :=
  if kinds parcel.nmsg.type then [view parcel.nmsg] else []

def framedControl (parcel : Parcel) : List γ :=
  if kinds (nidHeaderCodec.decode parcel.bytes).type then
    [view (nidMsgCodec.decode (parcel.bytes.drop nhLen))]
  else []

end Parcel

theorem header_frame (header : NidHeader) (payload : List UInt8) :
    nidHeaderCodec.decode (frame header payload) = header :=
  nidHeaderCodec.decode_append header payload

theorem payload_frame (header : NidHeader) (payload : List UInt8) :
    (frame header payload).drop nhLen = payload :=
  List.drop_left' (nidHeaderCodec.length_encode header)

theorem nmsg_encode (nmsg : NidMsg) :
    (Parcel.datagram (nidMsgCodec.encode nmsg)).nmsg = nmsg :=
  nidMsgCodec.decode_encode nmsg

theorem nmsg_of_full {parcel : Parcel} {nmsg : NidMsg}
    (full : parcel.bytes = nidMsgCodec.encode nmsg) : parcel.nmsg = nmsg := by
  rw [Parcel.nmsg, full, nidMsgCodec.decode_encode]

theorem framedControl_frame (header : NidHeader) (nmsg : NidMsg) :
    (Parcel.datagram (frame header
        (nidMsgCodec.encode nmsg))).framedControl kinds view =
      if kinds header.type then [view nmsg] else [] := by
  simp only [Parcel.framedControl, Parcel.bytes, header_frame, payload_frame,
    nidMsgCodec.decode_encode]

variable {kinds}

theorem framedControl_of_other {header : NidHeader}
    (other : ¬ kinds header.type) (payload : List UInt8) :
    (Parcel.datagram (frame header payload)).framedControl kinds view = [] := by
  rw [Parcel.framedControl, Parcel.bytes, header_frame, if_neg other]

end Views

/-- A frame as the nodes of the network send it: control messages are full and
have the type of their header. -/
def WellFormed (datagram : List UInt8) : Prop :=
  ∃ header payload, datagram = frame header payload ∧
    (header.type.ForControl →
      ∃ nmsg : NidMsg, payload = nidMsgCodec.encode nmsg ∧
        nmsg.type = header.type)

def Input.WellFormed : Input → Prop
  | .arrival _ (some (datagram, _)) => NodeIdentity.WellFormed datagram
  | _ => True

theorem WellFormed.take {datagram : List UInt8} (formed : WellFormed datagram) :
    WellFormed (datagram.take maxBufLen) := by
  obtain ⟨header, payload, rfl, control⟩ := formed
  refine ⟨header, _, frame_take header payload, fun isControl => ?_⟩
  obtain ⟨nmsg, rfl, type⟩ := control isControl
  exact ⟨nmsg, nmsg_encode_take nmsg (by decide), type⟩

section Kinds

variable {γ : Type} {kinds : MsgType → Prop} [DecidablePred kinds]
  (view : NidMsg → γ)

theorem framedControl_take (control : ∀ type, kinds type → type.ForControl)
    {datagram : List UInt8} (formed : WellFormed datagram) :
    (Parcel.datagram (datagram.take maxBufLen)).framedControl kinds view =
      (Parcel.datagram datagram).framedControl kinds view := by
  obtain ⟨header, payload, rfl, full⟩ := formed
  rw [frame_take]
  by_cases kind : kinds header.type
  · obtain ⟨nmsg, rfl, _⟩ := full (control _ kind)
    rw [nmsg_encode_take nmsg (by decide)]
  · rw [framedControl_of_other view kind, framedControl_of_other view kind]

end Kinds

theorem put_toList {α γ : Type} (pipe : Pipe) (carry : Parcel → List γ)
    (parcel : α → Parcel) (emitted : Option α) :
    ThreadNetwork.Move.put carry pipe
        ⟨none, emitted.toList.map fun value => (pipe, parcel value)⟩ =
      emitted.toList.flatMap fun value => carry (parcel value) := by
  cases emitted with
  | none => rfl
  | some value => simp [ThreadNetwork.Move.put]

theorem put_elsewhere {α γ : Type} {pipe other : Pipe} (different : other ≠ pipe)
    (carry : Parcel → List γ) (parcel : α → Parcel) (emitted : Option α) :
    ThreadNetwork.Move.put carry pipe
        ⟨none, emitted.toList.map fun value => (other, parcel value)⟩ = [] := by
  apply ThreadNetwork.flatMap_silent
  intro write member elsewhere
  obtain ⟨_, _, rfl⟩ := List.mem_map.mp member
  exact (different elsewhere).elim

theorem put_append {γ : Type} (carry : Parcel → List γ) (pipe : Pipe)
    (writes others : List (Pipe × Parcel)) :
    ThreadNetwork.Move.put carry pipe ⟨none, writes ++ others⟩ =
      ThreadNetwork.Move.put carry pipe ⟨none, writes⟩ ++
        ThreadNetwork.Move.put carry pipe ⟨none, others⟩ :=
  List.flatMap_append

theorem setConfDhcp_nid (str : List UInt8) (s : DhcpState) :
    (setConfDhcp str s).config.nid = s.config.nid := by
  rw [setConfDhcp]
  generalize strtok bar = next
  rfl

theorem threadDhcp_nid {message : List UInt8} {s next : DhcpState}
    (configured : threadDhcp message s = some next) :
    next.config.nid = s.config.nid := by
  simp only [threadDhcp, Option.bind_eq_bind, Option.bind_eq_some_iff,
    Option.pure_def, Option.some.injEq] at configured
  obtain ⟨_, _, _, _, rfl⟩ := configured
  exact setConfDhcp_nid _ _

theorem turn_config (thread : Thread) (pipe : Pipe) (moment : Moment)
    (parcel : Parcel) (memory : Memory) :
    (memory.turn thread pipe moment parcel).1.config = memory.config := by
  cases thread with
  | phOutput =>
      simp only [Memory.turn]
      split <;> rfl
  | nrOutput | nrOutputGw | nrOutputCore =>
      simp only [Memory.turn]
      split
      · unfold Memory.nrOutputTurn
        split <;> rfl
      · rfl
  | dhtGet =>
      simp only [Memory.turn, Memory.dhtGetTurn]
      split
      · rfl
      · rfl
      · split <;> rfl
  | _ => rfl

theorem input_config {thread : Thread} {input : Input}
    (other : thread ≠ .dhcp) (takes : thread.takes input = true)
    (memory : Memory) :
    (memory.input thread input).1.config = memory.config := by
  cases input with
  | dhcp message =>
      cases thread with
      | dhcp => exact (other rfl).elim
      | _ => cases takes
  | _ => rfl

theorem input_nid (thread : Thread) (input : Input) (memory : Memory) :
    (memory.input thread input).1.config.nid = memory.config.nid := by
  cases input with
  | dhcp message =>
      simp only [Memory.input]
      split
      · next settings configured => exact threadDhcp_nid configured
      · rfl
  | _ => rfl

theorem phOutputData_type {datagram : List UInt8} {nm : NidMapper}
    {ph : PhOutput} {sent : PhOutput.Frame}
    (out : (phOutputData datagram nm ph).2 = some sent) :
    sent.header.type = .data := by
  unfold phOutputData at out
  dsimp only at out
  split at out
  · cases out
    rfl
  · cases out

theorem phOutput_control {source : PhSource} (control : source ≠ .nf2ph)
    {parcel : Parcel} {nmsg : NidMsg}
    (full : parcel.bytes = nidMsgCodec.encode nmsg) (memory : Memory) :
    ∃ header, header.type = nmsg.type ∧
      (memory.phOutputTurn source parcel.bytes).2 =
        [(.ph2nr, .datagram (frame header (nidMsgCodec.encode nmsg)))] := by
  obtain ⟨header, type, out⟩ :=
    threadPhOutput_control control nmsg memory.nm memory.ph
  refine ⟨header, type, ?_⟩
  simp only [Memory.phOutputTurn, full, out, Option.toList_some, List.map_cons,
    List.map_nil]

/-- What `thread_ph_output` writes is well formed. -/
theorem phOutput_fits {pipe : Pipe} {moment : Moment} {parcel : Parcel}
    {memory : Memory} {write : Pipe × Parcel}
    (full : pipe = .nf2ph ∨ ∃ nmsg, parcel.bytes = nidMsgCodec.encode nmsg)
    (member : write ∈ (memory.turn .phOutput pipe moment parcel).2) :
    write.1 = .ph2nr ∧ WellFormed write.2.bytes := by
  have control : ∀ {source : PhSource} {nmsg : NidMsg}, source ≠ .nf2ph →
      parcel.bytes = nidMsgCodec.encode nmsg →
      write ∈ (memory.phOutputTurn source parcel.bytes).2 →
      write.1 = .ph2nr ∧ WellFormed write.2.bytes := by
    intro source nmsg control full member
    obtain ⟨header, type, out⟩ := phOutput_control control full memory
    rw [out] at member
    cases List.mem_singleton.mp member
    exact ⟨rfl, header, _, rfl, fun _ => ⟨nmsg, rfl, type.symm⟩⟩
  cases pipe with
  | nf2ph =>
      obtain ⟨sent, out, rfl⟩ := List.mem_map.mp member
      refine ⟨rfl, sent.header, sent.payload, rfl, fun isControl => ?_⟩
      rw [phOutputData_type (Option.mem_toList.mp out)] at isControl
      exact isControl.elim
  | rvs2ph | mo2ph | gwt2ph =>
      obtain source | ⟨nmsg, full⟩ := full
      · cases source
      · exact control (by decide) full member
  | _ => cases member

/-- What `thread_ph_input` hands to the control thread is full. -/
theorem phInput_fits {moment : Moment} {parcel : Parcel} {memory : Memory}
    {write : Pipe × Parcel} (formed : WellFormed parcel.bytes)
    (member : write ∈ (memory.turn .phInput .nr2ph moment parcel).2) :
    write.1 = .raw ∨
      write.1 = .ph2co ∧ ∃ nmsg, write.2.bytes = nidMsgCodec.encode nmsg := by
  obtain ⟨header, payload, whole, control⟩ := formed
  obtain ⟨handed, kept⟩ :=
    threadPhInput_ph2co header payload moment.sent memory.phInput memory.nm
  simp only [Memory.turn, Memory.phInputTurn, whole] at member
  rcases List.mem_append.mp member with raw | message
  · left
    obtain ⟨_, _, rfl⟩ := List.mem_map.mp raw
    rfl
  · right
    obtain ⟨bytes, out, rfl⟩ := List.mem_map.mp message
    refine ⟨rfl, ?_⟩
    rw [Option.mem_toList] at out
    by_cases isControl : header.type.ForControl
    · obtain ⟨nmsg, rfl, _⟩ := control isControl
      cases (handed isControl).symm.trans out
      exact ⟨nmsg, nmsg_encode_take nmsg (by decide)⟩
    · cases (kept isControl).symm.trans out

/-- What an input thread hands to the packet handler does not depend on the
type of the daemon. -/
theorem threadNrInput_nr2ph (nid : NID) (now : Timeval)
    (arrival : Option (List UInt8 × NID32)) (s : NrInput) (cm : ConnMapper) :
    (threadNrInput nid now arrival s cm).nr2ph =
      (threadNrInputGw nid now arrival s cm).nr2ph := by
  simp only [threadNrInput, threadNrInputGw]
  split <;> rfl

theorem threadNrInputGw_none (nid : NID) (now : Timeval) (s : NrInput)
    (cm : ConnMapper) : (threadNrInputGw nid now none s cm).nr2ph = none := by
  have turn : threadNrInputGw nid now none s cm =
      if s.header.destNID = nid then
        ⟨s, newCMEntry s.header.srcNID s.recvAddr now cm, none, none⟩
      else ⟨s, cm, none, none⟩ := rfl
  rw [turn]
  split <;> rfl

/-- A well-formed datagram for the daemon is handed on, as far as the buffer
takes it. -/
theorem threadNrInputGw_own {datagram : List UInt8}
    (formed : WellFormed datagram) (nid : NID) (now : Timeval) (sender : NID32)
    (s : NrInput) (cm : ConnMapper) :
    (threadNrInputGw nid now (some (datagram, sender)) s cm).nr2ph =
      if (nidHeaderCodec.decode datagram).destNID = nid then
        some (datagram.take maxBufLen)
      else none := by
  obtain ⟨header, payload, rfl, _⟩ := formed
  have read : nidHeaderCodec.decode
      (s.buf.receive (frame header payload)).bytes = header :=
    s.buf.decode_receive nidHeaderCodec (by decide) header payload
  simp only [threadNrInputGw, NrInput.recvfrom, NrInput.header, read,
    Buffer.take_received, header_frame]
  by_cases own : header.destNID = nid
  · simp only [if_pos own]
  · simp only [if_neg own]

theorem put_nr2ph {γ : Type} (carry : Parcel → List γ) (thread : Thread)
    (now : Timeval) (arrival : Option (List UInt8 × NID32)) (memory : Memory) :
    ThreadNetwork.Move.put carry .nr2ph
        ⟨none, (memory.arrivalTurn thread now arrival).2⟩ =
      (threadNrInputGw memory.config.nid now arrival memory.nrInput
        memory.nr.cm).nr2ph.toList.flatMap fun packet =>
          carry (.datagram packet) := by
  have own : ∀ turn : NrInputTurn,
      turn.nr2ph = (threadNrInputGw memory.config.nid now arrival
        memory.nrInput memory.nr.cm).nr2ph →
      ThreadNetwork.Move.put carry .nr2ph ⟨none,
          turn.nr2ph.toList.map (fun packet => (Pipe.nr2ph,
              Parcel.datagram packet)) ++
            turn.nr.toList.map (fun packet => (Pipe.nr,
              Parcel.datagram packet))⟩ =
        (threadNrInputGw memory.config.nid now arrival memory.nrInput
          memory.nr.cm).nr2ph.toList.flatMap fun packet =>
            carry (.datagram packet) := by
    intro turn same
    rw [put_append, put_toList .nr2ph carry Parcel.datagram,
      put_elsewhere (by decide), List.append_nil, same]
  cases thread with
  | nrInput => exact own _ (threadNrInput_nr2ph _ _ _ _ _)
  | _ => exact own _ rfl

theorem arrival_fits {thread : Thread} {now : Timeval}
    {arrival : Option (List UInt8 × NID32)} {memory : Memory}
    {write : Pipe × Parcel} (formed : (Input.arrival now arrival).WellFormed)
    (member : write ∈ (memory.arrivalTurn thread now arrival).2) :
    write.1 = .nr2ph ∧ WellFormed write.2.bytes ∨ write.1 = .nr := by
  have own : ∀ turn : NrInputTurn,
      turn.nr2ph = (threadNrInputGw memory.config.nid now arrival
        memory.nrInput memory.nr.cm).nr2ph →
      write ∈ turn.nr2ph.toList.map (fun packet => (Pipe.nr2ph,
          Parcel.datagram packet)) ++
        turn.nr.toList.map (fun packet => (Pipe.nr, Parcel.datagram packet)) →
      write.1 = .nr2ph ∧ WellFormed write.2.bytes ∨ write.1 = .nr := by
    intro turn same member
    rcases List.mem_append.mp member with own | others
    · left
      obtain ⟨packet, out, rfl⟩ := List.mem_map.mp own
      refine ⟨rfl, ?_⟩
      rw [Option.mem_toList, same] at out
      cases arrival with
      | none =>
          rw [threadNrInputGw_none] at out
          cases out
      | some arrival =>
          rw [threadNrInputGw_own formed] at out
          split at out
          · cases out
            exact formed.take
          · cases out
    · right
      obtain ⟨_, _, rfl⟩ := List.mem_map.mp others
      rfl
  cases thread with
  | nrInput => exact own _ (threadNrInput_nr2ph _ _ _ _ _) member
  | _ => exact own _ rfl member

/-- The control messages for a daemon among the datagrams of the network. -/
def ownControl {γ : Type} (nid : NID) (kinds : MsgType → Prop)
    [DecidablePred kinds] (view : NidMsg → γ) : Input → List γ
  | .arrival _ (some (datagram, _)) =>
      if (nidHeaderCodec.decode datagram).destNID = nid then
        (Parcel.datagram datagram).framedControl kinds view
      else []
  | _ => []

theorem threadMobility_types (config : Configuration) (mobility : MobilityType)
    (now later : Timeval) (newaddr : Bool) (count : Nat) (cm : ConnMapper) :
    (∀ nmsg ∈ (threadMobility config mobility now later newaddr count cm).mo2ph,
        nmsg.type = .redirect) ∧
      ∀ nmsg ∈ (threadMobility config mobility now later newaddr count cm).rvs2ph,
        nmsg.type = .rvsUpdate := by
  unfold threadMobility
  split
  · dsimp only
    split
    · constructor
      · intro nmsg member
        cases mobility with
        | intradomain =>
            obtain ⟨_, _, rfl⟩ := List.mem_map.mp member
            rfl
        | interdomain => cases member
      · intro nmsg member
        cases Option.mem_some.mp member
        rfl
    · constructor
      · intro nmsg member
        cases member
      · intro nmsg member
        cases member
  · constructor
    · intro nmsg member
      cases member
    · intro nmsg member
      cases member

def inputThread : NodeType → Thread
  | .node => .nrInput
  | .rvs => .nrInput
  | .gateway => .nrInputGw
  | .core => .nrInputGw

section Daemon

variable (options : MainOptions) {type : NodeType} (capacity : Pipe → Nat)

/-- Of all threads the type may have only one reads the pipe. -/
theorem daemon_reader {memory : Memory} {thread worker : Thread} {pipe : Pipe}
    (only : ∀ thread ∈ mainThreads ⟨true, true, true⟩ type,
      thread.reads pipe = true → thread = worker)
    (reads : (daemon options type capacity).reads memory thread pipe = true) :
    thread = worker := by
  obtain ⟨runs, reads⟩ := daemon_reads options type capacity reads
  exact only thread ((mainThreads_between options type).2 runs) reads

theorem daemon_writer {thread worker : Thread} {pipe : Pipe}
    (only : ∀ thread ∈ mainThreads ⟨true, true, true⟩ type,
      thread.writes pipe = true → thread = worker)
    (writes : (daemonLayers options type capacity).writes thread pipe = true) :
    thread = worker := by
  obtain ⟨runs, writes⟩ := Bool.and_eq_true_iff.mp writes
  have all := (mainThreads_between options type).2
    (List.contains_iff_mem.mp runs)
  exact only thread all writes

theorem daemon_takes {memory : Memory} {thread : Thread} {input : Input}
    (takes : (daemon options type capacity).takes memory thread input = true) :
    thread ∈ mainThreads ⟨true, true, true⟩ type ∧
      thread.takes input = true := by
  obtain ⟨runs, takes⟩ := Bool.and_eq_true_iff.mp takes
  have runs := List.contains_iff_mem.mp (Bool.and_eq_true_iff.mp runs).1
  exact ⟨(mainThreads_between options type).2 runs, takes⟩

theorem daemon_stage {γ : Type} {Holds : Memory → Prop}
    {Fits : Pipe → Parcel → Prop} {source target : Pipe}
    {carryIn carryOut : Parcel → List γ} {worker : Thread}
    (reader : ∀ thread ∈ mainThreads ⟨true, true, true⟩ type,
      thread.reads source = true → thread = worker)
    (writer : ∀ thread ∈ mainThreads ⟨true, true, true⟩ type,
      thread.writes target = true → thread = worker)
    (waits : ∀ input, worker.takes input = false)
    (passes : ∀ {memory : Memory} {now : Moment} {message : Parcel},
      Holds memory → Fits source message →
        ThreadNetwork.Move.put carryOut target
          ⟨none, (memory.turn worker source now message).2⟩ = carryIn message)
    (others : ∀ {memory : Memory} {other : Pipe} {now : Moment}
      {message : Parcel}, other ≠ source → worker.reads other = true →
        Fits other message →
          ThreadNetwork.Move.put carryOut target
            ⟨none, (memory.turn worker other now message).2⟩ = []) :
    ThreadNetwork.Stage (daemonLayers options type capacity) Holds Fits source
      carryIn target carryOut worker :=
  { reader := fun reads => daemon_reader options capacity reader reads
    writer := fun writes => daemon_writer options capacity writer writes
    waits := fun {_ input} => by
      simp only [daemon, waits input, Bool.and_false]
    passes := passes
    others := fun different reads =>
      others different (daemon_reads options type capacity reads).2 }

/-- What has come out of a pipe is the first part of what its carrier has put
there, and all of it when the daemon is drained. -/
theorem daemon_pipe {γ : Type} {carry : Parcel → List γ} {pipe : Pipe}
    {carrier : Thread} {memory : Memory} {s : DaemonState}
    {events : List DaemonEvent} {moves : List DaemonMove} (reader : Thread)
    (sole : (daemon options type capacity).SoleCarrier carry carrier pipe)
    (runs : reader ∈ mainThreads ⟨false, false, false⟩ type)
    (reads : reader ≠ .dhtGet ∧ reader.reads pipe = true)
    (run : (daemon options type capacity).machine.Run (bootState memory)
      events moves s) :
    moves.flatMap (ThreadNetwork.Move.got carry pipe) <+:
        moves.flatMap (ThreadNetwork.Move.put carry pipe) ∧
      ((daemon options type capacity).Drained s →
        moves.flatMap (ThreadNetwork.Move.got carry pipe) =
          moves.flatMap (ThreadNetwork.Move.put carry pipe)) := by
  have empty : (bootState memory).queue pipe = [] ∧
      ∀ thread, (bootState memory).pending thread = [] := ⟨rfl, fun _ => rfl⟩
  refine ⟨ThreadNetwork.got_prefix_put sole empty run, fun drained => ?_⟩
  obtain ⟨idle, up⟩ := drained
  have left := up reader pipe (reads_of_runs options type capacity
    ((mainThreads_between options type).1 runs) reads.1 reads.2)
  exact ThreadNetwork.got_eq_put sole empty ⟨left, idle carrier⟩ run

theorem daemon_carrier {γ : Type} (carry : Parcel → List γ) {pipe : Pipe}
    {carrier : Thread}
    (writer : ∀ thread ∈ mainThreads ⟨true, true, true⟩ type,
      thread.writes pipe = true → thread = carrier) :
    (daemon options type capacity).SoleCarrier carry carrier pipe :=
  ThreadNetwork.soleCarrier_of_writer (daemonLayers options type capacity)
    (fun _ writes => daemon_writer options capacity writer writes) carry

variable {γ : Type} {kinds : MsgType → Prop} [DecidablePred kinds]
  (view : NidMsg → γ) {Holds : Memory → Prop} {Fits : Pipe → Parcel → Prop}

theorem inlet_arrivals {nid : NID} {Admitted : Input → Prop}
    (control : ∀ type, kinds type → type.ForControl)
    (formed : ∀ {input}, Admitted input → input.WellFormed)
    (holds : ∀ {memory}, Holds memory → memory.config.nid = nid) :
    (daemon options type capacity).Inlet Admitted Holds
      (ownControl nid kinds view) .nr2ph (Parcel.framedControl kinds view)
      (inputThread type) := by
  constructor
  · apply daemon_carrier
    cases type <;> decide
  · intro memory pipe
    have silent : (inputThread type).reads pipe = false := by
      cases type <;> rfl
    simp only [daemon, silent, Bool.and_false]
  · intro memory input takes held admitted
    have waits := (daemon_takes options capacity takes).2
    cases input with
    | arrival now arrival =>
        refine (put_nr2ph _ _ now arrival memory).trans ?_
        rw [holds held]
        cases arrival with
        | none =>
            rw [threadNrInputGw_none]
            rfl
        | some arrival =>
            have whole : WellFormed arrival.1 := formed admitted
            rw [threadNrInputGw_own whole, ownControl]
            split
            · rw [Option.toList_some, List.flatMap_singleton,
                framedControl_take view control whole]
            · rfl
    | _ => cases type <;> cases waits
  · intro memory thread input other takes
    obtain ⟨runs, waits⟩ := daemon_takes options capacity takes
    cases input with
    | arrival now arrival =>
        have inputs : ∀ thread ∈ mainThreads ⟨true, true, true⟩ type,
            thread = .nrInput ∨ thread = .nrInputGw →
              thread = inputThread type := by
          cases type <;> decide
        apply absurd (inputs thread runs _) other
        cases thread with
        | nrInput => exact .inl rfl
        | nrInputGw => exact .inr rfl
        | _ => cases waits
    | _ => rfl

theorem stage_phInput (control : ∀ type, kinds type → type.ForControl)
    (formed : ∀ {parcel}, Fits .nr2ph parcel → WellFormed parcel.bytes) :
    ThreadNetwork.Stage (daemonLayers options type capacity) Holds Fits .nr2ph
      (Parcel.framedControl kinds view) .ph2co (Parcel.control kinds view)
      .phInput := by
  apply daemon_stage options capacity (by cases type <;> decide)
    (by cases type <;> decide) (fun input => by cases input <;> rfl)
  · intro memory now message _ fits
    obtain ⟨header, payload, whole, full⟩ := formed fits
    obtain ⟨handed, kept⟩ :=
      threadPhInput_ph2co header payload now.sent memory.phInput memory.nm
    have framed : message.framedControl kinds view =
        (Parcel.datagram (frame header payload)).framedControl kinds view := by
      rw [Parcel.framedControl, whole]
      rfl
    have put : ThreadNetwork.Move.put (Parcel.control kinds view) .ph2co
        ⟨none, (memory.turn .phInput .nr2ph now message).2⟩ =
          (threadPhInput (frame header payload) now.sent memory.phInput
            memory.nm).ph2co.toList.flatMap fun bytes =>
              (Parcel.datagram bytes).control kinds view := by
      simp only [Memory.turn, Memory.phInputTurn, whole]
      rw [put_append, put_elsewhere (by decide), List.nil_append]
      exact put_toList .ph2co (Parcel.control kinds view) Parcel.datagram _
    rw [put, framed]
    by_cases isControl : header.type.ForControl
    · obtain ⟨nmsg, rfl, same⟩ := full isControl
      rw [handed isControl, nmsg_encode_take nmsg (by decide),
        framedControl_frame, Option.toList_some, List.flatMap_singleton,
        Parcel.control, nmsg_encode, same]
    · rw [kept isControl, framedControl_of_other view fun kind =>
        isControl (control _ kind)]
      rfl
  · intro memory other now message different reads _
    cases other with
    | nr2ph => exact (different rfl).elim
    | _ => cases reads

/-- The messages of one pipe leave the packet handler in frames, where the
other pipes bring messages of other types. -/
theorem stage_phOutput {source : Pipe} {branch : PhSource}
    (isSource : source.phSource = some branch) (isControl : branch ≠ .nf2ph)
    (control : ¬ kinds .data)
    (full : ∀ {parcel}, Fits source parcel →
      ∃ nmsg, parcel.bytes = nidMsgCodec.encode nmsg)
    (unlike : ∀ {other parcel}, other ≠ source → other ≠ .nf2ph →
      other.phSource.isSome = true → Fits other parcel →
        ∃ nmsg, parcel.bytes = nidMsgCodec.encode nmsg ∧ ¬ kinds nmsg.type) :
    ThreadNetwork.Stage (daemonLayers options type capacity) Holds Fits source
      (Parcel.control kinds view) .ph2nr (Parcel.framedControl kinds view)
      .phOutput := by
  have single : ∀ thread ∈ mainThreads ⟨true, true, true⟩ type,
      ∀ pipe : Pipe, pipe.phSource.isSome = true →
        thread.reads pipe = true → thread = .phOutput := by
    cases type <;> decide
  have put : ∀ {branch : PhSource} {nmsg : NidMsg} {message : Parcel}
      {memory : Memory}, branch ≠ .nf2ph →
      message.bytes = nidMsgCodec.encode nmsg →
        ThreadNetwork.Move.put (Parcel.framedControl kinds view) .ph2nr
            ⟨none, (memory.phOutputTurn branch message.bytes).2⟩ =
          if kinds nmsg.type then [view nmsg] else [] := by
    intro branch nmsg message memory isControl full
    obtain ⟨header, same, out⟩ := phOutput_control isControl full memory
    simp only [ThreadNetwork.Move.put, out, List.flatMap_singleton, if_true,
      framedControl_frame, same]
  apply daemon_stage options capacity
    (fun thread runs reads =>
      single thread runs source (by rw [isSource]; rfl) reads)
    (by cases type <;> decide) (fun input => by cases input <;> rfl)
  · intro memory now message _ fits
    obtain ⟨nmsg, whole⟩ := full fits
    simp only [Memory.turn, isSource]
    rw [put isControl whole, Parcel.control, nmsg_of_full whole]
  · intro memory other now message different reads fits
    have reads : other.phSource.isSome = true := reads
    obtain ⟨branch, isBranch⟩ := Option.isSome_iff_exists.mp reads
    simp only [Memory.turn, isBranch]
    by_cases data : branch = .nf2ph
    · subst data
      simp only [Memory.phOutputTurn, threadPhOutput]
      rw [put_toList]
      apply List.flatMap_eq_nil_iff.mpr
      intro sent out
      apply framedControl_of_other
      rw [phOutputData_type (Option.mem_toList.mp out)]
      exact control
    · have other : other ≠ .nf2ph := by
        intro same
        subst same
        cases isBranch
        exact data rfl
      obtain ⟨nmsg, whole, unlike⟩ := unlike different other reads fits
      rw [put data whole, if_neg unlike]

end Daemon

end NodeIdentity
