import NodeIdentity.Daemon

/-!
# How the daemon comes to rest

Without new input the threads of a daemon make a bounded number of moves,
whichever moves first, unless the resolver of a node keeps feeding requests
back.  When none can move, everything has been handled, or the process has
exited, or a request for the resolver or the DHT waits in front of a full pipe
which no thread reads, or the three threads of the loop of resolutions wait for
each other.  There is no other way in which the threads can stop.
-/

namespace NodeIdentity

open NodeIdentity.Library

def Thread.writes : Thread → Pipe → Bool
  | .nidfilter, .nf2ph => true
  | .phOutput, .ph2nr => true
  | .phInput, .ph2co => true
  | .phInput, .raw => true
  | .nrOutput, .cm2rvs => true
  | .nrOutput, .udp => true
  | .nrOutputGw, .cm2rvs => true
  | .nrOutputGw, .udp => true
  | .nrOutputCore, .cm2rvs => true
  | .nrOutputCore, .dht => true
  | .nrOutputCore, .udp => true
  | .nrInput, .nr2ph => true
  | .nrInputGw, .nr2ph => true
  | .nrInputGw, .nr => true
  | .rvsUpdate, .rvs2ph => true
  | .rvsGet, .rvs2ph => true
  | .rvsProxyRecv, .rvs2ph => true
  | .rvsProxyRecv, .rvs2gwt => true
  | .rvsProxySend, .rvs => true
  | .rvs2gw, .gwt2ph => true
  | .mobility, .mo2ph => true
  | .mobility, .rvs2ph => true
  | .controlRvs, .co2rvs => true
  | .controlGw, .co2gwl => true
  | .controlGwCore, .co2gwl => true
  | .gwTalker, .gwt2ph => true
  | .gwListener, .gwl2gwt => true
  | .gwCoreListener, .gwt2ph => true
  | _, _ => false

/-- A datagram of the network may go through seven pipes. -/
def Pipe.height : Pipe → Nat
  | nr2ph => 7
  | ph2co => 6
  | co2rvs => 5
  | co2gwl => 5
  | rvs2gwt => 4
  | gwl2gwt => 4
  | nf2ph => 3
  | rvs2ph => 3
  | mo2ph => 3
  | gwt2ph => 3
  | ph2nr => 2
  | nr => 2
  | cm2rvs => 1
  | dht => 1
  | udp => 0
  | raw => 0
  | rvs => 0

/-- The resolver leads back from a request to a new packet. -/
def Thread.feedsBack : Thread → Bool
  | .rvsGet => true
  | _ => false

theorem nrTurn_dhtRequest {thread : Thread} {source : NrSource}
    {now : Timeval} {datagram : List UInt8} {s : NrOutput} {turn : NrTurn}
    {nid : NID}
    (result : thread.nrTurn source now datagram s = some turn)
    (asked : turn.dhtRequest = some nid) : thread = .nrOutputCore := by
  cases thread with
  | nrOutputCore => rfl
  | nrOutput =>
      cases source with
      | ph2nr =>
          cases result
          cases asked
      | nr => cases result
  | nrOutputGw =>
      cases result
      cases source with
      | ph2nr =>
          simp only [threadNrOutputGw] at asked
          split at asked <;> cases asked
      | nr => cases asked
  | _ => cases result

theorem nrTurn_isOutput {thread : Thread} {source : NrSource} {now : Timeval}
    {datagram : List UInt8} {s : NrOutput} {turn : NrTurn}
    (result : thread.nrTurn source now datagram s = some turn) :
    thread.writes .cm2rvs = true ∧ thread.writes .udp = true := by
  cases thread with
  | nrOutputCore => exact ⟨rfl, rfl⟩
  | nrOutput => exact ⟨rfl, rfl⟩
  | nrOutputGw => exact ⟨rfl, rfl⟩
  | _ => cases result

namespace Memory

theorem nrOutputTurn_writes {thread : Thread} {source : NrSource}
    {now : Timeval} {datagram : List UInt8} {memory : Memory}
    {write : Pipe × Parcel}
    (member : write ∈ (memory.nrOutputTurn thread source now datagram).2) :
    thread.writes write.1 = true := by
  unfold nrOutputTurn at member
  split at member
  · next turn result =>
      obtain ⟨requests, sends⟩ := nrTurn_isOutput result
      rcases List.mem_append.mp member with asks | sent
      · rcases List.mem_append.mp asks with resolves | looks
        · obtain ⟨_, _, rfl⟩ := List.mem_map.mp resolves
          exact requests
        · obtain ⟨nid, asked, rfl⟩ := List.mem_map.mp looks
          rw [nrTurn_dhtRequest result (Option.mem_toList.mp asked)]
          rfl
      · obtain ⟨_, _, rfl⟩ := List.mem_map.mp sent
        exact sends
  · cases member

theorem nrOutputTurn_length (thread : Thread) (source : NrSource)
    (now : Timeval) (datagram : List UInt8) (memory : Memory) :
    (memory.nrOutputTurn thread source now datagram).2.length ≤ 3 := by
  unfold nrOutputTurn
  split
  · next turn _ =>
      have request : turn.request.toList.length ≤ 1 := Option.length_toList_le
      have dhtRequest : turn.dhtRequest.toList.length ≤ 1 :=
        Option.length_toList_le
      have sent : turn.sent.toList.length ≤ 1 := Option.length_toList_le
      simp only [List.length_append, List.length_map]
      omega
  · exact Nat.zero_le 3

theorem turn_writes {thread : Thread} {pipe : Pipe} {moment : Moment}
    {parcel : Parcel} {memory : Memory} {write : Pipe × Parcel}
    (member : write ∈ (memory.turn thread pipe moment parcel).2) :
    thread.writes write.1 = true := by
  cases thread with
  | nrOutput | nrOutputGw | nrOutputCore =>
      simp only [turn] at member
      split at member
      · exact nrOutputTurn_writes member
      · cases member
  | phOutput =>
      simp only [turn] at member
      split at member
      · obtain ⟨_, _, rfl⟩ := List.mem_map.mp member
        rfl
      · cases member
  | phInput =>
      simp only [turn, phInputTurn] at member
      rcases List.mem_append.mp member with raw | control
      · obtain ⟨_, _, rfl⟩ := List.mem_map.mp raw
        rfl
      · obtain ⟨_, _, rfl⟩ := List.mem_map.mp control
        rfl
  | controlRvs | controlGw | controlGwCore | gwCoreListener =>
      simp only [turn, controlRvsTurn, controlGwTurn, controlGwCoreTurn,
        gwCoreListenerTurn] at member
      obtain ⟨_, _, rfl⟩ := List.mem_map.mp member
      rfl
  | rvsProxySend | rvsGet | rvs2gw | gwListener | gwTalker =>
      simp only [turn, rvsProxySendTurn, gwListenerTurn] at member
      cases List.mem_singleton.mp member
      rfl
  | _ => cases member

theorem turn_length (thread : Thread) (pipe : Pipe) (moment : Moment)
    (parcel : Parcel) (memory : Memory) :
    (memory.turn thread pipe moment parcel).2.length ≤ 3 := by
  have option : ∀ {α : Type} (write : α → Pipe × Parcel) (emitted : Option α),
      (emitted.toList.map write).length ≤ 1 := by
    intro α write emitted
    rw [List.length_map]
    exact Option.length_toList_le
  cases thread with
  | nrOutput | nrOutputGw | nrOutputCore =>
      simp only [turn]
      split
      · exact nrOutputTurn_length _ _ _ _ _
      · exact Nat.zero_le 3
  | phOutput =>
      simp only [turn]
      split
      · exact (option _ _).trans (by decide)
      · exact Nat.zero_le 3
  | phInput =>
      simp only [turn, phInputTurn, List.length_append]
      have raw := option (fun packet => (Pipe.raw, Parcel.inject packet.1 packet.2))
        (threadPhInput parcel.bytes moment.sent memory.phInput memory.nm).raw
      have ph2co := option (fun message => (Pipe.ph2co, Parcel.datagram message))
        (threadPhInput parcel.bytes moment.sent memory.phInput memory.nm).ph2co
      omega
  | controlRvs | controlGw | controlGwCore | gwCoreListener =>
      simp only [turn, controlRvsTurn, controlGwTurn, controlGwCoreTurn,
        gwCoreListenerTurn]
      exact (option _ _).trans (by decide)
  | rvsProxySend | rvsGet | rvs2gw | gwListener | gwTalker =>
      simp only [turn, rvsProxySendTurn, gwListenerTurn, List.length_singleton]
      decide
  | _ => exact Nat.zero_le 3

theorem threadNrInput_nr (nid : NID) (now : Timeval)
    (arrival : Option (List UInt8 × NID32)) (s : NrInput) (cm : ConnMapper) :
    (threadNrInput nid now arrival s cm).nr = none := by
  simp only [threadNrInput]
  split <;> rfl

theorem input_writes {thread : Thread} {event : Input} {memory : Memory}
    {write : Pipe × Parcel} (takes : thread.takes event = true)
    (member : write ∈ (memory.input thread event).2) :
    thread.writes write.1 = true := by
  cases event with
  | packet datagram =>
      cases thread with
      | nidfilter =>
          cases List.mem_singleton.mp member
          rfl
      | _ => cases takes
  | arrival now arrival =>
      cases thread with
      | nrInput =>
          simp only [input, arrivalTurn, threadNrInput_nr, Option.toList_none,
            List.map_nil, List.append_nil] at member
          obtain ⟨_, _, rfl⟩ := List.mem_map.mp member
          rfl
      | nrInputGw =>
          rcases List.mem_append.mp member with own | others
          · obtain ⟨_, _, rfl⟩ := List.mem_map.mp own
            rfl
          · obtain ⟨_, _, rfl⟩ := List.mem_map.mp others
            rfl
      | _ => cases takes
  | reply rvs_msg =>
      cases thread with
      | rvsProxyRecv =>
          rcases List.mem_cons.mp member with rfl | acknowledged
          · rfl
          · obtain ⟨_, _, rfl⟩ := List.mem_map.mp acknowledged
            rfl
      | _ => cases takes
  | timer =>
      cases thread with
      | rvsUpdate =>
          cases List.mem_singleton.mp member
          rfl
      | _ => cases takes
  | netlink now later newaddr =>
      cases thread with
      | mobility =>
          rcases List.mem_append.mp member with redirects | update
          · obtain ⟨_, _, rfl⟩ := List.mem_map.mp redirects
            rfl
          · obtain ⟨_, _, rfl⟩ := List.mem_map.mp update
            rfl
      | _ => cases takes
  | dhcp message =>
      simp only [input] at member
      split at member <;> cases member
  | dns nm => cases member

end Memory

section Daemon

variable (options : MainOptions) (type : NodeType) (capacity : Pipe → Nat)

theorem daemon_reads {memory : Memory} {thread : Thread} {pipe : Pipe}
    (reads : (daemon options type capacity).reads memory thread pipe = true) :
    thread ∈ mainThreads options type ∧ thread.reads pipe = true := by
  obtain ⟨runs, reads⟩ := Bool.and_eq_true_iff.mp reads
  exact ⟨List.contains_iff_mem.mp (Bool.and_eq_true_iff.mp runs).1, reads⟩

/-- Below each pipe a thread reads lie those it writes, the resolver
excepted. -/
theorem Thread.height_lt {thread : Thread} {source target : Pipe}
    (forwards : thread.feedsBack = false) (reads : thread.reads source = true)
    (writes : thread.writes target = true) : target.height < source.height := by
  have all : ∀ (thread : Thread) (source target : Pipe),
      thread.feedsBack = false → thread.reads source = true →
        thread.writes target = true → target.height < source.height := by
    decide +kernel
  exact all thread source target forwards reads writes

theorem Thread.height_pos {thread : Thread} {source : Pipe}
    (reads : thread.reads source = true) : 0 < source.height := by
  have all : ∀ (thread : Thread) (source : Pipe),
      thread.reads source = true → 0 < source.height := by
    decide +kernel
  exact all thread source reads

/-- The layers of the daemon, for the threads which run. -/
def daemonLayers : (daemon options type capacity).Layers :=
  { height := Pipe.height
    writes := fun thread pipe =>
      (mainThreads options type).contains thread && thread.writes pipe
    feedback := Thread.feedsBack
    fanout := 3
    turn_writes := fun reads member => by
      have runs := (daemon_reads options type capacity reads).1
      rw [List.contains_iff_mem.mpr runs, Bool.true_and]
      exact Memory.turn_writes member
    input_writes := fun takes member => by
      obtain ⟨runs, takes⟩ := Bool.and_eq_true_iff.mp takes
      rw [(Bool.and_eq_true_iff.mp runs).1, Bool.true_and]
      exact Memory.input_writes takes member
    turn_length := fun _ => Memory.turn_length _ _ _ _ _
    descends := fun forwards reads writes =>
      Thread.height_lt forwards (daemon_reads options type capacity reads).2
        (Bool.and_eq_true_iff.mp writes).2
    positive := fun reads =>
      Thread.height_pos (daemon_reads options type capacity reads).2 }

theorem drained_of_empty {s : DaemonState}
    (threads : ∀ thread, (s.pending thread).isEmpty = true)
    (pipes : ∀ pipe : Pipe, pipe.isExit = true ∨ (s.queue pipe).isEmpty = true) :
    (daemon options type capacity).Drained s := by
  refine ⟨fun thread => List.isEmpty_iff.mp (threads thread), ?_⟩
  intro thread pipe reads
  rcases pipes pipe with exit | empty
  · have inside := Thread.height_pos (daemon_reads options type capacity reads).2
    cases pipe with
    | udp | raw | rvs => cases inside
    | _ => cases exit
  · exact List.isEmpty_iff.mp empty

/-- What has become of a daemon none of whose threads can move. -/
inductive Rest (s : DaemonState) : Prop where
  | exited (exited : s.memory.exited = true)
  | drained (drained : (daemon options type capacity).Drained s)
  | unresolved (other : type ≠ .node)
      (blocked : (daemon options type capacity).Blocked s (outputThread type)
        .cm2rvs)
  | unasked (core : type = .core)
      (ended : s.memory.runs options type .dhtGet = false)
      (blocked : (daemon options type capacity).Blocked s .nrOutputCore .dht)
  | loop (node : type = .node)
      (phOutput : (daemon options type capacity).Blocked s .phOutput .ph2nr)
      (nrOutput : (daemon options type capacity).Blocked s .nrOutput .cm2rvs)
      (rvsGet : (daemon options type capacity).Blocked s .rvsGet .rvs2ph)

/-- The options only add threads. -/
theorem mainThreads_between :
    mainThreads ⟨false, false, false⟩ type ⊆ mainThreads options type ∧
      mainThreads options type ⊆ mainThreads ⟨true, true, true⟩ type := by
  obtain ⟨get_dht, get_dns, debugPrintRt⟩ := options
  cases type <;> cases get_dht <;> cases get_dns <;> cases debugPrintRt <;>
    decide

theorem node_of_rvsGet (runs : .rvsGet ∈ mainThreads options type) :
    type = .node := by
  have all := (mainThreads_between options type).2 runs
  cases type with
  | node => rfl
  | _ => exact absurd all (by decide)

/-- Of the pipes in which a message can wait, only those of requests may be
without a reader. -/
theorem read_or_request {thread : Thread} {pipe : Pipe}
    (runs : thread ∈ mainThreads options type)
    (writes : thread.writes pipe = true) (inside : pipe.isExit = false) :
    (∃ reader ∈ mainThreads options type, reader ≠ .dhtGet ∧
        reader.reads pipe = true) ∨
      (type ≠ .node ∧ thread = outputThread type ∧ pipe = .cm2rvs) ∨
      (type = .core ∧ thread = .nrOutputCore ∧ pipe = .dht) := by
  have fewest : ∀ type, ∀ thread ∈ mainThreads ⟨true, true, true⟩ type,
      ∀ pipe : Pipe, thread.writes pipe = true → pipe.isExit = false →
        (∃ reader ∈ mainThreads ⟨false, false, false⟩ type,
            reader ≠ .dhtGet ∧ reader.reads pipe = true) ∨
          (type ≠ .node ∧ thread = outputThread type ∧ pipe = .cm2rvs) ∨
          (type = .core ∧ thread = .nrOutputCore ∧ pipe = .dht) := by
    intro type
    cases type <;> decide +kernel
  rcases fewest type thread ((mainThreads_between options type).2 runs) pipe
    writes inside with ⟨reader, reading, other, reads⟩ | request
  · left
    exact ⟨reader, (mainThreads_between options type).1 reading, other, reads⟩
  · exact .inr request

theorem exit_not_blocked {s : DaemonState} {thread : Thread} {pipe : Pipe}
    (blocked : (daemon options type capacity).Blocked s thread pipe) :
    pipe.isExit = false := by
  obtain ⟨_, _, _, full⟩ := blocked
  cases exit : pipe.isExit with
  | false => rfl
  | true =>
      simp only [ThreadNetwork.HasRoom, daemon, exit, if_true, Option.all_none]
        at full
      cases full

theorem reads_of_runs {memory : Memory} {thread : Thread} {pipe : Pipe}
    (runs : thread ∈ mainThreads options type) (lasts : thread ≠ .dhtGet)
    (reads : thread.reads pipe = true) :
    (daemon options type capacity).reads memory thread pipe = true := by
  simp only [daemon, Memory.runs, List.contains_iff_mem.mpr runs, lasts, reads,
    decide_false, Bool.false_and, Bool.not_false, Bool.and_true]

theorem blocked_writes {s : DaemonState} {thread : Thread} {pipe : Pipe}
    (sound : (daemonLayers options type capacity).Sound s)
    (blocked : (daemon options type capacity).Blocked s thread pipe) :
    thread ∈ mainThreads options type ∧ thread.writes pipe = true ∧
      pipe.isExit = false := by
  obtain ⟨runs, writes⟩ := Bool.and_eq_true_iff.mp (sound.blocked blocked)
  exact ⟨List.contains_iff_mem.mp runs, writes,
    exit_not_blocked options type capacity blocked⟩

theorem rest_of_unread {s : DaemonState} {thread : Thread} {pipe : Pipe}
    (sound : (daemonLayers options type capacity).Sound s)
    (blocked : (daemon options type capacity).Blocked s thread pipe)
    (unread : ∀ reader, (daemon options type capacity).reads s.memory reader
      pipe = false) :
    Rest options type capacity s := by
  obtain ⟨runs, writes, inside⟩ :=
    blocked_writes options type capacity sound blocked
  rcases read_or_request options type runs writes inside with
    ⟨reader, reading, lasts, reads⟩ | ⟨other, rfl, rfl⟩ | ⟨core, rfl, rfl⟩
  · cases (unread reader).symm.trans
      (reads_of_runs options type capacity reading lasts reads)
  · exact .unresolved other blocked
  · have ended := unread .dhtGet
    rw [show (daemon options type capacity).reads s.memory .dhtGet .dht =
      (s.memory.runs options type .dhtGet && true) from rfl,
      Bool.and_true] at ended
    exact .unasked core ended blocked

/-- When the resolver is blocked, so is the whole loop. -/
theorem rest_of_resolver {s : DaemonState} {pipe : Pipe}
    (sound : (daemonLayers options type capacity).Sound s)
    (settled : (daemon options type capacity).Settled s)
    (running : s.memory.exited = false)
    (wide : ∀ pipe, (daemon options type capacity).HasRoom pipe [] = true)
    (blocked : (daemon options type capacity).Blocked s .rvsGet pipe) :
    Rest options type capacity s := by
  obtain ⟨runs, writes, _⟩ := blocked_writes options type capacity sound blocked
  cases node_of_rvsGet options type runs
  have fewest := (mainThreads_between options .node).1
  have rvs2ph : pipe = .rvs2ph := by
    cases pipe with
    | rvs2ph => rfl
    | _ => cases writes
  subst rvs2ph
  obtain ⟨target, phOutput⟩ := settled.blocked_reader running wide blocked
    (reads_of_runs options .node capacity (fewest (by decide)) (by decide)
      (rfl : Thread.phOutput.reads .rvs2ph = true))
  have ph2nr : target = .ph2nr := by
    have writes :=
      (blocked_writes options .node capacity sound phOutput).2.1
    cases target with
    | ph2nr => rfl
    | _ => cases writes
  subst ph2nr
  obtain ⟨target, nrOutput⟩ := settled.blocked_reader running wide phOutput
    (reads_of_runs options .node capacity (fewest (by decide)) (by decide)
      (rfl : Thread.nrOutput.reads .ph2nr = true))
  have cm2rvs : target = .cm2rvs := by
    obtain ⟨_, writes, inside⟩ :=
      blocked_writes options .node capacity sound nrOutput
    cases target with
    | cm2rvs => rfl
    | udp => cases inside
    | _ => cases writes
  subst cm2rvs
  exact .loop rfl phOutput nrOutput blocked

theorem rest_of_settled {s : DaemonState}
    (room : ∀ pipe, 0 < capacity pipe)
    (sound : (daemonLayers options type capacity).Sound s)
    (settled : (daemon options type capacity).Settled s) :
    Rest options type capacity s := by
  cases running : s.memory.exited with
  | true => exact .exited running
  | false =>
      have wide : ∀ pipe,
          (daemon options type capacity).HasRoom pipe [] = true := by
        intro pipe
        cases exit : pipe.isExit with
        | true => simp [ThreadNetwork.HasRoom, daemon, exit]
        | false => simp [ThreadNetwork.HasRoom, daemon, exit, room pipe]
      rcases (daemonLayers options type capacity).drained_or_jammed sound
        settled running wide with drained | ⟨thread, pipe, blocked, jammed⟩
      · exact .drained drained
      · rcases jammed with unread | ⟨reader, target, back, _, waits⟩
        · exact rest_of_unread options type capacity sound blocked unread
        · cases reader with
          | rvsGet =>
              exact rest_of_resolver options type capacity sound settled
                running wide waits
          | _ => cases back

def resolverTurns (events : List DaemonEvent) : Nat :=
  events.countP fun event => event.reader.any Thread.feedsBack

theorem resolverTurns_eq_zero {start s : DaemonState}
    {events : List DaemonEvent} {moves : List DaemonMove}
    (other : type ≠ .node)
    (run : (daemon options type capacity).machine.Run start events moves s) :
    resolverTurns events = 0 := by
  induction run with
  | nil => rfl
  | @snoc events _ state _ event _ _ last ih =>
      have here : resolverTurns [event] = 0 := by
        cases event with
        | read thread pipe now =>
            obtain ⟨_, _, reads, _⟩ := ThreadNetwork.step_read last
            have runs := (daemon_reads options type capacity reads).1
            cases thread with
            | rvsGet => exact (other (node_of_rvsGet options type runs)).elim
            | _ => rfl
        | _ => rfl
      rw [resolverTurns, List.countP_append]
      exact Nat.add_eq_zero_iff.mpr ⟨ih, here⟩

/-- The messages in the pipes between the threads, with those about to be
written.  What has left the daemon does not count. -/
def waiting (s : DaemonState) : Nat :=
  s.messages fun pipe => !pipe.isExit

/-- From wherever a daemon has got to, its threads make a bounded number of
moves by themselves, not counting what the resolver of a node feeds back, and
no other type of node has one.  When none can move any more, everything has
been handled, or the process is gone, or the output thread waits in front of a
full pipe of requests, or a node is caught in the loop of resolutions. -/
theorem daemon_rests {memory : Memory} {start s : DaemonState}
    {before events : List DaemonEvent} {moved moves : List DaemonMove}
    (room : ∀ pipe, 0 < capacity pipe)
    (reached : (daemon options type capacity).machine.Run (bootState memory)
      before moved start)
    (internal : ∀ event ∈ events, event.Internal)
    (run : (daemon options type capacity).machine.Run start events moves s) :
    events.length ≤
        4373 * waiting start + 22143 * resolverTurns events ∧
      (type ≠ .node → resolverTurns events = 0) ∧
      ((daemon options type capacity).Settled s →
        Rest options type capacity s) := by
  let layers := daemonLayers options type capacity
  refine ⟨?_, fun other => ?_, fun settled => ?_⟩
  · have top : ∀ pipe : Pipe, pipe.height ≤ 7 := by
      intro pipe
      cases pipe <;> decide
    have outside : ∀ pipe : Pipe, (!pipe.isExit) = false →
        pipe.height = 0 := by
      intro pipe
      cases pipe <;> decide
    have bounded := layers.potential_run internal run
    have light := layers.potential_le top outside start
    rw [← waiting] at light
    have message : ThreadNetwork.Layers.weight 3 7 = 4372 := by decide
    have back : 3 * ∑ pipe : Pipe,
        (ThreadNetwork.Layers.weight 3 pipe.height + 1) = 22143 := by
      decide +kernel
    have turns : layers.feedbacks events = resolverTurns events := rfl
    rw [show layers.feedbackWeight = 22143 from back, turns] at bounded
    rw [show layers.fanout = 3 from rfl, message] at light
    omega
  · exact resolverTurns_eq_zero options type capacity other run
  · have booted : layers.Sound (bootState memory) := by
      intro thread write member
      cases member
    have soundStart : layers.Sound start :=
      reached.invariant booted fun sound stepped =>
        ThreadNetwork.Layers.sound_step sound stepped
    have sound : layers.Sound s :=
      run.invariant soundStart fun sound stepped =>
        ThreadNetwork.Layers.sound_step sound stepped
    exact rest_of_settled options type capacity room sound settled

end Daemon

section Example

private def relayer : Configuration :=
  .sample .gateway (NID.ofNat 1)

private def plain : MainOptions := ⟨false, false, false⟩

private def passing : List UInt8 :=
  frame
    { type := .data
      srcNID := NID.ofNat 7
      destNID := NID.ofNat 8
      srcNIDgw := NID.ofNat 2
      destNIDgw := NID.ofNat 2 } [1, 2, 3]

private def small : ThreadNetwork Thread Pipe Parcel Moment Input Memory :=
  daemon plain .gateway (fun _ => 1)

private def entering : List DaemonEvent :=
  [.input .nrInputGw (.arrival (.ofSec 100) (some (passing, NID32.ofNat 9)))]

private theorem enters : (small.machine.exec
    (bootState (mainMemory relayer plain)) entering).isSome := by
  decide +kernel

private def afterEntry : DaemonState × List DaemonMove :=
  (small.machine.exec (bootState (mainMemory relayer plain)) entering).get
    enters

private def relaysOnce : List DaemonEvent :=
  [.write .nrInputGw, .read .nrOutputGw .nr ⟨.ofSec 100, true, .refused⟩,
    .write .nrOutputGw]

/-- The packet is sent after three moves, and then no thread can move. -/
theorem daemon_rests_relayed : ∃ before moves s,
    small.machine.Run (bootState (mainMemory relayer plain)) entering before
        afterEntry.1 ∧
      waiting afterEntry.1 = 1 ∧
      small.machine.Run afterEntry.1 relaysOnce moves s ∧
      relaysOnce.length ≤
        4373 * waiting afterEntry.1 + 22143 * resolverTurns relaysOnce ∧
      (s.queue .udp).map Parcel.bytes = [passing] ∧
      small.Settled s ∧ Rest plain .gateway (fun _ => 1) s := by
  have idle : (small.machine.exec afterEntry.1 relaysOnce).any (fun result =>
      (result.1.queue .udp).map Parcel.bytes = [passing] ∧
        (∀ thread, (result.1.pending thread).isEmpty) ∧
        ∀ pipe : Pipe, pipe.isExit ∨ (result.1.queue pipe).isEmpty) = true := by
    decide +kernel
  obtain ⟨moves, s, run, idle⟩ := Machine.exists_run_of_exec idle
  obtain ⟨sent, threads, pipes⟩ := of_decide_eq_true idle
  have settled : small.Settled s :=
    (drained_of_empty plain .gateway (fun _ => 1) threads pipes).settled
  have reached : small.machine.Run (bootState (mainMemory relayer plain))
      entering afterEntry.2 afterEntry.1 :=
    Machine.run_of_exec (Option.some_get enters).symm
  have internal : ∀ event ∈ relaysOnce, event.Internal := by
    intro event member
    simp only [relaysOnce, List.mem_cons, List.not_mem_nil, or_false] at member
    rcases member with rfl | rfl | rfl <;> trivial
  have rests := daemon_rests plain .gateway (fun _ => 1)
    (fun _ => Nat.zero_lt_one) reached internal run
  exact ⟨afterEntry.2, moves, s, reached, by decide +kernel, run, rests.1, sent,
    settled, rests.2.2 settled⟩

end Example

end NodeIdentity
