import NodeIdentity.Library.BoundedChannel
import NodeIdentity.Properties.DataIdentity
import NodeIdentity.Nidd

/-!
# The loop of resolutions on a node

A packet for an unresolved NID sends a request around: the output thread of
the packet handler, that of NID routing, and the resolver, which writes back
to the first.  Each of the three channels between them is bounded, and the
first thread prefers new packets to the requests coming back.  The load of the
loop is what its channels hold; the threads block each other exactly at the
greatest load, and only a new packet adds to it.
-/

namespace NodeIdentity

open NodeIdentity.Library

/-- The three threads, each with the channel it writes.  A thread which is in
a write does nothing else. -/
structure NodeLoop (capacity : Nat) where
  nf2ph : List IpPacket
  nm : NidMapper
  ph : PhOutput
  ph2nr : Channel PhOutput.Frame capacity
  nr : NrOutput
  cm2rvs : Channel NID capacity
  rvs2ph : Channel NidMsg capacity

/-- A turn of a thread up to its write, or the return of the write.  Packets
arrive from outside, and other threads leave something in the tables. -/
inductive LoopEvent where
  | arrive (packet : IpPacket)
  | others (nm : NidMapper) (cm : ConnMapper) (queueTable : QueueTable)
  | phOutput
  | ph2nr
  | nrOutput (now : Timeval)
  | cm2rvs
  | rvsGet
  | rvs2ph

namespace NodeLoop

variable {capacity : Nat}

/-- `thread_ph_output` after `select`: it looks at `sp_nf2ph` first. -/
def phOutputTurn (s : NodeLoop capacity) : Option (NodeLoop capacity) :=
  match s.nf2ph with
  | packet :: nf2ph =>
      let turn := threadPhOutput .nf2ph packet.bytes s.nm s.ph
      some { s with
        nf2ph := nf2ph
        ph := turn.1
        ph2nr := s.ph2nr.offer turn.2 }
  | [] =>
      s.rvs2ph.take.map fun (nmsg, rvs2ph) =>
        let turn := threadPhOutput .rvs2ph (nidMsgCodec.encode nmsg) s.nm s.ph
        { s with
          rvs2ph := rvs2ph
          ph := turn.1
          ph2nr := s.ph2nr.offer turn.2 }

/-- `thread_nr_output`, which writes to `sp_cm2rvs` in `getCMEntry`. -/
def nrOutputTurn (now : Timeval) (s : NodeLoop capacity) :
    Option (NodeLoop capacity) :=
  s.ph2nr.take.map fun (sent, ph2nr) =>
    let turn := threadNrOutput now (frame sent.header sent.payload) s.nr
    { s with
      ph2nr := ph2nr
      nr := turn.state
      cm2rvs := s.cm2rvs.offer turn.request }

def rvsGetTurn (config : Configuration) (s : NodeLoop capacity) :
    Option (NodeLoop capacity) :=
  s.cm2rvs.take.map fun (nid, cm2rvs) =>
    { s with
      cm2rvs := cm2rvs
      rvs2ph := s.rvs2ph.offer (some (threadRvsGet config nid)) }

def step (config : Configuration) (s : NodeLoop capacity) :
    LoopEvent → Option (NodeLoop capacity)
  | .arrive packet => some { s with nf2ph := s.nf2ph ++ [packet] }
  | .others nm cm queueTable =>
      some { s with
        nm := nm
        nr := { s.nr with cm := cm, queueTable := queueTable } }
  | .phOutput => if s.ph2nr.Idle then s.phOutputTurn else none
  | .ph2nr => s.ph2nr.accept.map fun ph2nr => { s with ph2nr := ph2nr }
  | .nrOutput now => if s.cm2rvs.Idle then s.nrOutputTurn now else none
  | .cm2rvs => s.cm2rvs.accept.map fun cm2rvs => { s with cm2rvs := cm2rvs }
  | .rvsGet => if s.rvs2ph.Idle then s.rvsGetTurn config else none
  | .rvs2ph => s.rvs2ph.accept.map fun rvs2ph => { s with rvs2ph := rvs2ph }

def Deadlocked (s : NodeLoop capacity) : Prop :=
  s.ph2nr.Blocked ∧ s.cm2rvs.Blocked ∧ s.rvs2ph.Blocked

instance (s : NodeLoop capacity) : Decidable s.Deadlocked :=
  inferInstanceAs (Decidable (_ ∧ _))

/-- The messages in the loop, with those the threads are writing. -/
def load (s : NodeLoop capacity) : Nat :=
  s.ph2nr.load + s.cm2rvs.load + s.rvs2ph.load

/-- A packet which the mapper knows comes into the loop. -/
def Admits (s : NodeLoop capacity) : LoopEvent → Prop
  | .phOutput =>
      s.ph2nr.Idle ∧ ∃ packet rest, s.nf2ph = packet :: rest ∧
        (getNMEntry32 packet.daddr s.nm).isSome = true
  | _ => False

end NodeLoop

def loopMachine (config : Configuration) (capacity : Nat) :
    Machine (NodeLoop capacity) LoopEvent Unit :=
  { step := fun s event => (s.step config event).map fun next => (next, ()) }

/-- How `main` leaves a node.  The stack buffer of the routing thread may hold
anything. -/
def loopStart (config : Configuration) (get_dns : Bool) (capacity : Nat)
    (buf : Buffer maxBufLen) : NodeLoop capacity :=
  { nf2ph := []
    nm := mainNidMapper config get_dns
    ph := initPhOutput config
    ph2nr := Channel.empty
    nr := mainNrOutput config buf
    cm2rvs := Channel.empty
    rvs2ph := Channel.empty }

namespace NodeLoop

variable {capacity : Nat}

theorem deadlocked_iff {s : NodeLoop capacity} :
    s.Deadlocked ↔ s.load = 3 * capacity + 3 := by
  have first := s.ph2nr.load_le
  have second := s.cm2rvs.load_le
  have third := s.rvs2ph.load_le
  rw [Deadlocked, Channel.blocked_iff, Channel.blocked_iff, Channel.blocked_iff,
    load]
  omega

theorem load_le (s : NodeLoop capacity) : s.load ≤ 3 * capacity + 3 := by
  have first := s.ph2nr.load_le
  have second := s.cm2rvs.load_le
  have third := s.rvs2ph.load_le
  rw [load]
  omega

theorem output_packet (packet : IpPacket) (nm : NidMapper) (ph : PhOutput) :
    (threadPhOutput .nf2ph packet.bytes nm ph).2.isSome =
      (getNMEntry32 packet.daddr nm).isSome := by
  simp only [threadPhOutput, phOutputData, daddr_read]
  cases getNMEntry32 packet.daddr nm with
  | none => rfl
  | some entry => rfl

/-- A turn of the packet handler adds a packet to the loop or takes a request
around, and drops packets the mapper does not know. -/
theorem phOutputTurn_load {s next : NodeLoop capacity}
    (idle : s.ph2nr.Idle) (turned : s.phOutputTurn = some next) :
    (s.Admits .phOutput ∧ next.load = s.load + 1) ∨
      (¬ s.Admits .phOutput ∧ next.load ≤ s.load) := by
  unfold phOutputTurn at turned
  split at turned
  · next packet nf2ph waiting =>
      cases turned
      have emitted := output_packet packet s.nm s.ph
      have offered := Channel.load_offer idle
        (threadPhOutput .nf2ph packet.bytes s.nm s.ph).2
      cases known : (getNMEntry32 packet.daddr s.nm).isSome with
      | true =>
          obtain ⟨sent, emission⟩ :=
            Option.isSome_iff_exists.mp (emitted.trans known)
          refine .inl ⟨⟨idle, packet, nf2ph, waiting, known⟩, ?_⟩
          rw [emission] at offered
          simp only [load, emission, offered, Option.toList_some,
            List.length_singleton]
          omega
      | false =>
          have dropped := Option.isSome_eq_false_iff.mp (emitted.trans known)
          refine .inr ⟨?_, ?_⟩
          · rintro ⟨_, other, rest, whole, admitted⟩
            cases waiting.symm.trans whole
            cases known.symm.trans admitted
          · rw [Option.isNone_iff_eq_none.mp dropped] at offered
            simp only [load, Option.isNone_iff_eq_none.mp dropped, offered,
              Option.toList_none, List.length_nil]
            omega
  · next waiting =>
      obtain ⟨⟨nmsg, rvs2ph⟩, taken, rfl⟩ := Option.map_eq_some_iff.mp turned
      refine .inr ⟨?_, ?_⟩
      · rintro ⟨_, packet, rest, whole, _⟩
        cases waiting.symm.trans whole
      · have left := Channel.load_take taken
        simp only [load, threadPhOutput, phOutputControl,
          Channel.load_offer idle, Option.toList_some, List.length_singleton]
        omega

theorem nrOutputTurn_load {now : Timeval} {s next : NodeLoop capacity}
    (idle : s.cm2rvs.Idle) (turned : s.nrOutputTurn now = some next) :
    next.load ≤ s.load := by
  obtain ⟨⟨sent, ph2nr⟩, taken, rfl⟩ := Option.map_eq_some_iff.mp turned
  have left := Channel.load_take taken
  have asked : ∀ request : Option NID, request.toList.length ≤ 1 := by
    intro request
    cases request with
    | none => exact Nat.zero_le 1
    | some nid => exact le_rfl
  have one := asked (threadNrOutput now (frame sent.header sent.payload)
    s.nr).request
  simp only [load, Channel.load_offer idle]
  omega

theorem rvsGetTurn_load {config : Configuration} {s next : NodeLoop capacity}
    (idle : s.rvs2ph.Idle) (turned : s.rvsGetTurn config = some next) :
    next.load ≤ s.load := by
  obtain ⟨⟨nid, cm2rvs⟩, taken, rfl⟩ := Option.map_eq_some_iff.mp turned
  have left := Channel.load_take taken
  simp only [load, Channel.load_offer idle, Option.toList_some,
    List.length_singleton]
  omega

theorem step_load {config : Configuration} {s next : NodeLoop capacity}
    {event : LoopEvent} (stepped : s.step config event = some next) :
    (s.Admits event ∧ next.load = s.load + 1) ∨
      (¬ s.Admits event ∧ next.load ≤ s.load) := by
  cases event with
  | arrive packet =>
      cases stepped
      exact .inr ⟨id, le_rfl⟩
  | others nm cm queueTable =>
      cases stepped
      exact .inr ⟨id, le_rfl⟩
  | phOutput =>
      simp only [step] at stepped
      split at stepped
      · next idle => exact phOutputTurn_load idle stepped
      · cases stepped
  | ph2nr =>
      obtain ⟨ph2nr, accepted, rfl⟩ := Option.map_eq_some_iff.mp stepped
      refine .inr ⟨id, ?_⟩
      simp only [load, Channel.load_accept accepted]
      exact le_rfl
  | nrOutput now =>
      simp only [step] at stepped
      split at stepped
      · next idle => exact .inr ⟨id, nrOutputTurn_load idle stepped⟩
      · cases stepped
  | cm2rvs =>
      obtain ⟨cm2rvs, accepted, rfl⟩ := Option.map_eq_some_iff.mp stepped
      refine .inr ⟨id, ?_⟩
      simp only [load, Channel.load_accept accepted]
      exact le_rfl
  | rvsGet =>
      simp only [step] at stepped
      split at stepped
      · next idle => exact .inr ⟨id, rvsGetTurn_load idle stepped⟩
      · cases stepped
  | rvs2ph =>
      obtain ⟨rvs2ph, accepted, rfl⟩ := Option.map_eq_some_iff.mp stepped
      refine .inr ⟨id, ?_⟩
      simp only [load, Channel.load_accept accepted]
      exact le_rfl

end NodeLoop

/-- The threads of a node never all block each other. -/
def NeverDeadlocked : Prop :=
  ∀ (config : Configuration) (get_dns : Bool) (capacity : Nat)
    (buf : Buffer maxBufLen) (events : List LoopEvent) (outputs : List Unit)
    (s : NodeLoop capacity),
    config.type = .node → 1 ≤ capacity →
    (loopMachine config capacity).Run (loopStart config get_dns capacity buf)
      events outputs s →
    ¬ s.Deadlocked

theorem notDeadlocked_step_iff {config : Configuration} {capacity : Nat}
    {s next : NodeLoop capacity} {event : LoopEvent} {output : Unit}
    (safe : ¬ s.Deadlocked)
    (stepped : (loopMachine config capacity).step s event =
      some (next, output)) :
    ¬ next.Deadlocked ↔ (s.Admits event → s.load ≠ 3 * capacity + 2) := by
  obtain ⟨reached, result, pair⟩ := Option.map_eq_some_iff.mp stepped
  cases pair
  have most := s.load_le
  rw [NodeLoop.deadlocked_iff] at safe ⊢
  rcases NodeLoop.step_load result with admitted | kept
  · simp only [admitted.1, admitted.2, true_implies, ne_eq]
    omega
  · refine iff_of_true ?_ ?_
    · omega
    · intro admitted
      exact (kept.1 admitted).elim

/-- They never do in a run exactly if no packet is admitted to a loop which
holds a message everywhere else. -/
theorem neverDeadlocked_iff {config : Configuration} {get_dns : Bool}
    {capacity : Nat} {buf : Buffer maxBufLen} {events : List LoopEvent}
    {outputs : List Unit} {s : NodeLoop capacity}
    (run : (loopMachine config capacity).Run
      (loopStart config get_dns capacity buf) events outputs s) :
    (∀ state, (loopMachine config capacity).Visited
        (loopStart config get_dns capacity buf) events state →
        ¬ state.Deadlocked) ↔
      ∀ state event, (loopMachine config capacity).Taken
        (loopStart config get_dns capacity buf) events state event →
        state.Admits event → state.load ≠ 3 * capacity + 2 := by
  have empty : ¬ (loopStart config get_dns capacity buf).Deadlocked := by
    rw [NodeLoop.deadlocked_iff]
    simp [NodeLoop.load, loopStart]
  exact run.safe_iff_allowed trivial empty (fun _ _ => trivial)
    (fun _ safe stepped => notDeadlocked_step_iff safe stepped)

/-- A packet handler which empties `sp_rvs2ph` before it takes a new packet
would never deadlock. -/
theorem neverDeadlocked_of_drained {config : Configuration} {get_dns : Bool}
    {capacity : Nat} {buf : Buffer maxBufLen} {events : List LoopEvent}
    {outputs : List Unit} {s : NodeLoop capacity} (positive : 1 ≤ capacity)
    (run : (loopMachine config capacity).Run
      (loopStart config get_dns capacity buf) events outputs s)
    (drained : ∀ state event, (loopMachine config capacity).Taken
      (loopStart config get_dns capacity buf) events state event →
      state.Admits event → state.rvs2ph.queue = []) :
    ¬ s.Deadlocked := by
  refine (neverDeadlocked_iff run).mpr ?_ s
    ⟨events, [], outputs, (List.append_nil events).symm, run⟩
  intro state event taken admitted
  have idle : state.ph2nr.Idle := by
    cases event with
    | phOutput => exact admitted.1
    | _ => exact admitted.elim
  have first := state.ph2nr.bounded
  have second := state.cm2rvs.load_le
  have third : state.rvs2ph.load ≤ 1 := by
    rw [Channel.load, drained state event taken admitted]
    cases state.rvs2ph.pending with
    | none => exact Nat.zero_le 1
    | some nmsg => exact le_rfl
  rw [NodeLoop.load, Channel.load_of_idle idle]
  omega

section Example

private def plainNode : Configuration :=
  .sample .node (NID.ofNat 1)

private def packetTo (host : UInt8) : IpPacket :=
  { bytes := List.replicate daddrOffset 0 ++ [1, 0, 0, host]
    complete := rfl.le }

/-- The first packet becomes a request which comes back to `sp_rvs2ph`, and
the next ones fill the loop behind it. -/
private def jam : List LoopEvent :=
  [1, 2, 4, 5, 6, 7].map (fun host => .arrive (packetTo host)) ++
    [.phOutput, .ph2nr, .nrOutput (.ofSec 1000), .cm2rvs, .rvsGet, .rvs2ph,
      .phOutput, .ph2nr, .nrOutput (.ofSec 1000), .cm2rvs, .rvsGet,
      .phOutput, .ph2nr, .nrOutput (.ofSec 1000), .cm2rvs,
      .phOutput, .ph2nr, .nrOutput (.ofSec 1000),
      .phOutput, .ph2nr,
      .phOutput]

private def jamStart : NodeLoop 1 :=
  loopStart plainNode false 1 (Buffer.zero maxBufLen)

private theorem jam_deadlocks : ∃ outputs s,
    (loopMachine plainNode 1).Run jamStart jam outputs s ∧ s.Deadlocked := by
  have jammed : ((loopMachine plainNode 1).exec jamStart jam).any
      (fun result => result.1.Deadlocked) = true := by decide +kernel
  obtain ⟨outputs, s, run, deadlocked⟩ := Machine.exists_run_of_exec jammed
  exact ⟨outputs, s, run, of_decide_eq_true deadlocked⟩

theorem not_neverDeadlocked : ¬ NeverDeadlocked := by
  intro never
  obtain ⟨outputs, s, run, deadlocked⟩ := jam_deadlocks
  exact never plainNode false 1 (Buffer.zero maxBufLen) jam outputs s rfl le_rfl
    run deadlocked

/-- Somewhere in that run a packet is admitted to a loop which holds five
messages. -/
theorem jam_admits : ∃ state event,
    (loopMachine plainNode 1).Taken jamStart jam state event ∧
      state.Admits event ∧ state.load = 5 := by
  obtain ⟨outputs, s, run, deadlocked⟩ := jam_deadlocks
  by_contra none
  refine (neverDeadlocked_iff run).mpr ?_ s
    ⟨jam, [], outputs, (List.append_nil jam).symm, run⟩ deadlocked
  intro state event taken admitted full
  exact none ⟨state, event, taken, admitted, full⟩

end Example

end NodeIdentity
