import NodeIdentity.Library.BoundedChannel
import NodeIdentity.Library.Machine
import NodeIdentity.Nidd

/-!
# Requests nobody reads

Every output thread asks for resolutions by a write to `sp_cm2rvs`, but `main`
starts a reader on a node only.  The channel of any other type just fills up,
and what it holds is what the thread has asked for since the start.
-/

namespace NodeIdentity

open NodeIdentity.Library

/-- The output thread and the channel it writes its requests to. -/
structure OutputSystem (capacity : Nat) where
  nr : NrOutput
  cm2rvs : Channel NID capacity

/-- `packet` is a turn of the output thread, which is not over before the write
in `getCMEntry` returns with `written`.  `others` is what the other threads
leave in the tables. -/
inductive OutputEvent where
  | packet (source : NrSource) (now : Timeval) (datagram : List UInt8)
  | written
  | rvsGet
  | others (cm : ConnMapper) (queueTable : QueueTable)

/-- The packet is for a NID which has to be resolved.  Only packets of the
node itself are looked up in the connection map. -/
def NrOutput.resolves (source : NrSource) (now : Timeval)
    (datagram : List UInt8) (s : NrOutput) : Bool :=
  match source with
  | .ph2nr =>
      needsResolution (s.read datagram).header.destNID now s.cm s.queueTable
  | .nr => false

/-- The output says whether the packet has to be resolved. -/
def outputStep {capacity : Nat} (options : MainOptions) (type : NodeType)
    (s : OutputSystem capacity) :
    OutputEvent → Option (OutputSystem capacity × Bool)
  | .packet source now datagram =>
      if s.cm2rvs.Idle then
        ((outputThread type).nrTurn source now datagram s.nr).map fun turn =>
          (⟨turn.state, s.cm2rvs.offer turn.request⟩,
            s.nr.resolves source now datagram)
      else none
  | .written =>
      s.cm2rvs.accept.map fun cm2rvs => ({ s with cm2rvs := cm2rvs }, false)
  | .rvsGet =>
      if (mainThreads options type).any Thread.readsCm2rvs then
        s.cm2rvs.take.map fun taken => ({ s with cm2rvs := taken.2 }, false)
      else none
  | .others cm queueTable =>
      some ({ s with nr := { s.nr with cm := cm, queueTable := queueTable } },
        false)

def outputMachine (capacity : Nat) (options : MainOptions) (type : NodeType) :
    Machine (OutputSystem capacity) OutputEvent Bool :=
  ⟨outputStep options type⟩

/-- The output thread is in a write which cannot return, and no thread will
ever read the channel. -/
def Stuck {capacity : Nat} (options : MainOptions) (type : NodeType)
    (s : OutputSystem capacity) : Prop :=
  s.cm2rvs.Blocked ∧
    ∀ thread ∈ mainThreads options type, thread.readsCm2rvs = false

instance {capacity : Nat} (options : MainOptions) (type : NodeType)
    (s : OutputSystem capacity) : Decidable (Stuck options type s) :=
  inferInstanceAs (Decidable (_ ∧ _))

theorem routeCore_request (request : Option NID) (now : Timeval)
    (header : NidHeader) (packet : List UInt8) (s : NrOutput) :
    (routeCore request now header packet s).request = request := by
  simp only [routeCore]
  split
  · rfl
  · split <;> rfl

theorem nrTurn_request {thread : Thread} {source : NrSource} {now : Timeval}
    {datagram : List UInt8} {s : NrOutput} {turn : NrTurn}
    (result : thread.nrTurn source now datagram s = some turn) :
    turn.request.toList.length = (s.resolves source now datagram).toNat := by
  have asked : ∀ nid, (getCMEntry nid now s.cm s.queueTable).request.toList.length
      = (needsResolution nid now s.cm s.queueTable).toNat := by
    intro nid
    rw [getCMEntry_request]
    cases needsResolution nid now s.cm s.queueTable with
    | true => rfl
    | false => rfl
  cases thread with
  | nrOutput =>
      cases source with
      | ph2nr =>
          cases result
          exact asked _
      | nr => cases result
  | nrOutputGw =>
      cases result
      cases source with
      | ph2nr =>
          simp only [threadNrOutputGw]
          split <;> exact asked _
      | nr => rfl
  | nrOutputCore =>
      cases result
      cases source with
      | ph2nr =>
          simp only [threadNrOutputCore]
          split
          · exact asked _
          · rw [routeCore_request]
            exact asked _
      | nr =>
          simp only [threadNrOutputCore, routeCore_request]
          rfl
  | _ => cases result

theorem load_step {capacity : Nat} {options : MainOptions} {type : NodeType}
    {s next : OutputSystem capacity} {event : OutputEvent} {resolves : Bool}
    (unread : type ≠ .node)
    (stepped : (outputMachine capacity options type).step s event =
      some (next, resolves)) :
    next.cm2rvs.load = s.cm2rvs.load + resolves.toNat := by
  cases event with
  | packet source now datagram =>
      simp only [outputMachine, outputStep] at stepped
      split at stepped
      · next idle =>
          obtain ⟨turn, result, pair⟩ := Option.map_eq_some_iff.mp stepped
          cases pair
          rw [Channel.load_offer idle, nrTurn_request result]
      · cases stepped
  | written =>
      obtain ⟨cm2rvs, accepted, pair⟩ := Option.map_eq_some_iff.mp stepped
      cases pair
      exact Channel.load_accept accepted
  | rvsGet =>
      simp only [outputMachine, outputStep, readsCm2rvs_iff, if_neg unread]
        at stepped
      cases stepped
  | others cm queueTable =>
      cases stepped
      rfl

theorem stuck_iff {capacity : Nat} {options : MainOptions} {type : NodeType}
    {s : OutputSystem capacity} :
    Stuck options type s ↔
      s.cm2rvs.load = capacity + 1 ∧ type ≠ .node := by
  rw [Stuck, Channel.blocked_iff, ne_eq, ← @readsCm2rvs_iff options,
    Bool.not_eq_true, List.any_eq_false]
  simp only [Bool.not_eq_true]

def resolutions (outputs : List Bool) : Nat := outputs.count true

theorem resolutions_snoc (outputs : List Bool) (resolves : Bool) :
    resolutions (outputs ++ [resolves]) =
      resolutions outputs + resolves.toNat := by
  rw [resolutions, List.count_append]
  cases resolves with
  | true => rfl
  | false => rfl

theorem load_of_run {capacity : Nat} {options : MainOptions} {type : NodeType}
    {nr : NrOutput} {events : List OutputEvent} {outputs : List Bool}
    {s : OutputSystem capacity} (unread : type ≠ .node)
    (run : (outputMachine capacity options type).Run ⟨nr, Channel.empty⟩ events
      outputs s) :
    s.cm2rvs.load = resolutions outputs := by
  induction run with
  | nil => rfl
  | snoc _ last ih =>
      rw [load_step unread last, ih, resolutions_snoc]

/-- No type of node ever gets its output thread stuck. -/
def NeverStuck : Prop :=
  ∀ (options : MainOptions) (config : Configuration) (buf : Buffer maxBufLen)
    (capacity : Nat) (events : List OutputEvent) (outputs : List Bool)
    (s : OutputSystem capacity),
    1 ≤ capacity →
    (outputMachine capacity options config.type).Run
      ⟨mainNrOutput config buf, Channel.empty⟩ events outputs s →
    ¬ Stuck options config.type s

/-- That is so exactly on a node, and as long as no more packets had to be
resolved than the channel holds. -/
theorem neverStuck_iff {capacity : Nat} {options : MainOptions}
    {type : NodeType} {nr : NrOutput} {events : List OutputEvent}
    {outputs : List Bool} {s : OutputSystem capacity}
    (run : (outputMachine capacity options type).Run ⟨nr, Channel.empty⟩ events
      outputs s) :
    (∀ state, (outputMachine capacity options type).Visited ⟨nr, Channel.empty⟩
        events state → ¬ Stuck options type state) ↔
      type = .node ∨ resolutions outputs ≤ capacity := by
  by_cases read : type = .node
  · refine iff_of_true ?_ (.inl read)
    intro state _ stuck
    exact (stuck_iff.mp stuck).2 read
  · simp only [stuck_iff, read, false_or, ne_eq, not_false_eq_true, and_true]
    induction run with
    | nil =>
        refine iff_of_true ?_ (Nat.zero_le capacity)
        intro state visited
        rw [Machine.visited_nil_iff.mp visited]
        exact Nat.ne_of_lt (Nat.succ_pos capacity)
    | @snoc events outputs state next event resolves earlier last ih =>
        have whole := earlier.snoc last
        have load := load_of_run read whole
        simp only [Machine.visited_snoc_iff whole, or_imp, forall_and,
          forall_eq, ih, load, resolutions_snoc]
        have one := resolves.toNat_le
        -- the load is the count, and one packet takes it at most one further
        omega

section Example

private def busyGateway : Configuration :=
  .sample .gateway (NID.ofNat 1)

private def allThreads : MainOptions := ⟨true, true, true⟩

private def booted : OutputSystem 1 :=
  ⟨mainNrOutput busyGateway (Buffer.zero maxBufLen), Channel.empty⟩

/-- The first packet for a NID, which no entry serves. -/
private def packetFor (destination : Nat) : OutputEvent :=
  .packet .ph2nr (.ofSec 1000) (frame
    { type := .data
      srcNID := NID.ofNat 1
      destNID := NID.ofNat destination
      srcNIDgw := NID.ofNat 2
      destNIDgw := NID.ofNat 2 } [])

/-- Packets for two new destinations are enough. -/
theorem not_neverStuck : ¬ NeverStuck := by
  intro never
  have stuck : ((outputMachine 1 allThreads .gateway).exec booted
      [packetFor 8, .written, packetFor 9]).any
        (fun result => Stuck allThreads .gateway result.1) = true := by
    decide +kernel
  obtain ⟨outputs, s, run, stuck⟩ := Machine.exists_run_of_exec stuck
  exact never allThreads busyGateway (Buffer.zero maxBufLen) 1 _ outputs s
    le_rfl run (of_decide_eq_true stuck)

/-- One of them is not. -/
theorem neverStuck_one : ∃ outputs s,
    (outputMachine 1 allThreads .gateway).Run booted [packetFor 8, .written]
        outputs s ∧
      ∀ state, (outputMachine 1 allThreads .gateway).Visited booted
        [packetFor 8, .written] state → ¬ Stuck allThreads .gateway state := by
  have few : ((outputMachine 1 allThreads .gateway).exec booted
      [packetFor 8, .written]).any
        (fun result => resolutions result.2 ≤ 1) = true := by
    decide +kernel
  obtain ⟨outputs, s, run, few⟩ := Machine.exists_run_of_exec few
  exact ⟨outputs, s, run,
    (neverStuck_iff run).mpr (.inr (of_decide_eq_true few))⟩

end Example

end NodeIdentity
