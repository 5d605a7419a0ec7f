import NodeIdentity.Library.Machine
import NodeIdentity.PacketHandler
import NodeIdentity.Control
import NodeIdentity.Nidd

/-!
# Static bindings of a node

The way of a frame through a node: the input thread of the routing layer, the
packet handler and the control thread, with the two queues between them.  The
entries for the gateway and the rendezvous server are static, but deletion does
not ask for that.
-/

namespace NodeIdentity

open NodeIdentity.Library

/-- The threads a frame passes through, and the tables they share with the
output thread.  `running` ends with an `exit` of the process. -/
structure NodeInput where
  running : Bool
  nrInput : NrInput
  nr2ph : List (List UInt8)
  phBuf : Buffer maxBufLen
  nm : NidMapper
  ph2co : List (List UInt8)
  nmsg : NmsgBuffer
  cm : ConnMapper
  queueTable : QueueTable

/-- `arrive` is a turn of `thread_nr_input`, with what `recvfrom` reports,
`handle` and `control` are turns of the next two threads, and `lookup` is a
call of `getCMEntry` by the output thread. -/
inductive NodeEvent where
  | arrive (now : Timeval) (arrival : Option (List UInt8 × NID32))
  | handle (now : Timeval) (sent : Bool)
  | control (now : Timeval)
  | lookup (now : Timeval) (nid : NID)

/-- The channels are queues; a thread does not run while its queue is empty. -/
def nodeStep (nid : NID) (s : NodeInput) (event : NodeEvent) :
    Option (NodeInput × Unit) :=
  if s.running then
    match event with
    | .arrive now arrival =>
        let turn := threadNrInput nid now arrival s.nrInput s.cm
        some ({ s with
          nrInput := turn.state
          cm := turn.cm
          nr2ph := s.nr2ph ++ turn.nr2ph.toList }, ())
    | .handle _ sent =>
        match s.nr2ph with
        | datagram :: rest =>
            let turn := threadPhInput datagram sent s.phBuf s.nm
            some ({ s with
              running := !turn.exits
              nr2ph := rest
              phBuf := turn.buf
              nm := turn.nm
              ph2co := s.ph2co ++ turn.ph2co.toList }, ())
        | [] => none
    | .control now =>
        match s.ph2co with
        | datagram :: rest =>
            let turn := threadControl now datagram s.nmsg s.cm s.queueTable
            some ({ s with
              ph2co := rest
              nmsg := turn.buf
              cm := turn.cm
              queueTable := turn.queueTable }, ())
        | [] => none
    | .lookup now nid =>
        let answer := getCMEntry nid now s.cm s.queueTable
        some ({ s with cm := answer.cm, queueTable := answer.queueTable }, ())
  else none

def nodeMachine (config : Configuration) : Machine NodeInput NodeEvent Unit :=
  ⟨nodeStep config.nid⟩

/-- `getCMEntry` answers with `ip`, whenever it is asked. -/
def Bound (cm : ConnMapper) (nid : NID) (ip : NID32) : Prop :=
  ∀ now queueTable, (getCMEntry nid now cm queueTable).found = true ∧
    (getCMEntry nid now cm queueTable).dst = ip

def StaticBindings (config : Configuration) (cm : ConnMapper) : Prop :=
  Bound cm config.nidrvs config.rvsIP ∧ Bound cm config.nidgw config.gatewayIP

theorem bound_iff {cm : ConnMapper} {nid : NID} {ip : NID32} :
    Bound cm nid ip ↔ cm.leases nid = some ⟨ip, 0⟩ := by
  constructor
  · intro bound
    cases held : cm.leases nid with
    | none =>
        have dead : ∀ lease, ¬ cm.LiveEntry (.ofSec 0) nid lease := by
          intro lease live
          cases held.symm.trans live.1
        have missed := (getCMEntry_dead _ dead).1.symm.trans
          (bound (.ofSec 0) initRvsQueueTable).1
        cases missed
    | some lease =>
        by_cases permanent : lease.Permanent
        · have live : cm.LiveEntry (.ofSec 0) nid lease :=
            ⟨held, .inl permanent⟩
          have answer := (getCMEntry_live initRvsQueueTable live).2.1.symm.trans
            (bound (.ofSec 0) initRvsQueueTable).2
          rw [← answer, ← permanent]
        · let later : Timeval := .ofSec (lease.since + rvsUpdateTimeout)
          have dead : ∀ other, ¬ cm.LiveEntry later nid other := by
            intro other live
            cases held.symm.trans live.1
            rcases live.2 with static | before
            · exact permanent static
            · exact Nat.lt_irrefl _ before
          have missed := (getCMEntry_dead _ dead).1.symm.trans
            (bound later initRvsQueueTable).1
          cases missed
  · intro held now queueTable
    have live : cm.LiveEntry now nid ⟨ip, 0⟩ := ⟨held, .inl rfl⟩
    exact ⟨(getCMEntry_live queueTable live).1,
      (getCMEntry_live queueTable live).2.1⟩

theorem nodeConnMapper_bindings {config : Configuration}
    (consistent : config.nidrvs = config.nidgw →
      config.rvsIP = config.gatewayIP) :
    StaticBindings config (nodeConnMapper config) := by
  have empty : (initConnMapper config).leases = fun _ => none :=
    leases_empty 20 (by decide)
  constructor
  · rw [bound_iff, nodeConnMapper, leases_staticCMEntry, leases_staticCMEntry,
      empty]
    by_cases same : config.nidrvs = config.nidgw
    · simp [LeaseTable.install, LeaseTable.installed, same, consistent same]
    · rw [LeaseTable.install_of_ne _ same]
      simp [LeaseTable.install, LeaseTable.installed]
  · rw [bound_iff, nodeConnMapper, leases_staticCMEntry, leases_staticCMEntry,
      empty]
    by_cases same : config.nidrvs = config.nidgw
    · simp [LeaseTable.install, LeaseTable.installed, same]
    · simp [LeaseTable.install, LeaseTable.installed, Ne.symm same]

theorem Bound.newCMEntry {cm : ConnMapper} {nid : NID} {ip : NID32}
    (bound : Bound cm nid ip) (other : NID) (locator : NID32) (now : Timeval) :
    Bound (NodeIdentity.newCMEntry other locator now cm) nid ip := by
  rw [bound_iff] at bound ⊢
  rw [leases_newCMEntry]
  exact LeaseTable.refresh_permanent cm.leases other bound rfl locator now.tvSec

theorem Bound.getCMEntry {cm : ConnMapper} {nid : NID} {ip : NID32}
    (bound : Bound cm nid ip) (other : NID) (now : Timeval)
    (queueTable : QueueTable) :
    Bound (NodeIdentity.getCMEntry other now cm queueTable).cm nid ip := by
  by_cases same : nid = other
  · subst same
    have live : cm.LiveEntry now nid ⟨ip, 0⟩ := ⟨bound_iff.mp bound, .inl rfl⟩
    rw [(getCMEntry_live queueTable live).2.2]
    exact bound
  · rw [bound_iff] at bound ⊢
    rw [getCMEntry_leases_of_ne same, bound]

theorem Bound.delCMEntry_iff {cm : ConnMapper} {nid : NID} {ip : NID32}
    (bound : Bound cm nid ip) (other : NID) :
    Bound (delCMEntry other cm) nid ip ↔ other ≠ nid := by
  rw [bound_iff, leases_delCMEntry]
  constructor
  · intro kept same
    subst same
    rw [LeaseTable.drop_self] at kept
    cases kept
  · intro different
    rw [LeaseTable.drop_of_ne _ (Ne.symm different)]
    exact bound_iff.mp bound

/-- The message `thread_control` acts on next: the first datagram of its
queue, over what earlier ones left. -/
def NodeInput.nextControl (s : NodeInput) : Option NidMsg :=
  s.ph2co.head?.map fun datagram => NmsgBuffer.nmsg (s.nmsg.receive datagram)

/-- The step makes `thread_control` read a `RELOCATE` about one of the two
static bindings. -/
def Unbinds (config : Configuration) (s : NodeInput) : NodeEvent → Prop
  | .control _ => ∃ nmsg, s.nextControl = some nmsg ∧ nmsg.type = .relocate ∧
      (nmsg.nid = config.nidrvs ∨ nmsg.nid = config.nidgw)
  | _ => False

theorem Bound.threadControl_iff {cm : ConnMapper} {nid : NID} {ip : NID32}
    (bound : Bound cm nid ip) (now : Timeval) (datagram : List UInt8)
    (buf : NmsgBuffer) (queueTable : QueueTable) :
    Bound (threadControl now datagram buf cm queueTable).cm nid ip ↔
      ¬ ((NmsgBuffer.nmsg (buf.receive datagram)).type = .relocate ∧
        (NmsgBuffer.nmsg (buf.receive datagram)).nid = nid) := by
  simp only [threadControl]
  cases kind : (NmsgBuffer.nmsg (buf.receive datagram)).type with
  | redirect => simp [bound.newCMEntry]
  | relocate => simp [bound.delCMEntry_iff]
  | rvsResponse =>
      simp only
      split <;> simp [bound.newCMEntry, bound]
  | _ => simp [bound]

theorem staticBindings_step_iff {config : Configuration} {s next : NodeInput}
    {event : NodeEvent} {output : Unit} (bindings : StaticBindings config s.cm)
    (stepped : (nodeMachine config).step s event = some (next, output)) :
    StaticBindings config next.cm ↔ ¬ Unbinds config s event := by
  obtain ⟨rvs, gateway⟩ := bindings
  have alive : s.running = true := by
    by_contra stopped
    simp [nodeMachine, nodeStep, stopped] at stepped
  simp only [nodeMachine, nodeStep, if_pos alive] at stepped
  cases event with
  | arrive now arrival =>
      cases stepped
      refine iff_of_true ?_ id
      unfold threadNrInput
      dsimp only
      split
      · exact ⟨rvs.newCMEntry _ _ now, gateway.newCMEntry _ _ now⟩
      · exact ⟨rvs, gateway⟩
  | handle now sent =>
      cases queue : s.nr2ph with
      | nil => simp [queue] at stepped
      | cons datagram rest =>
          simp only [queue] at stepped
          cases stepped
          exact iff_of_true ⟨rvs, gateway⟩ id
  | control now =>
      cases queue : s.ph2co with
      | nil => simp [queue] at stepped
      | cons datagram rest =>
          simp only [queue] at stepped
          cases stepped
          change Bound _ _ _ ∧ Bound _ _ _ ↔ _
          simp only [rvs.threadControl_iff, gateway.threadControl_iff, Unbinds,
            NodeInput.nextControl, queue, List.head?_cons, Option.map_some,
            Option.some.injEq]
          constructor
          · intro untouched read
            obtain ⟨nmsg, rfl, relocate, which⟩ := read
            rcases which with same | same
            · exact untouched.1 ⟨relocate, same⟩
            · exact untouched.2 ⟨relocate, same⟩
          · intro untouched
            exact ⟨fun read => untouched ⟨_, rfl, read.1, .inl read.2⟩,
              fun read => untouched ⟨_, rfl, read.1, .inr read.2⟩⟩
  | lookup now nid =>
      cases stepped
      refine iff_of_true ?_ id
      exact ⟨rvs.getCMEntry nid now s.queueTable,
        gateway.getCMEntry nid now s.queueTable⟩

/-- No frames, lookups or other turns change the static bindings. -/
def BindingsUnchangeable (config : Configuration) : Prop :=
  ∀ (start s : NodeInput) (events : List NodeEvent) (outputs : List Unit),
    StaticBindings config start.cm →
    (nodeMachine config).Run start events outputs s →
    StaticBindings config s.cm

/-- The static bindings hold in every state of a run exactly if the control
thread never reads a `RELOCATE` about one of them. -/
theorem staticBindings_iff_no_relocate {config : Configuration}
    {start s : NodeInput} {events : List NodeEvent} {outputs : List Unit}
    (bindings : StaticBindings config start.cm)
    (run : (nodeMachine config).Run start events outputs s) :
    (∀ state, (nodeMachine config).Visited start events state →
        StaticBindings config state.cm) ↔
      ∀ state event, (nodeMachine config).Taken start events state event →
        ¬ Unbinds config state event := by
  exact run.safe_iff_allowed trivial bindings (fun _ _ => trivial)
    (fun _ safe stepped => staticBindings_step_iff safe stepped)

section Example

private def nodeConfig : Configuration :=
  .sample .node (NID.ofNat 1)

private def nodeStart : NodeInput :=
  { running := true
    nrInput := ⟨Buffer.zero maxBufLen, NID32.zero⟩
    nr2ph := []
    phBuf := Buffer.zero maxBufLen
    nm := initNidMapper true
    ph2co := []
    nmsg := Buffer.zero nmsgLen
    cm := nodeConnMapper nodeConfig
    queueTable := initRvsQueueTable }

/-- A frame whose header says `REDIRECT` and whose payload says `RELOCATE`. -/
private def forged (nid : NID) : List UInt8 :=
  frame
    { type := .redirect
      srcNID := NID.ofNat 66
      destNID := nodeConfig.nid
      srcNIDgw := NID.ofNat 66
      destNIDgw := NID.ofNat 2 }
    (nidMsgCodec.encode
      { type := .relocate
        srcNID := NID.ofNat 66
        destNID := nodeConfig.nid
        srcNIDgw := NID.ofNat 66
        destNIDgw := NID.ofNat 2
        nid := nid
        ip := NID32.ofNat 66 })

private def forgedArrival (nid : NID) : List NodeEvent :=
  [.arrive (.ofSec 100) (some (forged nid, NID32.ofNat 66)),
    .handle (.ofSec 100) true]

private theorem nodeStart_bindings : StaticBindings nodeConfig nodeStart.cm :=
  nodeConnMapper_bindings fun same => absurd same (by decide +kernel)

theorem not_bindingsUnchangeable : ¬ BindingsUnchangeable nodeConfig := by
  intro unchangeable
  have lost : ((nodeMachine nodeConfig).exec nodeStart
      (forgedArrival nodeConfig.nidrvs ++ [.control (.ofSec 100)])).any
      (fun result =>
        !(getCMEntry nodeConfig.nidrvs (.ofSec 100) result.1.cm
          result.1.queueTable).found) = true := by decide +kernel
  obtain ⟨outputs, final, run, missing⟩ := Machine.exists_run_of_exec lost
  have kept := unchangeable nodeStart final _ outputs nodeStart_bindings run
  simp [(kept.1 (.ofSec 100) final.queueTable).1] at missing

/-- The control thread reads a `RELOCATE`, but about another node. -/
theorem staticBindings_otherRelocated : ∃ outputs s final nmsg,
    (nodeMachine nodeConfig).Run nodeStart (forgedArrival (NID.ofNat 5))
        outputs s ∧
      s.nextControl = some nmsg ∧ nmsg.type = .relocate ∧
      nmsg.nid = NID.ofNat 5 ∧
      (nodeMachine nodeConfig).Run nodeStart
        (forgedArrival (NID.ofNat 5) ++ [.control (.ofSec 100)])
        (outputs ++ [()]) final ∧
      ∀ state, (nodeMachine nodeConfig).Visited nodeStart
          (forgedArrival (NID.ofNat 5) ++ [.control (.ofSec 100)]) state →
        StaticBindings nodeConfig state.cm := by
  have evaluated : ((nodeMachine nodeConfig).exec nodeStart
      (forgedArrival (NID.ofNat 5))).any (fun result =>
        (result.1.nextControl.any fun nmsg =>
          nmsg.type = .relocate ∧ nmsg.nid = NID.ofNat 5) &&
        ((nodeMachine nodeConfig).step result.1
          (.control (.ofSec 100))).isSome) = true := by decide +kernel
  obtain ⟨outputs, s, run, checked⟩ := Machine.exists_run_of_exec evaluated
  obtain ⟨reads, steps⟩ := Bool.and_eq_true_iff.mp checked
  obtain ⟨nmsg, next, about⟩ := (Option.any_eq_true _ _).mp reads
  obtain ⟨relocate, other⟩ := of_decide_eq_true about
  obtain ⟨⟨final, _⟩, stepped⟩ := Option.isSome_iff_exists.mp steps
  have whole := run.snoc stepped
  refine ⟨outputs, s, final, nmsg, run, next, relocate, other, whole,
    (staticBindings_iff_no_relocate nodeStart_bindings whole).mpr ?_⟩
  intro state event taken
  rcases (Machine.taken_snoc_iff run).mp taken with before | ⟨rfl, rfl⟩
  · have member := before.mem
    rcases List.mem_cons.mp member with rfl | last
    · exact id
    · cases List.mem_singleton.mp last
      exact id
  · rintro ⟨read, same, _, static⟩
    cases next.symm.trans same
    rw [other] at static
    exact absurd static (by decide +kernel)

end Example

end NodeIdentity
