import Mathlib.Data.List.Induction
import Mathlib.Data.List.Perm.Basic
import NodeIdentity.Library.Machine
import NodeIdentity.Control
import NodeIdentity.Gwc
import NodeIdentity.Rvsc

/-!
# Registration along the gateway tree

Gateways which exchange control messages.  A message in flight is a frame on
its way to the node its `destNID` names; it may be overtaken or lost.  When a
gateway takes it in, its control thread, listener and talker handle it, and
what the talker writes is in flight again.  The queues between these threads
only delay a message, like the network does.
-/

namespace NodeIdentity

open NodeIdentity.Library

/-- The gateways of a network and their configurations. -/
structure GatewayNet where
  role : NID → Option GatewayRole
  config : NID → Configuration
  nid_config : ∀ gw, (config gw).nid = gw

structure GatewayTables where
  nmsg : NmsgBuffer
  cm : ConnMapper
  rt : RoutingTable
  registry : HashTable ConnEntry

/-- A gateway handles a control message: its tables, and what it sends. -/
def GatewayTables.handle (role : GatewayRole) (config : Configuration)
    (now : Timeval) (nmsg : NidMsg) (tables : GatewayTables) :
    GatewayTables × List NidMsg :=
  match role with
  | .gateway =>
      let control := threadControlGw now (nidMsgCodec.encode nmsg) tables.nmsg
        tables.cm
      match control.co2gwl with
      | some nmsg =>
          let (rt, gwl2gwt) := threadGwListener now nmsg tables.rt
          (⟨control.buf, control.cm, rt, tables.registry⟩,
            [threadGwTalker config gwl2gwt])
      | none => (⟨control.buf, control.cm, tables.rt, tables.registry⟩, [])
  | .core =>
      let control := threadControlGwCore now (nidMsgCodec.encode nmsg)
        tables.nmsg tables.cm tables.registry
      match control.co2gwl with
      | some nmsg =>
          let listener := threadGwCoreListener config now nmsg tables.rt
            control.registry
          (⟨control.buf, control.cm, listener.rt, listener.registry⟩,
            listener.gwt2ph.toList)
      | none => (⟨control.buf, control.cm, tables.rt, control.registry⟩, [])

structure Network where
  tables : NID → GatewayTables
  inFlight : List NidMsg

inductive NetEvent where
  | deliver (now : Timeval) (index : Nat)
  | lose (now : Timeval) (index : Nat)
  | inject (now : Timeval) (nmsg : NidMsg)
  | lookup (now : Timeval) (gw nid : NID)

def NetEvent.seconds : NetEvent → Nat
  | deliver now _ => now.tvSec
  | lose now _ => now.tvSec
  | inject now _ => now.tvSec
  | lookup now _ _ => now.tvSec

/-- What a gateway did with a message. -/
structure Handled where
  now : Timeval
  nmsg : NidMsg
  emitted : List NidMsg

def netStep (net : GatewayNet) (s : Network) :
    NetEvent → Option (Network × Option Handled)
  | .deliver now index => do
      let nmsg ← s.inFlight[index]?
      let rest := s.inFlight.eraseIdx index
      match net.role nmsg.destNID with
      | some role =>
          let (tables, emitted) := (s.tables nmsg.destNID).handle role
            (net.config nmsg.destNID) now nmsg
          return ({ tables := Function.update s.tables nmsg.destNID tables
                    inFlight := rest ++ emitted },
            some ⟨now, nmsg, emitted⟩)
      | none => return ({ s with inFlight := rest }, none)
  | .lose _ index => some ({ s with inFlight := s.inFlight.eraseIdx index }, none)
  | .inject _ nmsg => some ({ s with inFlight := s.inFlight ++ [nmsg] }, none)
  | .lookup now gw nid =>
      let tables := s.tables gw
      let route := getRTEntry nid now tables.rt
      some ({ s with tables :=
        Function.update s.tables gw { tables with rt := route.rt } }, none)

/-- Runs of the network at a clock which does not go back. -/
def netMachine (net : GatewayNet) :
    Machine (Network × Nat) NetEvent (Option Handled) :=
  Machine.timed ⟨netStep net⟩ NetEvent.seconds

/-- A message which makes a listener write a route to the node. -/
def registers (nid : NID) (nmsg : NidMsg) : Bool :=
  nmsg.type = .registry ∧ nmsg.nid = nid

def NetEvent.Registers (nid : NID) : NetEvent → Prop
  | .inject _ nmsg => registers nid nmsg
  | _ => False

/-- What the listener of a core tells the home core of a registered node. -/
def redirectCoreMsg (config : Configuration) (nmsg : NidMsg) : NidMsg :=
  { type := .redirectCore
    srcNID := config.nid
    destNID := nmsg.srcNIDgw
    srcNIDgw := config.nid
    destNIDgw := nmsg.srcNIDgw
    nid := nmsg.nid
    ip := config.locator }

namespace GatewayTables

theorem handle_rt (role : GatewayRole) (config : Configuration)
    (now : Timeval) (nmsg : NidMsg) (tables : GatewayTables) :
    (tables.handle role config now nmsg).1.rt =
      if nmsg.type = .registry then newRTEntry nmsg.nid nmsg.ip now tables.rt
      else tables.rt := by
  cases role with
  | gateway =>
      simp only [handle, threadControlGw, nmsg_receive_full]
      cases nmsg.type <;> rfl
  | core =>
      simp only [handle, threadControlGwCore, nmsg_receive_full]
      cases nmsg.type with
      | registry =>
          simp only [threadGwCoreListener]
          split <;> rfl
      | _ => rfl

theorem handle_gateway_emitted (config : Configuration) (now : Timeval)
    (nmsg : NidMsg) (tables : GatewayTables) :
    (tables.handle .gateway config now nmsg).2 =
      if nmsg.type = .registry then [threadGwTalker config nmsg] else [] := by
  simp only [handle, threadControlGw, nmsg_receive_full]
  cases nmsg.type <;> rfl

/-- A core answers a registration which names another core, and nothing
else. -/
theorem handle_core_sends (config : Configuration) (now : Timeval)
    (nmsg : NidMsg) (tables : GatewayTables) :
    (tables.handle .core config now nmsg).2 =
      if nmsg.type = .registry ∧ nmsg.srcNIDgw ≠ config.nid then
        [redirectCoreMsg config nmsg]
      else [] := by
  simp only [handle, threadControlGwCore, nmsg_receive_full]
  cases kind : nmsg.type with
  | registry =>
      by_cases home : nmsg.srcNIDgw = config.nid
      · simp [threadGwCoreListener, home]
      · simp [threadGwCoreListener, home, redirectCoreMsg]
  | _ => simp

theorem handle_core_emitted {config : Configuration} {now : Timeval}
    {nmsg emitted : NidMsg} {tables : GatewayTables}
    (member : emitted ∈ (tables.handle .core config now nmsg).2) :
    nmsg.type = .registry ∧ emitted.type = .redirectCore := by
  rw [handle_core_sends] at member
  split at member
  · next registry =>
      cases List.mem_singleton.mp member
      exact ⟨registry.1, rfl⟩
  · cases member

theorem handle_core_registry {config : Configuration} {nmsg : NidMsg}
    (now : Timeval) (tables : GatewayTables) (registry : nmsg.type = .registry) :
    (tables.handle .core config now nmsg).1.registry =
      if nmsg.srcNIDgw = config.nid then
        addRegistry nmsg.nid NID32.zero tables.registry
      else tables.registry := by
  simp only [handle, threadControlGwCore, nmsg_receive_full, registry,
    threadGwCoreListener]
  split <;> rfl

/-- Only a registration changes routes, and only that of its node. -/
theorem handle_leases_of_not_registers {nid : NID} (role : GatewayRole)
    (config : Configuration) (now : Timeval) {nmsg : NidMsg}
    (other : registers nid nmsg = false) (tables : GatewayTables) :
    (tables.handle role config now nmsg).1.rt.leases nid =
      tables.rt.leases nid := by
  rw [handle_rt]
  split
  · next registry =>
      have different : nid ≠ nmsg.nid := by
        intro same
        simp [registers, registry, same] at other
      rw [leases_newRTEntry, LeaseTable.refresh_of_ne _ different]
  · rfl

/-- What a gateway sends registers only the node of the message it handled. -/
theorem handle_emitted_of_not_registers {nid : NID} (role : GatewayRole)
    (config : Configuration) (now : Timeval) {nmsg : NidMsg}
    (other : registers nid nmsg = false) (tables : GatewayTables) :
    (tables.handle role config now nmsg).2.filter (registers nid) = [] := by
  rw [List.filter_eq_nil_iff]
  intro emitted member
  cases role with
  | gateway =>
      rw [handle_gateway_emitted] at member
      split at member
      · next registry =>
          cases List.mem_singleton.mp member
          simpa [registers, registry, threadGwTalker] using other
      · cases member
  | core =>
      have kind := (handle_core_emitted member).2
      simp [registers, kind]

end GatewayTables

/-- Each gateway is configured with the next one, and the last is a core. -/
inductive GatewayChain (net : GatewayNet) : List NID → Prop where
  | core {gw : NID} : net.role gw = some .core → GatewayChain net [gw]
  | link {gw next : NID} {rest : List NID} :
      net.role gw = some .gateway → (net.config gw).nidgw = next →
      GatewayChain net (next :: rest) → GatewayChain net (gw :: next :: rest)

/-- The locator each gateway is to learn for a node behind `ip`. -/
def hopsOf (net : GatewayNet) (ip : NID32) : List NID → List (NID × NID32)
  | [] => []
  | gw :: rest => (gw, ip) :: hopsOf net (net.config gw).locator rest

/-- The locator which the next gateway above `gws` is to learn. -/
def locatorAbove (net : GatewayNet) (ip : NID32) : List NID → NID32
  | [] => ip
  | gw :: rest => locatorAbove net (net.config gw).locator rest

theorem GatewayChain.at {net : GatewayNet} {done rest : List NID} {gw : NID}
    (chain : GatewayChain net (done ++ gw :: rest)) :
    (net.role gw = some .core ∧ rest = []) ∨
      net.role gw = some .gateway ∧
        ∃ above, rest = (net.config gw).nidgw :: above := by
  induction done with
  | nil =>
      cases chain with
      | core role => exact .inl ⟨role, rfl⟩
      | link role next _ => exact .inr ⟨role, _, by rw [next]⟩
  | cons first done ih =>
      generalize whole : done ++ gw :: rest = above at chain
      rw [List.cons_append, whole] at chain
      cases chain with
      | core => simp at whole
      | link _ _ chain =>
          rw [← whole] at chain
          exact ih chain

theorem hopsOf_append (net : GatewayNet) (ip : NID32) (done rest : List NID) :
    hopsOf net ip (done ++ rest) =
      hopsOf net ip done ++ hopsOf net (locatorAbove net ip done) rest := by
  induction done generalizing ip with
  | nil => rfl
  | cons gw done ih =>
      simp only [List.cons_append, hopsOf, locatorAbove, ih]

theorem locatorAbove_append (net : GatewayNet) (ip : NID32)
    (done rest : List NID) :
    locatorAbove net ip (done ++ rest) =
      locatorAbove net (locatorAbove net ip done) rest := by
  induction done generalizing ip with
  | nil => rfl
  | cons gw done ih => exact ih _

theorem map_fst_hopsOf (net : GatewayNet) (ip : NID32) (gws : List NID) :
    (hopsOf net ip gws).map Prod.fst = gws := by
  induction gws generalizing ip with
  | nil => rfl
  | cons gw rest ih => rw [hopsOf, List.map_cons, ih]

theorem hopsOf_ne_zero {net : GatewayNet} {ip : NID32} {gws : List NID}
    (nonzero : ip ≠ NID32.zero)
    (locators : ∀ gw ∈ gws, (net.config gw).locator ≠ NID32.zero)
    {hop : NID × NID32} (member : hop ∈ hopsOf net ip gws) :
    hop.2 ≠ NID32.zero := by
  induction gws generalizing ip with
  | nil => cases member
  | cons gw rest ih =>
      rcases List.mem_cons.mp member with rfl | later
      · exact nonzero
      · apply ih (locators gw List.mem_cons_self) _ later
        intro above inRest
        exact locators above (List.mem_cons_of_mem _ inRest)

/-- The listener of `gw` wrote `ip` for the node at `time`. -/
structure RTWrite where
  gw : NID
  ip : NID32
  time : Nat

def RTWrite.hop (write : RTWrite) : NID × NID32 := (write.gw, write.ip)

/-- The writes about a node, in the order in which they happened. -/
def writesFor (nid : NID) (outputs : List (Option Handled)) : List RTWrite :=
  outputs.filterMap fun output => output.bind fun handled =>
    if registers nid handled.nmsg then
      some ⟨handled.nmsg.destNID, handled.nmsg.ip, handled.now.tvSec⟩
    else none

/-- The registration of the acknowledged update, on its way to `gw`. -/
def carried (ack : NidMsg) (gw : NID) (ip : NID32) : NidMsg :=
  { ack with type := .registry, destNID := gw, ip := ip }

/-- The only registration of the node is on its way to the next gateway, or
lost; what was written is still served; nothing static is in its way. -/
structure Progress (ack : NidMsg) (todo : List NID) (ip : NID32)
    (writes : List RTWrite) (s : Network) (clock : Nat) : Prop where
  flight : s.inFlight.filter (registers ack.nid) = [] ∨
    ∃ gw rest, todo = gw :: rest ∧
      s.inFlight.filter (registers ack.nid) = [carried ack gw ip]
  served : ∀ write ∈ writes, ∀ now, clock ≤ now →
    now < write.time + gatewayTimeout →
    (s.tables write.gw).rt.leases.Serves gatewayTimeout now ack.nid write.ip
  renewable : ∀ gw ∈ todo, ∀ lease,
    (s.tables gw).rt.leases ack.nid = some lease → ¬ lease.Permanent

private theorem eraseIdx_perm {messages : List NidMsg} {index : Nat}
    {nmsg : NidMsg} (found : messages[index]? = some nmsg) :
    (nmsg :: messages.eraseIdx index).Perm messages := by
  obtain ⟨below, rfl⟩ := List.getElem?_eq_some_iff.mp found
  exact List.getElem_cons_eraseIdx_perm below

namespace Progress

variable {ack : NidMsg} {todo : List NID} {ip : NID32}
  {writes : List RTWrite} {s next : Network} {clock later : Nat}

theorem taken (progress : Progress ack todo ip writes s clock) {index : Nat}
    {nmsg : NidMsg} (found : s.inFlight[index]? = some nmsg)
    (tracked : registers ack.nid nmsg = true) :
    ∃ gw rest, todo = gw :: rest ∧ nmsg = carried ack gw ip ∧
      (s.inFlight.eraseIdx index).filter (registers ack.nid) = [] := by
  have split := (eraseIdx_perm found).filter (registers ack.nid)
  rw [List.filter_cons_of_pos tracked] at split
  rcases progress.flight with none | ⟨gw, rest, here, one⟩
  · rw [none] at split
    cases List.perm_nil.mp split
  · rw [one, List.perm_singleton, List.cons.injEq] at split
    exact ⟨gw, rest, here, split.1, split.2⟩

theorem passed_over (progress : Progress ack todo ip writes s clock)
    {index : Nat} {nmsg : NidMsg} (found : s.inFlight[index]? = some nmsg)
    (other : registers ack.nid nmsg = false) :
    (s.inFlight.eraseIdx index).filter (registers ack.nid) =
      s.inFlight.filter (registers ack.nid) := by
  have split := (eraseIdx_perm found).filter (registers ack.nid)
  rw [List.filter_cons_of_neg (by simp [other])] at split
  rcases progress.flight with none | ⟨gw, rest, here, one⟩
  · rw [none] at split ⊢
    exact List.perm_nil.mp split
  · rw [one] at split ⊢
    exact List.perm_singleton.mp split

theorem dropped (progress : Progress ack todo ip writes s clock)
    (index : Nat) :
    (s.inFlight.eraseIdx index).filter (registers ack.nid) = [] ∨
      (s.inFlight.eraseIdx index).filter (registers ack.nid) =
        s.inFlight.filter (registers ack.nid) := by
  cases found : s.inFlight[index]? with
  | none =>
      have outside := List.getElem?_eq_none_iff.mp found
      right
      rw [List.eraseIdx_of_length_le outside]
  | some nmsg =>
      cases kind : registers ack.nid nmsg with
      | true =>
          obtain ⟨_, _, _, _, emptied⟩ := progress.taken found kind
          exact .inl emptied
      | false => exact .inr (progress.passed_over found kind)

/-- Routes of the node may only disappear, and only when they are over. -/
theorem keep (progress : Progress ack todo ip writes s clock)
    (order : clock ≤ later)
    (flight : next.inFlight.filter (registers ack.nid) = [] ∨
      next.inFlight.filter (registers ack.nid) =
        s.inFlight.filter (registers ack.nid))
    (routes : ∀ gw, (next.tables gw).rt.leases ack.nid =
        (s.tables gw).rt.leases ack.nid ∨
      (next.tables gw).rt.leases ack.nid = none ∧
        ∀ lease, (s.tables gw).rt.leases ack.nid = some lease →
          ¬ lease.Live gatewayTimeout later) :
    Progress ack todo ip writes next later := by
  refine ⟨?_, ?_, ?_⟩
  · rcases flight with none | same
    · exact .inl none
    · rw [same]
      exact progress.flight
  · intro write member now reached current
    have before := progress.served write member now (order.trans reached) current
    rcases routes write.gw with same | ⟨_, lapsed⟩
    · obtain ⟨lease, held, serving⟩ := before
      exact ⟨lease, same.trans held, serving⟩
    · obtain ⟨lease, held, live, _⟩ := before
      exact (lapsed lease held (live.earlier reached)).elim
  · intro gw member lease held
    rcases routes gw with same | ⟨gone, _⟩
    · exact progress.renewable gw member lease (same.symm.trans held)
    · cases gone.symm.trans held

/-- The next gateway writes its route, and the registration goes on from
there or ends. -/
theorem advance {gw : NID} {rest : List NID} {now : Nat}
    (progress : Progress ack (gw :: rest) ip writes s clock)
    (order : clock ≤ now)
    (others : ∀ write ∈ writes, write.gw ≠ gw) (distinct : gw ∉ rest)
    {locator : NID32}
    (flight : next.inFlight.filter (registers ack.nid) = [] ∨
      ∃ above more, rest = above :: more ∧
        next.inFlight.filter (registers ack.nid) = [carried ack above locator])
    (written : (next.tables gw).rt.leases =
      (s.tables gw).rt.leases.refresh ack.nid ip now)
    (same : ∀ other, other ≠ gw → next.tables other = s.tables other) :
    Progress ack rest locator (writes ++ [⟨gw, ip, now⟩]) next now := by
  refine ⟨flight, ?_, ?_⟩
  · intro write member later reached current
    rcases List.mem_append.mp member with before | last
    · rw [same write.gw (others write before)]
      exact progress.served write before later (order.trans reached) current
    · cases List.mem_singleton.mp last
      have lease := LeaseTable.refresh_self (s.tables gw).rt.leases
        (progress.renewable gw List.mem_cons_self) ip now
      exact ⟨_, (congrFun written ack.nid).trans lease, .inr current, rfl⟩
  · intro other member lease held
    have different : other ≠ gw := by
      intro equal
      exact distinct (equal ▸ member)
    rw [same other different] at held
    exact progress.renewable other (List.mem_cons_of_mem _ member) lease held

end Progress

theorem netStep_deliver {net : GatewayNet} {s next : Network} {now : Timeval}
    {index : Nat} {output : Option Handled}
    (stepped : netStep net s (.deliver now index) = some (next, output)) :
    ∃ nmsg, s.inFlight[index]? = some nmsg ∧
      ((net.role nmsg.destNID = none ∧ output = none ∧
          next = { s with inFlight := s.inFlight.eraseIdx index }) ∨
        ∃ role tables emitted, net.role nmsg.destNID = some role ∧
          (s.tables nmsg.destNID).handle role (net.config nmsg.destNID) now
            nmsg = (tables, emitted) ∧
          output = some ⟨now, nmsg, emitted⟩ ∧
          next =
            { tables := Function.update s.tables nmsg.destNID tables
              inFlight := s.inFlight.eraseIdx index ++ emitted }) := by
  cases found : s.inFlight[index]? with
  | none => simp [netStep, found] at stepped
  | some nmsg =>
      refine ⟨nmsg, rfl, ?_⟩
      cases known : net.role nmsg.destNID with
      | none =>
          simp only [netStep, found, known, Option.bind_eq_bind,
            Option.bind_some, Option.pure_def, Option.some.injEq,
            Prod.mk.injEq] at stepped
          exact .inl ⟨rfl, stepped.2.symm, stepped.1.symm⟩
      | some role =>
          simp only [netStep, found, known, Option.bind_eq_bind,
            Option.bind_some, Option.pure_def, Option.some.injEq,
            Prod.mk.injEq] at stepped
          exact .inr ⟨role, _, _, rfl, rfl, stepped.2.symm, stepped.1.symm⟩

/-- The gateways which have written are the lower part of the chain, each with
the locator it is to learn. -/
structure Registered (net : GatewayNet) (ack : NidMsg) (gws : List NID)
    (outputs : List (Option Handled)) (s : Network) (clock : Nat) : Prop where
  split : ∃ done todo, gws = done ++ todo ∧
    (writesFor ack.nid outputs).map RTWrite.hop = hopsOf net ack.ip done ∧
    Progress ack todo (locatorAbove net ack.ip done)
      (writesFor ack.nid outputs) s clock

theorem writesFor_snoc (nid : NID) (outputs : List (Option Handled))
    (output : Option Handled) :
    writesFor nid (outputs ++ [output]) =
      writesFor nid outputs ++ writesFor nid [output] :=
  List.filterMap_append

private theorem Registered.unwritten {net : GatewayNet} {ack : NidMsg}
    {gws : List NID} {outputs : List (Option Handled)} {s next : Network}
    {clock later : Nat} (registered : Registered net ack gws outputs s clock)
    {output : Option Handled} (silent : writesFor ack.nid [output] = [])
    (kept : ∀ {todo ip writes}, Progress ack todo ip writes s clock →
      Progress ack todo ip writes next later) :
    Registered net ack gws (outputs ++ [output]) next later := by
  obtain ⟨done, todo, whole, hops, progress⟩ := registered.split
  refine ⟨done, todo, whole, ?_⟩
  rw [writesFor_snoc, silent, List.append_nil]
  exact ⟨hops, kept progress⟩

private theorem Registered.deliver_other {net : GatewayNet} {ack nmsg : NidMsg}
    {gws : List NID} {outputs : List (Option Handled)} {s : Network}
    {clock index : Nat} (registered : Registered net ack gws outputs s clock)
    {now : Timeval} (order : clock ≤ now.tvSec)
    (found : s.inFlight[index]? = some nmsg)
    (other : registers ack.nid nmsg = false) {role : GatewayRole}
    {tables : GatewayTables} {emitted : List NidMsg}
    (handled : (s.tables nmsg.destNID).handle role (net.config nmsg.destNID)
      now nmsg = (tables, emitted)) :
    Registered net ack gws (outputs ++ [some ⟨now, nmsg, emitted⟩])
      { tables := Function.update s.tables nmsg.destNID tables
        inFlight := s.inFlight.eraseIdx index ++ emitted } now.tvSec := by
  have routes := GatewayTables.handle_leases_of_not_registers role
    (net.config nmsg.destNID) now other (s.tables nmsg.destNID)
  have silent := GatewayTables.handle_emitted_of_not_registers role
    (net.config nmsg.destNID) now other (s.tables nmsg.destNID)
  rw [handled] at routes silent
  refine registered.unwritten (by simp [writesFor, other]) ?_
  intro todo ip writes progress
  refine progress.keep order (.inr ?_) ?_
  · rw [List.filter_append, silent, List.append_nil]
    exact progress.passed_over found other
  · intro gw
    left
    by_cases same : gw = nmsg.destNID
    · subst same
      simp only [Function.update_self]
      exact routes
    · simp only [Function.update_of_ne same]

private theorem Registered.deliver_tracked {net : GatewayNet}
    {ack nmsg : NidMsg} {gws : List NID} {outputs : List (Option Handled)}
    {s : Network} {clock index : Nat}
    (registered : Registered net ack gws outputs s clock)
    (chain : GatewayChain net gws) (distinct : gws.Nodup)
    {now : Timeval} (order : clock ≤ now.tvSec)
    (found : s.inFlight[index]? = some nmsg)
    (tracked : registers ack.nid nmsg = true) {role : GatewayRole}
    {tables : GatewayTables} {emitted : List NidMsg}
    (known : net.role nmsg.destNID = some role)
    (handled : (s.tables nmsg.destNID).handle role (net.config nmsg.destNID)
      now nmsg = (tables, emitted)) :
    Registered net ack gws (outputs ++ [some ⟨now, nmsg, emitted⟩])
      { tables := Function.update s.tables nmsg.destNID tables
        inFlight := s.inFlight.eraseIdx index ++ emitted } now.tvSec := by
  obtain ⟨done, todo, whole, hops, progress⟩ := registered.split
  obtain ⟨gw, rest, rfl, rfl, emptied⟩ := progress.taken found tracked
  subst whole
  have written : writesFor ack.nid
      [some ⟨now, carried ack gw (locatorAbove net ack.ip done), emitted⟩] =
        [⟨gw, locatorAbove net ack.ip done, now.tvSec⟩] := by
    simp [writesFor, registers, carried]
  have others : ∀ write ∈ writesFor ack.nid outputs, write.gw ≠ gw := by
    intro write member same
    have inDone : write.gw ∈ done := by
      rw [← map_fst_hopsOf net ack.ip done, ← hops, List.map_map]
      exact List.mem_map_of_mem member
    rw [List.nodup_append] at distinct
    exact distinct.2.2 _ inDone gw List.mem_cons_self same
  have notAbove : gw ∉ rest :=
    (List.nodup_cons.mp (List.nodup_append.mp distinct).2.1).1
  refine ⟨done ++ [gw], rest, by simp, ?_, ?_⟩
  · rw [writesFor_snoc, List.map_append, hops, written, hopsOf_append]
    rfl
  · rw [writesFor_snoc, written, locatorAbove_append]
    refine progress.advance order others notAbove ?_ ?_ ?_
    · rw [List.filter_append, emptied, List.nil_append]
      rcases chain.at with ⟨isCore, rfl⟩ | ⟨isGateway, above, rfl⟩
      · left
        cases known.symm.trans isCore
        rw [List.filter_eq_nil_iff]
        intro sent member
        have among : sent ∈ ((s.tables gw).handle .core (net.config gw) now
            (carried ack gw (locatorAbove net ack.ip done))).2 :=
          (congrArg (sent ∈ ·.2) handled).mpr member
        simp [registers, (GatewayTables.handle_core_emitted among).2]
      · right
        cases known.symm.trans isGateway
        refine ⟨_, above, rfl, ?_⟩
        have up := GatewayTables.handle_gateway_emitted (net.config gw) now
          (carried ack gw (locatorAbove net ack.ip done)) (s.tables gw)
        have sent : emitted = [threadGwTalker (net.config gw)
            (carried ack gw (locatorAbove net ack.ip done))] :=
          (congrArg Prod.snd handled).symm.trans up
        rw [sent]
        simp [carried, registers, threadGwTalker, locatorAbove]
    · have route := GatewayTables.handle_rt role (net.config gw) now
        (carried ack gw (locatorAbove net ack.ip done)) (s.tables gw)
      have after := (congrArg (·.1.rt) handled).symm.trans route
      change (Function.update s.tables gw tables gw).rt.leases = _
      rw [Function.update_self, after]
      exact leases_newRTEntry ack.nid _ now (s.tables gw).rt
    · intro other different
      exact Function.update_of_ne different _ _

theorem Registered.step {net : GatewayNet} {ack : NidMsg} {gws : List NID}
    {outputs : List (Option Handled)} {s next : Network} {clock : Nat}
    {event : NetEvent} {output : Option Handled}
    (registered : Registered net ack gws outputs s clock)
    (chain : GatewayChain net gws) (distinct : gws.Nodup)
    (order : clock ≤ event.seconds)
    (foreign : ¬ event.Registers ack.nid)
    (stepped : netStep net s event = some (next, output)) :
    Registered net ack gws (outputs ++ [output]) next event.seconds := by
  cases event with
  | deliver now index =>
      obtain ⟨nmsg, found, away | here⟩ := netStep_deliver stepped
      · obtain ⟨unknown, rfl, rfl⟩ := away
        refine registered.unwritten rfl ?_
        intro todo ip writes progress
        exact progress.keep order (progress.dropped index) (fun _ => .inl rfl)
      · obtain ⟨role, tables, emitted, known, handled, rfl, rfl⟩ := here
        cases kind : registers ack.nid nmsg with
        | true =>
            exact registered.deliver_tracked chain distinct order found kind
              known handled
        | false => exact registered.deliver_other order found kind handled
  | lose now index =>
      obtain ⟨rfl, rfl⟩ := Prod.ext_iff.mp (Option.some.inj stepped)
      refine registered.unwritten rfl ?_
      intro todo ip writes progress
      exact progress.keep order (progress.dropped index) (fun _ => .inl rfl)
  | inject now nmsg =>
      obtain ⟨rfl, rfl⟩ := Prod.ext_iff.mp (Option.some.inj stepped)
      refine registered.unwritten rfl ?_
      intro todo ip writes progress
      refine progress.keep order (.inr ?_) (fun _ => .inl rfl)
      rw [List.filter_append, List.filter_cons_of_neg foreign, List.filter_nil,
        List.append_nil]
  | lookup now gw nid =>
      obtain ⟨rfl, rfl⟩ := Prod.ext_iff.mp (Option.some.inj stepped)
      refine registered.unwritten rfl ?_
      intro todo ip writes progress
      refine progress.keep order (.inr rfl) ?_
      intro other
      by_cases same : other = gw
      · subst same
        simp only [Function.update_self]
        exact getRTEntry_lease nid ack.nid now (s.tables other).rt
      · left
        simp only [Function.update_of_ne same]

theorem registered_of_run {net : GatewayNet} {ack : NidMsg} {gws : List NID}
    {events : List NetEvent} {outputs : List (Option Handled)}
    {start s : Network} {began clock : Nat}
    (chain : GatewayChain net gws) (distinct : gws.Nodup)
    (initial : Registered net ack gws [] start began)
    (foreign : ∀ event ∈ events, ¬ event.Registers ack.nid)
    (run : (netMachine net).Run (start, began) events outputs (s, clock)) :
    Registered net ack gws outputs s clock := by
  generalize reached : (s, clock) = final at run
  induction run generalizing s clock with
  | nil =>
      cases reached
      exact initial
  | @snoc events outputs state next event output _ last ih =>
      subst reached
      obtain ⟨before, time⟩ := state
      obtain ⟨order, stepped, rfl⟩ := Machine.timed_step_iff.mp last
      have earlier := ih (fun event member =>
        foreign event (List.mem_append_left _ member)) rfl
      exact earlier.step chain distinct order
        (foreign event (List.mem_append_right _ List.mem_cons_self)) stepped

/-- A gateway below the core sends exactly one registration up for each one it
receives, about the same node and with the same home core. -/
def PassesUp (net : GatewayNet) (handled : Handled) : Prop :=
  handled.nmsg.type = .registry →
    net.role handled.nmsg.destNID = some .gateway →
    ∃ up, handled.emitted = [up] ∧ up.type = .registry ∧
      up.destNID = (net.config handled.nmsg.destNID).nidgw ∧
      up.nid = handled.nmsg.nid ∧ up.srcNIDgw = handled.nmsg.srcNIDgw

theorem passesUp_of_step {net : GatewayNet} {s next : Network}
    {event : NetEvent} {handled : Handled}
    (stepped : netStep net s event = some (next, some handled)) :
    PassesUp net handled := by
  cases event with
  | deliver now index =>
      obtain ⟨nmsg, _, away | here⟩ := netStep_deliver stepped
      · cases away.2.1
      · obtain ⟨role, tables, emitted, known, turn, output, _⟩ := here
        cases output
        intro registry isGateway
        cases known.symm.trans isGateway
        refine ⟨threadGwTalker (net.config nmsg.destNID) nmsg, ?_, rfl, rfl,
          rfl, rfl⟩
        have up := GatewayTables.handle_gateway_emitted
          (net.config nmsg.destNID) now nmsg (s.tables nmsg.destNID)
        rw [turn, if_pos registry] at up
        exact up
  | lose => cases stepped
  | inject => cases stepped
  | lookup => cases stepped

theorem passesUp_of_run {net : GatewayNet} {events : List NetEvent}
    {outputs : List (Option Handled)} {start final : Network × Nat}
    (run : (netMachine net).Run start events outputs final) :
    ∀ output ∈ outputs, ∀ handled, output = some handled →
      PassesUp net handled := by
  refine run.outputs (fun output => ∀ handled, output = some handled →
    PassesUp net handled) ?_
  intro state next event output stepped handled same
  subst same
  exact passesUp_of_step (Machine.timed_step_iff.mp stepped).2.1

/-- The hops from a gateway to the node at `ip`, each to the locator which
`getRTEntry` gives; `owner` tells which gateway has a locator. -/
def hopsTo (owner : NID32 → Option NID) (nid : NID) (ip : NID32)
    (now : Timeval) (s : Network) : Nat → NID → Option Nat
  | 0, _ => none
  | fuel + 1, gw =>
      let dst := (getRTEntry nid now (s.tables gw).rt).dst
      if dst = ip then some 1
      else
        match owner dst with
        | some next => (hopsTo owner nid ip now s fuel next).map (· + 1)
        | none => none

private theorem locatorAbove_snoc (net : GatewayNet) (ip : NID32)
    (gws : List NID) (gw : NID) :
    locatorAbove net ip (gws ++ [gw]) = (net.config gw).locator := by
  rw [locatorAbove_append]
  rfl

theorem hopsTo_of_routes {net : GatewayNet} {owner : NID32 → Option NID}
    {nid : NID} {ip : NID32} {now : Timeval} {s : Network} {gws : List NID}
    (owned : ∀ gw ∈ gws, owner (net.config gw).locator = some gw)
    (node : owner ip = none)
    (routes : ∀ hop ∈ hopsOf net ip gws,
      (getRTEntry nid now (s.tables hop.1).rt).dst = hop.2)
    {gw : NID} (last : gws.getLast? = some gw) {fuel : Nat}
    (enough : gws.length ≤ fuel) :
    hopsTo owner nid ip now s fuel gw = some gws.length := by
  induction gws using List.reverseRecOn generalizing gw fuel with
  | nil => cases last
  | append_singleton below top ih =>
      rw [List.getLast?_concat] at last
      cases last
      have dst : (getRTEntry nid now (s.tables top).rt).dst =
          locatorAbove net ip below := by
        apply routes (top, locatorAbove net ip below)
        rw [hopsOf_append]
        exact List.mem_append_right _ List.mem_cons_self
      rw [List.length_append, List.length_singleton] at enough ⊢
      obtain ⟨fuel, rfl⟩ : ∃ rest, fuel = rest + 1 := ⟨fuel - 1, by omega⟩
      rw [hopsTo, dst]
      rcases List.eq_nil_or_concat below with rfl | ⟨lower, next, rfl⟩
      · exact if_pos rfl
      · rw [List.concat_eq_append] at owned routes enough ih ⊢
        have nextOwned := owned next (by simp)
        rw [locatorAbove_snoc, if_neg, nextOwned]
        · have rest := ih (fun gw member => owned gw
              (List.mem_append_left _ member))
            (fun hop member => routes hop (by
              rw [hopsOf_append]
              exact List.mem_append_left _ member))
            List.getLast?_concat (by omega : (lower ++ [next]).length ≤ fuel)
          simp only [rest, Option.map_some]
        · intro same
          rw [same, node] at nextOwned
          cases nextOwned

/-- Once the core has handled the registration which the rendezvous server
sent for a node, every gateway of the chain has learnt its hop, and the routes
lead from the core to the node. -/
theorem registration_builds_route {net : GatewayNet} {rvs : Configuration}
    {ack : NidMsg} {gws : List NID} {core : NID} {start s : Network}
    {began clock : Nat} {events : List NetEvent}
    {outputs : List (Option Handled)}
    (chain : GatewayChain net gws) (distinct : gws.Nodup)
    (locators : ∀ gw ∈ gws, (net.config gw).locator ≠ NID32.zero)
    (nonzero : ack.ip ≠ NID32.zero)
    (first : gws.head? = some rvs.nidgw) (last : gws.getLast? = some core)
    (renewable : ∀ gw ∈ gws, ∀ lease,
      (start.tables gw).rt.leases ack.nid = some lease → ¬ lease.Permanent)
    (sent : start.inFlight.filter (registers ack.nid) = [threadRvs2gw rvs ack])
    (foreign : ∀ event ∈ events, ¬ event.Registers ack.nid)
    (run : (netMachine net).Run (start, began) events outputs (s, clock))
    (arrived : core ∈ (writesFor ack.nid outputs).map RTWrite.gw) :
    (writesFor ack.nid outputs).map RTWrite.hop = hopsOf net ack.ip gws ∧
      (∀ now : Timeval, clock ≤ now.tvSec →
        (∀ write ∈ writesFor ack.nid outputs,
          now.tvSec < write.time + gatewayTimeout) →
        (∀ hop ∈ hopsOf net ack.ip gws,
          (getRTEntry ack.nid now (s.tables hop.1).rt).found = true ∧
            (getRTEntry ack.nid now (s.tables hop.1).rt).dst = hop.2) ∧
        ∀ owner : NID32 → Option NID,
          (∀ gw ∈ gws, owner (net.config gw).locator = some gw) →
          owner ack.ip = none →
          ∀ fuel, gws.length ≤ fuel →
            hopsTo owner ack.nid ack.ip now s fuel core = some gws.length) ∧
      ∀ output ∈ outputs, ∀ handled, output = some handled →
        PassesUp net handled := by
  have initial : Registered net ack gws [] start began := by
    obtain ⟨rest, rfl⟩ := List.head?_eq_some_iff.mp first
    refine ⟨[], _, rfl, rfl, .inr ⟨rvs.nidgw, rest, rfl, sent⟩, ?_, renewable⟩
    intro write member
    cases member
  obtain ⟨done, todo, whole, hops, progress⟩ :=
    (registered_of_run chain distinct initial foreign run).split
  have complete : todo = [] := by
    have inDone : core ∈ done := by
      rw [← map_fst_hopsOf net ack.ip done, ← hops, List.map_map]
      exact arrived
    rcases List.eq_nil_or_concat todo with empty | ⟨front, top, rfl⟩
    · exact empty
    · rw [whole, List.concat_eq_append, ← List.append_assoc,
        List.getLast?_concat, Option.some.injEq] at last
      rw [whole, List.nodup_append] at distinct
      exact (distinct.2.2 core inDone core (by simp [last]) rfl).elim
  subst complete
  rw [List.append_nil] at whole
  subst whole
  refine ⟨hops, ?_, passesUp_of_run run⟩
  intro now reached fresh
  have routes : ∀ hop ∈ hopsOf net ack.ip gws,
      getRTEntry ack.nid now (s.tables hop.1).rt =
        ⟨true, hop.2, (s.tables hop.1).rt⟩ := by
    intro hop member
    have known := hopsOf_ne_zero nonzero locators member
    rw [← hops] at member
    obtain ⟨write, written, rfl⟩ := List.mem_map.mp member
    exact getRTEntry_serves known (progress.served write written now.tvSec
      reached (fresh write written))
  refine ⟨?_, ?_⟩
  · intro hop member
    rw [routes hop member]
    exact ⟨rfl, rfl⟩
  · intro owner owned node fuel enough
    refine hopsTo_of_routes owned node ?_ last enough
    intro hop member
    rw [routes hop member]

section Example

private def gatewayOne : NID := NID.ofNat 11

private def coreTwo : NID := NID.ofNat 12

private def twoGateways : GatewayNet :=
  { role := fun gw =>
      if gw = gatewayOne then some .gateway
      else if gw = coreTwo then some .core
      else none
    config := fun gw =>
      { type := if gw = coreTwo then .core else .gateway
        nid := gw
        nidgw := coreTwo
        nidrvs := NID.ofNat 3
        nidcore := coreTwo
        nidcorehome := coreTwo
        niddns := NID.ofNat 4
        gatewayIP := NID32.ofNat 120
        rvsIP := NID32.ofNat 30
        locator := if gw = coreTwo then NID32.ofNat 120 else NID32.ofNat 110 }
    nid_config := fun _ => rfl }

private def rvsConfig : Configuration :=
  { twoGateways.config (NID.ofNat 3) with type := .rvs, nidgw := gatewayOne }

private def ackFive : NidMsg :=
  { type := .rvsAck
    srcNID := NID.ofNat 3
    destNID := NID.ofNat 5
    srcNIDgw := coreTwo
    destNIDgw := NID.zero
    nid := NID.ofNat 5
    ip := NID32.ofNat 50 }

private def emptyNetwork : Network :=
  { tables := fun gw =>
      { nmsg := Buffer.zero nmsgLen
        cm := initConnMapper (twoGateways.config gw)
        rt := initRtable (twoGateways.config gw)
        registry := initRegistryTable }
    inFlight := [threadRvs2gw rvsConfig ackFive] }

private def delivered (now : Timeval) (nmsg : NidMsg) (role : GatewayRole)
    (s : Network) : Network × Option Handled :=
  let turn := (s.tables nmsg.destNID).handle role
    (twoGateways.config nmsg.destNID) now nmsg
  ({ tables := Function.update s.tables nmsg.destNID turn.1
     inFlight := s.inFlight.eraseIdx 0 ++ turn.2 },
    some ⟨now, nmsg, turn.2⟩)

private theorem netStep_delivered {now : Timeval} {nmsg : NidMsg}
    {role : GatewayRole} {s : Network} (found : s.inFlight[0]? = some nmsg)
    (known : twoGateways.role nmsg.destNID = some role) :
    netStep twoGateways s (.deliver now 0) =
      some (delivered now nmsg role s) := by
  simp only [netStep, found, known, Option.bind_eq_bind, Option.bind_some]
  rfl

private def atGateway : Network × Option Handled :=
  delivered (.ofSec 100) (carried ackFive gatewayOne (NID32.ofNat 50)) .gateway
    emptyNetwork

private def atCore : Network × Option Handled :=
  delivered (.ofSec 101) (carried ackFive coreTwo (NID32.ofNat 110)) .core
    atGateway.1

private theorem two_deliveries :
    (netMachine twoGateways).Run (emptyNetwork, 100)
      [.deliver (.ofSec 100) 0, .deliver (.ofSec 101) 0]
      [atGateway.2, atCore.2] (atCore.1, 101) := by
  have first : (netMachine twoGateways).Run (emptyNetwork, 100)
      [.deliver (.ofSec 100) 0] [atGateway.2] (atGateway.1, 100) :=
    Machine.Run.nil.snoc (Machine.timed_step_iff.mpr
      ⟨le_rfl, netStep_delivered rfl (by decide +kernel), rfl⟩)
  exact first.snoc (Machine.timed_step_iff.mpr
    ⟨by decide, netStep_delivered (by decide +kernel) (by decide +kernel), rfl⟩)

private theorem both_gateways {property : NID → Prop}
    (gateway : property gatewayOne) (core : property coreTwo) :
    ∀ gw ∈ [gatewayOne, coreTwo], property gw := by
  intro gw member
  rcases List.mem_cons.mp member with rfl | last
  · exact gateway
  · cases List.mem_singleton.mp last
    exact core

/-- A node behind one gateway below a core is two hops from the core. -/
theorem registration_builds_route_two :
    hopsTo (fun ip => if ip = NID32.ofNat 110 then some gatewayOne
        else if ip = NID32.ofNat 120 then some coreTwo else none)
      (NID.ofNat 5) (NID32.ofNat 50) (.ofSec 105) atCore.1 2 coreTwo =
        some 2 := by
  have chain : GatewayChain twoGateways [gatewayOne, coreTwo] :=
    .link (by decide +kernel) rfl (.core (by decide +kernel))
  have first : [gatewayOne, coreTwo].head? = some rvsConfig.nidgw := rfl
  have route := registration_builds_route chain (by decide +kernel)
    (both_gateways (by decide +kernel) (by decide +kernel))
    (by decide +kernel : ackFive.ip ≠ NID32.zero)
    first rfl ?_ rfl ?_ two_deliveries (by decide +kernel)
  · refine (route.2.1 (.ofSec 105) (by decide) (by decide +kernel)).2 _
      (both_gateways (by decide +kernel) (by decide +kernel))
      (by decide +kernel) 2 le_rfl
  · intro gw _ lease held
    have empty : (emptyNetwork.tables gw).rt.leases ackFive.nid = none :=
      congrFun (leases_empty 30 (by decide)) _
    cases empty.symm.trans held
  · intro event member
    rcases List.mem_cons.mp member with rfl | last
    · exact id
    · cases List.mem_singleton.mp last
      exact id

end Example

end NodeIdentity
