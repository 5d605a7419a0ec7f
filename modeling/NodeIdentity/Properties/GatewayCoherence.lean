import NodeIdentity.Dhcp
import NodeIdentity.Nidd
import NodeIdentity.Properties.StaticEntries

/-!
# Copies of the configuration on a gateway

The connection mapper and the routing layer keep copies of the gateway and the
rendezvous server.  A handover refreshes those of the connection mapper.  The
function which would refresh those of the routing layer, `updateRT`, is called
nowhere, so they stay as they were when the daemon started.
-/

namespace NodeIdentity

open NodeIdentity.Library

/-- What DHCP responses and handovers change, and the tables which the other
threads use in between. -/
structure Gateway where
  dhcp : DhcpState
  maps : CMSystem
  rt : RoutingTable
  count : Nat

/-- `response` is a connection of `thread_dhcp` and `newaddr` a turn of
`thread_mobility`; the rest are calls of other threads. -/
inductive GatewayEvent where
  | response (message : List UInt8)
  | newaddr (now later : Timeval) (newaddr : Bool)
  | connection (call : CMCall)
  | routing (call : RTCall)

/-- No reading of the clock is its zero, which marks static entries. -/
def GatewayEvent.Dated : GatewayEvent → Prop
  | routing call => 0 < call.seconds
  | _ => True

def gatewayStep (s : Gateway) : GatewayEvent → Option (Gateway × Unit)
  | .response message =>
      (threadDhcp message s.dhcp).map fun dhcp => ({ s with dhcp := dhcp }, ())
  | .newaddr now later newaddr =>
      let turn := threadMobility s.dhcp.config s.dhcp.mobility now later newaddr
        s.count s.maps.cm
      some ({ s with
        maps := { s.maps with cm := turn.cm }
        count := turn.count }, ())
  | .connection call => some ({ s with maps := (s.maps.apply call).1 }, ())
  | .routing call => some ({ s with rt := (s.rt.apply call).1 }, ())

def gatewayMachine : Machine Gateway GatewayEvent Unit := ⟨gatewayStep⟩

/-- What `main` installs in both tables of a gateway. -/
def bootStatics (config : Configuration) : List (NID × NID32) :=
  [(config.nidrvs, config.rvsIP), (config.nidgw, config.gatewayIP)]

/-- The gateway when `main` has started its threads. -/
structure Gateway.Boots (booted : Configuration) (s : Gateway) : Prop where
  isGateway : booted.type = .gateway
  config : s.dhcp.config = booted
  cm : s.maps.cm = (mainNrOutput booted (Buffer.zero maxBufLen)).cm
  rt : s.rt = (mainNrOutput booted (Buffer.zero maxBufLen)).rt

/-- The copies of the configuration agree with it: both default next hops and
the static entries of both tables. -/
structure Coherent (s : Gateway) : Prop where
  connections : s.maps.cm.cmGatewayIP = s.dhcp.config.gatewayIP
  routes : s.rt.gatewayIP = s.dhcp.config.gatewayIP
  gatewayEntry : s.maps.cm.leases s.dhcp.config.nidgw =
    some ⟨s.dhcp.config.gatewayIP, 0⟩
  rvsEntry : s.maps.cm.leases s.dhcp.config.nidrvs =
    some ⟨s.dhcp.config.rvsIP, 0⟩
  gatewayRoute : s.rt.leases s.dhcp.config.nidgw =
    some ⟨s.dhcp.config.gatewayIP, 0⟩
  rvsRoute : s.rt.leases s.dhcp.config.nidrvs =
    some ⟨s.dhcp.config.rvsIP, 0⟩

/-- The gateway and the rendezvous server configured now are those the daemon
was started with. -/
structure AsBooted (booted config : Configuration) : Prop where
  gatewayIP : config.gatewayIP = booted.gatewayIP
  gateway : staticIP (bootStatics booted) config.nidgw = some config.gatewayIP
  rvs : staticIP (bootStatics booted) config.nidrvs = some config.rvsIP

theorem AsBooted.consistent {booted config : Configuration}
    (routes : AsBooted booted config) (same : config.nidgw = config.nidrvs) :
    config.gatewayIP = config.rvsIP := by
  have both := routes.rvs
  rw [← same, routes.gateway] at both
  exact Option.some.inj both

/-- No expired entry stands where a handover puts a static one. -/
def NoneExpired (now : Timeval) (config : Configuration) (cm : ConnMapper) :
    Prop :=
  cm.leftOver now config.nidgw = none ∧ cm.leftOver now config.nidrvs = none

/-- The routing table has kept its next gateway and its static entries, and
what it learned is not static. -/
structure RoutesKept (booted : Configuration) (rt : RoutingTable) : Prop where
  gateway : rt.gatewayIP = booted.gatewayIP
  fixed : ∀ nid ip, staticIP (bootStatics booted) nid = some ip →
    rt.leases nid = some ⟨ip, 0⟩
  learned : ∀ nid, staticIP (bootStatics booted) nid = none →
    ∀ lease, rt.leases nid = some lease → ¬ lease.Permanent

namespace RoutesKept

variable {booted : Configuration} {rt : RoutingTable}

theorem installed (config : Configuration) :
    RoutesKept config (RoutingTable.installed config (bootStatics config)) := by
  refine ⟨gatewayIP_rtInstalled config _, ?_, ?_⟩
  · intro nid ip static
    rw [leases_rtInstalled, static]
    rfl
  · intro nid dynamic lease held
    rw [leases_rtInstalled, dynamic] at held
    cases held

theorem main {config : Configuration} (isGateway : config.type = .gateway)
    (buf : Buffer maxBufLen) : RoutesKept config (mainNrOutput config buf).rt := by
  have table : (mainNrOutput config buf).rt =
      RoutingTable.installed config (bootStatics config) := by
    simp only [mainNrOutput, isGateway]
    rfl
  rw [table]
  exact installed config

theorem apply (kept : RoutesKept booted rt) {call : RTCall}
    (dated : 0 < call.seconds) : RoutesKept booted (rt.apply call).1 := by
  refine ⟨(rt.apply_gatewayIP call).trans kept.gateway, ?_, ?_⟩
  · intro nid ip static
    exact RoutingTable.apply_permanent (kept.fixed nid ip static) rfl call
  · intro nid dynamic lease held
    cases call with
    | newRT now written ip =>
        have refreshed : (rt.leases.refresh written ip now.tvSec) nid =
            some lease := by rwa [← leases_newRTEntry]
        rcases LeaseTable.refresh_eq_some refreshed with before | ⟨_, rfl⟩
        · exact kept.learned nid dynamic lease before
        · exact Nat.ne_of_gt dated
    | getRT now sought =>
        rcases getRTEntry_lease sought nid now rt with same | ⟨gone, _⟩
        · exact kept.learned nid dynamic lease (same.symm.trans held)
        · cases gone.symm.trans held

theorem static_iff (kept : RoutesKept booted rt) {nid : NID} {ip : NID32} :
    rt.leases nid = some ⟨ip, 0⟩ ↔
      staticIP (bootStatics booted) nid = some ip := by
  constructor
  · intro held
    cases static : staticIP (bootStatics booted) nid with
    | none => exact (kept.learned nid static _ held rfl).elim
    | some fixed =>
        cases held.symm.trans (kept.fixed nid fixed static)
        rfl
  · exact kept.fixed nid ip

end RoutesKept

def KeepsRoutes (booted : Configuration) (s : Gateway) : Prop :=
  RoutesKept booted s.rt

theorem KeepsRoutes.step {booted : Configuration} {s next : Gateway}
    {event : GatewayEvent} {output : Unit} (kept : KeepsRoutes booted s)
    (dated : event.Dated)
    (stepped : gatewayMachine.step s event = some (next, output)) :
    KeepsRoutes booted next := by
  cases event with
  | response message =>
      obtain ⟨dhcp, _, result⟩ := Option.map_eq_some_iff.mp stepped
      cases result
      exact kept
  | newaddr now later newaddr =>
      cases stepped
      exact kept
  | connection call =>
      cases stepped
      exact kept
  | routing call =>
      cases stepped
      exact RoutesKept.apply kept dated

theorem KeepsRoutes.of_run {booted : Configuration} {start s : Gateway}
    {events : List GatewayEvent} {outputs : List Unit}
    (boots : start.Boots booted) (dated : ∀ event ∈ events, event.Dated)
    (run : gatewayMachine.Run start events outputs s) :
    KeepsRoutes booted s := by
  have initial : KeepsRoutes booted start := by
    rw [KeepsRoutes, boots.rt]
    exact RoutesKept.main boots.isGateway _
  exact run.invariant_among initial KeepsRoutes.step dated

/-- Its static entries are those of the configuration exactly if no learned
entry was left in their place. -/
theorem staticEntries_updateCMconf_iff {config : Configuration}
    {now : Timeval} {cm : ConnMapper}
    (consistent : config.nidgw = config.nidrvs →
      config.gatewayIP = config.rvsIP) :
    ((updateCMconf config now cm).leases config.nidgw =
        some ⟨config.gatewayIP, 0⟩ ∧
      (updateCMconf config now cm).leases config.nidrvs =
        some ⟨config.rvsIP, 0⟩) ↔ NoneExpired now config cm := by
  rw [leases_updateCMconf, LeaseTable.install_self, NoneExpired]
  by_cases same : config.nidgw = config.nidrvs
  · rw [same, LeaseTable.install_self, LeaseTable.install_self,
      consistent same, and_self, and_self, LeaseTable.installed_installed]
    exact installed_leftOver_iff
  · rw [LeaseTable.install_of_ne _ same, LeaseTable.install_self,
      LeaseTable.install_of_ne _ (Ne.symm same), installed_leftOver_iff,
      installed_leftOver_iff]

/-- After a handover a gateway is coherent exactly if DHCP has left it the
gateway and the rendezvous server it was started with, and no expired entry
takes their place in the connection map. -/
theorem coherent_iff {booted : Configuration} {start s next : Gateway}
    {events : List GatewayEvent} {outputs : List Unit} {now later : Timeval}
    (boots : start.Boots booted) (dated : ∀ event ∈ events, event.Dated)
    (run : gatewayMachine.Run start events outputs s) (second : 1 ≤ s.count)
    (handover : gatewayMachine.step s (.newaddr now later true) =
      some (next, ())) :
    Coherent next ↔ AsBooted booted s.dhcp.config ∧
      NoneExpired later s.dhcp.config s.maps.cm := by
  have kept : RoutesKept booted s.rt := KeepsRoutes.of_run boots dated run
  have counted : s.count + 1 ≥ 2 := Nat.succ_le_succ second
  simp only [gatewayMachine, gatewayStep, threadMobility, if_true,
    if_pos counted, Option.some.injEq, Prod.mk.injEq, and_true] at handover
  subst handover
  constructor
  · intro coherent
    have routes : AsBooted booted s.dhcp.config := by
      refine ⟨coherent.routes.symm.trans kept.gateway, ?_, ?_⟩
      · exact kept.static_iff.mp coherent.gatewayRoute
      · exact kept.static_iff.mp coherent.rvsRoute
    exact ⟨routes, (staticEntries_updateCMconf_iff routes.consistent).mp
      ⟨coherent.gatewayEntry, coherent.rvsEntry⟩⟩
  · rintro ⟨routes, noneExpired⟩
    obtain ⟨gateway, rvs⟩ :=
      (staticEntries_updateCMconf_iff routes.consistent).mpr noneExpired
    exact ⟨rfl, kept.gateway.trans routes.gatewayIP.symm, gateway, rvs,
      kept.static_iff.mpr routes.gateway, kept.static_iff.mpr routes.rvs⟩

def GatewaysCoherent : Prop :=
  ∀ (booted : Configuration) (start s next : Gateway)
    (events : List GatewayEvent) (outputs : List Unit) (now later : Timeval),
    start.Boots booted → (∀ event ∈ events, event.Dated) →
      gatewayMachine.Run start events outputs s → 1 ≤ s.count →
      gatewayMachine.step s (.newaddr now later true) = some (next, ()) →
      Coherent next

section Example

private def bootConfig : Configuration := .sample .gateway (NID.ofNat 1)

private def bootGateway : Gateway :=
  { dhcp :=
      { config := bootConfig
        ip := bootConfig.locator
        mobility := .intradomain
        serverAddress := []
        nm := initNidMapper true
        ph := initPhOutput bootConfig }
    maps := ⟨nodeConnMapper bootConfig, initRvsQueueTable⟩
    rt := RoutingTable.installed bootConfig (bootStatics bootConfig)
    count := 0 }

private theorem bootGateway_boots : bootGateway.Boots bootConfig :=
  ⟨rfl, rfl, rfl, rfl⟩

/-- The text of a response: the configuration, but this gateway locator. -/
private def responseWith (gatewayIP : NID32) : List UInt8 :=
  (List.intercalate [bar] [inetNtop6 bootConfig.nidcore,
    inetNtop6 bootConfig.nidgw, inetNtop4 gatewayIP,
    inetNtop6 bootConfig.nidrvs, inetNtop4 bootConfig.rvsIP,
    inetNtop6 bootConfig.niddns, inetNtop4 bootConfig.locator]) ++ [bar]

private def movedResponse : List UInt8 := responseWith (NID32.ofNat 21)

/-- The gateway moves, and the routing table sends to the old next hop. -/
theorem not_gatewaysCoherent : ¬ GatewaysCoherent := by
  intro coherent
  have ended : (gatewayMachine.exec bootGateway [.response movedResponse,
      .newaddr (.ofSec 100) (.ofSec 100) true]).any (fun result =>
        decide (1 ≤ result.1.count) &&
          !decide (result.1.rt.gatewayIP =
            result.1.dhcp.config.gatewayIP)) = true := by decide +kernel
  obtain ⟨outputs, s, run, property⟩ := Machine.exists_run_of_exec ended
  obtain ⟨second, different⟩ := Bool.and_eq_true_iff.mp property
  have agrees := coherent bootConfig bootGateway s _ _ outputs (.ofSec 101)
    (.ofSec 101) bootGateway_boots (by simp [GatewayEvent.Dated]) run
    (of_decide_eq_true second) rfl
  have routes : s.rt.gatewayIP = s.dhcp.config.gatewayIP := agrees.routes
  simp [routes] at different

/-- The gateway moves and comes back, and learns of a node in between. -/
private def returned : List GatewayEvent :=
  [.response movedResponse, .newaddr (.ofSec 100) (.ofSec 100) true,
    .connection (.newCM (.ofSec 101) (NID.ofNat 5) (NID32.ofNat 50)),
    .routing (.newRT (.ofSec 101) (NID.ofNat 5) (NID32.ofNat 50)),
    .response (responseWith bootConfig.gatewayIP)]

/-- Back at the gateway it was started with, it is coherent. -/
theorem coherent_returned : ∃ outputs s next,
    gatewayMachine.Run bootGateway returned outputs s ∧ s.count = 1 ∧
      AsBooted bootConfig s.dhcp.config ∧
      NoneExpired (.ofSec 102) s.dhcp.config s.maps.cm ∧
      gatewayMachine.step s (.newaddr (.ofSec 102) (.ofSec 102) true) =
        some (next, ()) ∧
      Coherent next := by
  have ended : (gatewayMachine.exec bootGateway returned).any (fun result =>
      decide (result.1.count = 1 ∧
        (result.1.dhcp.config.gatewayIP = bootConfig.gatewayIP ∧
          staticIP (bootStatics bootConfig) result.1.dhcp.config.nidgw =
            some result.1.dhcp.config.gatewayIP ∧
          staticIP (bootStatics bootConfig) result.1.dhcp.config.nidrvs =
            some result.1.dhcp.config.rvsIP) ∧
        result.1.maps.cm.leftOver (.ofSec 102) result.1.dhcp.config.nidgw =
            none ∧
          result.1.maps.cm.leftOver (.ofSec 102)
            result.1.dhcp.config.nidrvs = none)) = true := by decide +kernel
  obtain ⟨outputs, s, run, checked⟩ := Machine.exists_run_of_exec ended
  obtain ⟨count, ⟨gatewayIP, gateway, rvs⟩, current⟩ := of_decide_eq_true checked
  have asBooted : AsBooted bootConfig s.dhcp.config := ⟨gatewayIP, gateway, rvs⟩
  have dated : ∀ event ∈ returned, event.Dated := by
    simp [returned, GatewayEvent.Dated, RTCall.seconds, Timeval.ofSec]
  refine ⟨outputs, s, _, run, count, asBooted, current, rfl, ?_⟩
  exact (coherent_iff bootGateway_boots dated run (Nat.le_of_eq count.symm)
    rfl).mpr ⟨asBooted, current⟩

end Example

end NodeIdentity
