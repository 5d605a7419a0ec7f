import NodeIdentity.Library.History
import NodeIdentity.Properties.Registration

/-!
# A gateway and its parent

The same registration gives a gateway and the gateway above it a route, each
at the moment its own listener handles it.  The routes age from these two
moments, so for as long as the message took, the parent sends packets down
where the gateway below has forgotten the node.
-/

namespace NodeIdentity

open NodeIdentity.Library

/-- What the listener of `gw` wrote last for the node, and when. -/
def lastHandled (nid gw : NID) (outputs : List (Option Handled)) :
    Option (Lease NID32) :=
  lastOf (fun output => output.bind fun handled =>
    if handled.nmsg.destNID = gw ∧ registers nid handled.nmsg then
      some ⟨handled.nmsg.ip, handled.now.tvSec⟩
    else none) outputs

theorem lastHandled_snoc (nid gw : NID) (outputs : List (Option Handled))
    (now : Timeval) (nmsg : NidMsg) (emitted : List NidMsg) :
    lastHandled nid gw (outputs ++ [some ⟨now, nmsg, emitted⟩]) =
      if nmsg.destNID = gw ∧ registers nid nmsg then
        some ⟨nmsg.ip, now.tvSec⟩
      else lastHandled nid gw outputs := by
  rw [lastHandled, lastOf_snoc, Option.bind_some]
  split <;> rfl

/-- The routing table of `gw` has the route written last, while it lives. -/
def RouteHandled (nid gw : NID) (outputs : List (Option Handled)) (s : Network)
    (clock : Nat) : Prop :=
  (s.tables gw).rt.leases.Remembers gatewayTimeout clock nid
    (lastHandled nid gw outputs)

theorem RouteHandled.deliver (net : GatewayNet) {nid gw : NID}
    {outputs : List (Option Handled)} {s : Network} {clock : Nat}
    (handled : RouteHandled nid gw outputs s clock) {now : Timeval}
    (order : clock ≤ now.tvSec) (dated : 0 < now.tvSec) (nmsg : NidMsg)
    (role : GatewayRole) (emitted inFlight : List NidMsg) :
    RouteHandled nid gw (outputs ++ [some ⟨now, nmsg, emitted⟩])
      { tables := Function.update s.tables nmsg.destNID
          ((s.tables nmsg.destNID).handle role (net.config nmsg.destNID) now
            nmsg).1
        inFlight := inFlight } now.tvSec := by
  rw [RouteHandled, lastHandled_snoc]
  by_cases here : nmsg.destNID = gw
  · subst here
    simp only [Function.update_self]
    by_cases registration : registers nid nmsg = true
    · have ⟨kind, own⟩ : nmsg.type = .registry ∧ nmsg.nid = nid := by
        simpa [registers] using registration
      rw [if_pos ⟨trivial, registration⟩, GatewayTables.handle_rt, if_pos kind,
        leases_newRTEntry, own]
      exact LeaseTable.Remembers.refresh handled dated nmsg.ip
    · rw [if_neg fun both => registration both.2]
      apply LeaseTable.Remembers.pass handled order
      left
      exact GatewayTables.handle_leases_of_not_registers role _ now
        (Bool.eq_false_iff.mpr registration) _
  · rw [if_neg fun both => here both.1]
    simp only [Function.update_of_ne (Ne.symm here)]
    exact LeaseTable.Remembers.pass handled order (.inl rfl)

theorem RouteHandled.step {net : GatewayNet} {nid gw : NID}
    {outputs : List (Option Handled)} {s next : Network} {clock later : Nat}
    {event : NetEvent} {output : Option Handled}
    (handled : RouteHandled nid gw outputs s clock) (dated : 0 < clock)
    (stepped : (netMachine net).step (s, clock) event =
      some ((next, later), output)) :
    RouteHandled nid gw (outputs ++ [output]) next later := by
  obtain ⟨order, moved, rfl⟩ := Machine.timed_step_iff.mp stepped
  have silent : lastHandled nid gw (outputs ++ [none]) =
      lastHandled nid gw outputs := by
    rw [lastHandled, lastOf_snoc]
    rfl
  cases event with
  | deliver now index =>
      obtain ⟨nmsg, _, alternatives⟩ := netStep_deliver moved
      rcases alternatives with ⟨_, rfl, rfl⟩ |
        ⟨role, tables, emitted, _, turn, rfl, rfl⟩
      · rw [RouteHandled, silent]
        exact LeaseTable.Remembers.pass handled order (.inl rfl)
      · have result := handled.deliver net order
          (Nat.lt_of_lt_of_le dated order) nmsg role emitted
          (s.inFlight.eraseIdx index ++ emitted)
        rwa [turn] at result
  | lose now index =>
      cases moved
      rw [RouteHandled, silent]
      exact LeaseTable.Remembers.pass handled order (.inl rfl)
  | inject now nmsg =>
      cases moved
      rw [RouteHandled, silent]
      exact LeaseTable.Remembers.pass handled order (.inl rfl)
  | lookup now place sought =>
      cases moved
      rw [RouteHandled, silent]
      apply LeaseTable.Remembers.pass handled order
      by_cases here : gw = place
      · subst here
        simp only [Function.update_self]
        exact getRTEntry_lease sought nid now (s.tables gw).rt
      · left
        simp only [Function.update_of_ne here]

theorem routeHandled_of_run {net : GatewayNet} {nid gw : NID}
    {start s : Network} {clock later : Nat} {events : List NetEvent}
    {outputs : List (Option Handled)}
    (noRoute : (start.tables gw).rt.leases nid = none) (dated : 0 < clock)
    (run : (netMachine net).Run (start, clock) events outputs (s, later)) :
    RouteHandled nid gw outputs s later ∧ 0 < later := by
  generalize reached : (s, later) = state at run
  induction run generalizing s later with
  | nil =>
      cases reached
      exact ⟨.of_none noRoute, dated⟩
  | @snoc _ _ state _ event output _ stepped ih =>
      cases reached
      obtain ⟨handled, positive⟩ := ih rfl
      have order := (Machine.timed_step_iff.mp stepped).1
      have later := (Machine.timed_step_iff.mp stepped).2.2
      refine ⟨handled.step positive stepped, ?_⟩
      rw [later]
      exact Nat.lt_of_lt_of_le positive order

/-- A packet for the node, at `now`, is sent from `upper` down to `lower`,
which does not know the node and falls back to its default gateway. -/
def Bounces (net : GatewayNet) (lower upper nid : NID) (now : Timeval)
    (s : Network) : Prop :=
  (getRTEntry nid now (s.tables upper).rt).found = true ∧
    (getRTEntry nid now (s.tables upper).rt).dst = (net.config lower).locator ∧
    (getRTEntry nid now (s.tables lower).rt).found = false

instance (net : GatewayNet) (lower upper nid : NID) (now : Timeval)
    (s : Network) : Decidable (Bounces net lower upper nid now s) :=
  inferInstanceAs (Decidable (_ ∧ _ ∧ _))

/-- `upper` handled its last registration of the node, one from `lower`, less
than `GATEWAY_TIMEOUT` ago, and `lower` handled its last one, if it had a
locator, longer ago. -/
def InWindow (net : GatewayNet) (lower upper nid : NID) (now : Timeval)
    (outputs : List (Option Handled)) : Prop :=
  (∃ above, lastHandled nid upper outputs = some above ∧
    above.value = (net.config lower).locator ∧
    now.tvSec < above.since + gatewayTimeout) ∧
  ∀ below, lastHandled nid lower outputs = some below →
    below.value ≠ NID32.zero → below.since + gatewayTimeout ≤ now.tvSec

/-- Registrations of the node come to `lower` only, and none is lost. -/
def ThroughLower (nid lower : NID) : NetEvent → Prop
  | .inject _ nmsg =>
      registers nid nmsg = true →
        nmsg.destNID = lower ∧ nmsg.ip ≠ NID32.zero
  | .lose _ _ => False
  | _ => True

/-- A packet which a gateway gets from its parent is never sent back up. -/
def NoBouncing : Prop :=
  ∀ (net : GatewayNet) (lower upper nid : NID) (start s : Network)
    (clock later : Nat) (events : List NetEvent)
    (outputs : List (Option Handled)) (now : Timeval),
    net.role lower = some .gateway → (net.config lower).nidgw = upper →
    upper ≠ lower → (net.config lower).locator ≠ NID32.zero →
    (∀ gw, (start.tables gw).rt.leases nid = none) → start.inFlight = [] →
    0 < clock → (∀ event ∈ events, ThroughLower nid lower event) →
    (netMachine net).Run (start, clock) events outputs (s, later) →
    later ≤ now.tvSec → ¬ Bounces net lower upper nid now s

/-- It is sent back up exactly while the route of the parent outlives that of
the gateway. -/
theorem bounces_iff_inWindow {net : GatewayNet} {lower upper nid : NID}
    {start s : Network} {clock later : Nat} {events : List NetEvent}
    {outputs : List (Option Handled)} {now : Timeval}
    (located : (net.config lower).locator ≠ NID32.zero)
    (noRoute : ∀ gw, (start.tables gw).rt.leases nid = none) (dated : 0 < clock)
    (run : (netMachine net).Run (start, clock) events outputs (s, later))
    (order : later ≤ now.tvSec) :
    Bounces net lower upper nid now s ↔
      InWindow net lower upper nid now outputs := by
  have above := (routeHandled_of_run (noRoute upper) dated run).1
  have below := (routeHandled_of_run (noRoute lower) dated run).1
  constructor
  · rintro ⟨found, down, lost⟩
    refine ⟨?_, ?_⟩
    · obtain ⟨ip, nonzero, served⟩ := getRTEntry_found_iff.mp found
      rw [getRTEntry_serves nonzero served] at down
      obtain ⟨lease, known, alive, value⟩ := (above.serves_iff order).mp served
      exact ⟨lease, known, value.trans down, alive⟩
    · intro lease known nonzero
      by_contra current
      have served := (below.serves_iff order).mpr
        ⟨lease, known, Nat.lt_of_not_le current, rfl⟩
      rw [getRTEntry_found_iff.mpr ⟨_, nonzero, served⟩] at lost
      cases lost
  · rintro ⟨⟨lease, known, value, alive⟩, lapsed⟩
    have served := (above.serves_iff order).mpr ⟨lease, known, alive, value⟩
    rw [Bounces, getRTEntry_serves located served]
    refine ⟨rfl, rfl, ?_⟩
    rw [Bool.eq_false_iff]
    intro found
    obtain ⟨ip, nonzero, serves⟩ := getRTEntry_found_iff.mp found
    obtain ⟨other, last, current, rfl⟩ := (below.serves_iff order).mp serves
    exact Nat.not_lt.mpr (lapsed other last nonzero) current

section Example

private def parentNet : GatewayNet :=
  { role := fun gw =>
      if gw = NID.ofNat 1 then some .gateway
      else if gw = NID.ofNat 2 then some .core
      else none
    config := fun gw => .sample .gateway gw
    nid_config := fun _ => rfl }

private def quietNetwork : Network :=
  { tables := fun gw =>
      { nmsg := Buffer.zero nmsgLen
        cm := initConnMapper (parentNet.config gw)
        rt := initRtable (parentNet.config gw)
        registry := initRegistryTable }
    inFlight := [] }

private def registryFive : NidMsg :=
  { type := .registry
    srcNID := NID.ofNat 3
    destNID := NID.ofNat 1
    srcNIDgw := NID.ofNat 2
    destNIDgw := NID.zero
    nid := NID.ofNat 5
    ip := NID32.ofNat 50 }

/-- The registration is a second under way between the two. -/
private def delayed : List NetEvent :=
  [.inject (.ofSec 100) registryFive, .deliver (.ofSec 100) 0,
    .deliver (.ofSec 101) 0]

private theorem quietNetwork_noRoute (gw : NID) :
    (quietNetwork.tables gw).rt.leases (NID.ofNat 5) = none :=
  congrFun (leases_empty 30 thirty_pos) _

private theorem delayed_run
    (property : Network → List (Option Handled) → Bool)
    (evaluated : ((netMachine parentNet).exec (quietNetwork, 100) delayed).any
      (fun result => result.1.2 = 101 ∧
        property result.1.1 result.2 = true) = true) :
    ∃ outputs s, (netMachine parentNet).Run (quietNetwork, 100) delayed outputs
      (s, 101) ∧ property s outputs = true := by
  obtain ⟨outputs, ⟨s, later⟩, run, holds⟩ :=
    Machine.exists_run_of_exec evaluated
  obtain ⟨clock, holds⟩ := of_decide_eq_true holds
  cases clock
  exact ⟨outputs, s, run, holds⟩

/-- Ten seconds after the gateway, and nine after its parent. -/
theorem not_noBouncing : ¬ NoBouncing := by
  intro never
  obtain ⟨outputs, s, run, bounced⟩ := delayed_run
    (fun s _ => Bounces parentNet (NID.ofNat 1) (NID.ofNat 2) (NID.ofNat 5)
      (.ofSec 110) s) (by decide +kernel)
  refine never parentNet (NID.ofNat 1) (NID.ofNat 2) (NID.ofNat 5) quietNetwork
    s 100 101 delayed outputs (.ofSec 110) (by decide +kernel) rfl
    (by decide +kernel) (by decide +kernel) quietNetwork_noRoute rfl (by decide)
    ?_ run (by decide) (of_decide_eq_true bounced)
  intro event member
  simp only [delayed, List.mem_cons, List.not_mem_nil, or_false] at member
  rcases member with rfl | rfl | rfl
  · exact fun _ => ⟨rfl, by decide +kernel⟩
  · exact trivial
  · exact trivial

/-- The run meets the condition, and the packet goes back and forth. -/
theorem bounces_delayed : ∃ outputs s,
    (netMachine parentNet).Run (quietNetwork, 100) delayed outputs (s, 101) ∧
      InWindow parentNet (NID.ofNat 1) (NID.ofNat 2) (NID.ofNat 5)
        (.ofSec 110) outputs ∧
      Bounces parentNet (NID.ofNat 1) (NID.ofNat 2) (NID.ofNat 5)
        (.ofSec 110) s := by
  obtain ⟨outputs, s, run, handled⟩ := delayed_run
    (fun _ outputs =>
      lastHandled (NID.ofNat 5) (NID.ofNat 2) outputs =
          some ⟨NID32.ofNat 10, 101⟩ ∧
        lastHandled (NID.ofNat 5) (NID.ofNat 1) outputs =
          some ⟨NID32.ofNat 50, 100⟩) (by decide +kernel)
  obtain ⟨above, below⟩ := of_decide_eq_true handled
  have window : InWindow parentNet (NID.ofNat 1) (NID.ofNat 2) (NID.ofNat 5)
      (.ofSec 110) outputs := by
    refine ⟨⟨_, above, rfl, by decide⟩, ?_⟩
    intro lease known _
    cases below.symm.trans known
    decide
  exact ⟨outputs, s, run, window, (bounces_iff_inWindow (by decide +kernel)
    quietNetwork_noRoute (by decide) run (by decide)).mpr window⟩

end Example

end NodeIdentity
