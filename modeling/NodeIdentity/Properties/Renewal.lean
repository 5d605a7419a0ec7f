import NodeIdentity.Properties.Registration

/-!
# Renewed registrations

A node renews its registration, so several registrations of it may be on
their way up its chain of gateways at once, and some of them may be lost.
Every gateway learns the same hop from all of them.
-/

namespace NodeIdentity

open NodeIdentity.Library

/-- What the rendezvous server sends for the acknowledged update, and again
for each renewal of it. -/
def NidMsg.RenewedBy (rvs : Configuration) (ack nmsg : NidMsg) : Prop :=
  ∃ renewal : NidMsg, renewal.ip = ack.ip ∧
    renewal.srcNIDgw = ack.srcNIDgw ∧ nmsg = threadRvs2gw rvs renewal

def NetEvent.RenewsOnly (rvs : Configuration) (ack : NidMsg) : NetEvent → Prop
  | .inject _ nmsg => registers ack.nid nmsg = true → ack.RenewedBy rvs nmsg
  | _ => True

/-- A registration has come as far as `gw`, which is to learn `ip`: every
gateway below has written its hop. -/
def Risen (net : GatewayNet) (ack : NidMsg) (gws : List NID)
    (writes : List RTWrite) (gw : NID) (ip : NID32) : Prop :=
  ∃ done rest, gws = done ++ gw :: rest ∧
    ip = locatorAbove net ack.ip done ∧
    ∀ hop ∈ hopsOf net ack.ip done, hop ∈ writes.map RTWrite.hop

theorem eq_of_mem_hopsOf {net : GatewayNet} {ip : NID32} {gws : List NID}
    (distinct : gws.Nodup) {gw : NID} {first second : NID32}
    (left : (gw, first) ∈ hopsOf net ip gws)
    (right : (gw, second) ∈ hopsOf net ip gws) : first = second := by
  rw [← map_fst_hopsOf net ip gws] at distinct
  have same := List.inj_on_of_nodup_map distinct left right rfl
  exact congrArg Prod.snd same

namespace Risen

variable {net : GatewayNet} {rvs : Configuration} {ack nmsg : NidMsg}
  {gws : List NID} {writes further : List RTWrite} {gw : NID} {ip : NID32}

theorem more (risen : Risen net ack gws writes gw ip)
    (kept : writes ⊆ further) : Risen net ack gws further gw ip := by
  obtain ⟨done, rest, whole, here, below⟩ := risen
  refine ⟨done, rest, whole, here, ?_⟩
  intro hop member
  exact List.map_subset _ kept (below hop member)

theorem mem_hopsOf (risen : Risen net ack gws writes gw ip) :
    (gw, ip) ∈ hopsOf net ack.ip gws := by
  obtain ⟨done, rest, rfl, rfl, _⟩ := risen
  rw [hopsOf_append]
  exact List.mem_append_right _ List.mem_cons_self

theorem mem (risen : Risen net ack gws writes gw ip) : gw ∈ gws := by
  obtain ⟨done, rest, rfl, _, _⟩ := risen
  exact List.mem_append_right _ List.mem_cons_self

theorem of_renewedBy (renewed : ack.RenewedBy rvs nmsg)
    (first : gws.head? = some rvs.nidgw) :
    Risen net ack gws writes nmsg.destNID nmsg.ip := by
  obtain ⟨renewal, same, _, rfl⟩ := renewed
  obtain ⟨rest, rfl⟩ := List.head?_eq_some_iff.mp first
  refine ⟨[], rest, rfl, same, ?_⟩
  intro hop member
  cases member

/-- What a gateway of the chain passes up comes to the next one, which is to
learn the locator of the gateway. -/
theorem above (risen : Risen net ack gws writes gw ip)
    (chain : GatewayChain net gws)
    (isGateway : net.role gw = some .gateway)
    (written : (gw, ip) ∈ writes.map RTWrite.hop) :
    Risen net ack gws writes (net.config gw).nidgw (net.config gw).locator := by
  obtain ⟨done, rest, rfl, rfl, below⟩ := risen
  rcases chain.at with ⟨isCore, _⟩ | ⟨_, upper, rfl⟩
  · cases isCore.symm.trans isGateway
  · refine ⟨done ++ [gw], upper, by simp, ?_, ?_⟩
    · rw [locatorAbove_append]
      rfl
    · intro hop member
      rw [hopsOf_append, List.mem_append] at member
      rcases member with lower | here
      · exact below hop lower
      · cases List.mem_singleton.mp here
        exact written

end Risen

def Fresh (writes : List RTWrite) (now : Nat) : Prop :=
  ∀ write ∈ writes, ∃ latest ∈ writes, latest.gw = write.gw ∧
    now < latest.time + gatewayTimeout

instance (writes : List RTWrite) (now : Nat) : Decidable (Fresh writes now) :=
  inferInstanceAs (Decidable (∀ write ∈ writes, ∃ latest ∈ writes, _))

/-- Every registration of the node in flight is on its way up the chain, and
what the gateways have written is served; a static route of theirs says the
same. -/
structure Renewing (net : GatewayNet) (ack : NidMsg) (gws : List NID)
    (outputs : List (Option Handled)) (s : Network) (clock : Nat) : Prop where
  flight : ∀ nmsg ∈ s.inFlight, registers ack.nid nmsg = true →
    nmsg.srcNIDgw = ack.srcNIDgw ∧
      Risen net ack gws (writesFor ack.nid outputs) nmsg.destNID nmsg.ip
  written : ∀ write ∈ writesFor ack.nid outputs, write.time ≤ clock ∧
    Risen net ack gws (writesFor ack.nid outputs) write.gw write.ip
  served : ∀ write ∈ writesFor ack.nid outputs, ∀ now, clock ≤ now →
    now < write.time + gatewayTimeout →
    (s.tables write.gw).rt.leases.Serves gatewayTimeout now ack.nid write.ip
  agreed : ∀ hop ∈ hopsOf net ack.ip gws, ∀ lease,
    (s.tables hop.1).rt.leases ack.nid = some lease → lease.Permanent →
      lease.value = hop.2

namespace Renewing

variable {net : GatewayNet} {rvs : Configuration} {ack : NidMsg}
  {gws : List NID} {outputs : List (Option Handled)} {s next : Network}
  {clock later : Nat}

/-- A step in which no gateway writes a route to the node; routes of the node
may only disappear, and only when they are over. -/
theorem keep (renewing : Renewing net ack gws outputs s clock)
    (order : clock ≤ later) {output : Option Handled}
    (silent : writesFor ack.nid [output] = [])
    (flight : ∀ nmsg ∈ next.inFlight, registers ack.nid nmsg = true →
      nmsg ∈ s.inFlight ∨ nmsg.srcNIDgw = ack.srcNIDgw ∧
        Risen net ack gws (writesFor ack.nid outputs) nmsg.destNID nmsg.ip)
    (routes : ∀ gw, (next.tables gw).rt.leases ack.nid =
        (s.tables gw).rt.leases ack.nid ∨
      (next.tables gw).rt.leases ack.nid = none ∧
        ∀ lease, (s.tables gw).rt.leases ack.nid = some lease →
          ¬ lease.Live gatewayTimeout later) :
    Renewing net ack gws (outputs ++ [output]) next later := by
  have writes : writesFor ack.nid (outputs ++ [output]) =
      writesFor ack.nid outputs := by
    rw [writesFor_snoc, silent, List.append_nil]
  constructor
  case flight =>
    intro nmsg member tracked
    rw [writes]
    rcases flight nmsg member tracked with before | risen
    · exact renewing.flight nmsg before tracked
    · exact risen
  case written =>
    intro write member
    rw [writes] at member ⊢
    obtain ⟨past, risen⟩ := renewing.written write member
    exact ⟨past.trans order, risen⟩
  case served =>
    intro write member now reached current
    rw [writes] at member
    have before := renewing.served write member now (order.trans reached) current
    rcases routes write.gw with same | ⟨_, lapsed⟩
    · obtain ⟨lease, held, serving⟩ := before
      exact ⟨lease, same.trans held, serving⟩
    · obtain ⟨lease, held, live, _⟩ := before
      exact (lapsed lease held (live.earlier reached)).elim
  case agreed =>
    intro hop member lease held
    rcases routes hop.1 with same | ⟨gone, _⟩
    · exact renewing.agreed hop member lease (same.symm.trans held)
    · cases gone.symm.trans held

/-- The registration of a renewal is taken in: its gateway writes the hop it
is to learn, and passes the registration up or, as a core, ends it. -/
theorem deliver_tracked (renewing : Renewing net ack gws outputs s clock)
    (chain : GatewayChain net gws) (distinct : gws.Nodup) {now : Timeval}
    (order : clock ≤ now.tvSec) {index : Nat} {nmsg : NidMsg}
    (found : s.inFlight[index]? = some nmsg)
    (tracked : registers ack.nid nmsg = true) {role : GatewayRole}
    {tables : GatewayTables} {emitted : List NidMsg}
    (known : net.role nmsg.destNID = some role)
    (handled : (s.tables nmsg.destNID).handle role (net.config nmsg.destNID)
      now nmsg = (tables, emitted)) :
    Renewing net ack gws (outputs ++ [some ⟨now, nmsg, emitted⟩])
      { tables := Function.update s.tables nmsg.destNID tables
        inFlight := s.inFlight.eraseIdx index ++ emitted } now.tvSec := by
  obtain ⟨home, risen⟩ := renewing.flight nmsg (List.mem_of_getElem? found)
    tracked
  obtain ⟨kind, about⟩ : nmsg.type = .registry ∧ nmsg.nid = ack.nid := by
    simpa [registers] using tracked
  have writes : writesFor ack.nid
      (outputs ++ [some ⟨now, nmsg, emitted⟩]) =
        writesFor ack.nid outputs ++ [⟨nmsg.destNID, nmsg.ip, now.tvSec⟩] := by
    rw [writesFor_snoc]
    simp [writesFor, tracked]
  have kept : writesFor ack.nid outputs ⊆
      writesFor ack.nid (outputs ++ [some ⟨now, nmsg, emitted⟩]) := by
    rw [writes]
    exact List.subset_append_left _ _
  have hop := risen.mem_hopsOf
  have route : tables.rt.leases =
      (s.tables nmsg.destNID).rt.leases.refresh ack.nid nmsg.ip now.tvSec := by
    have after := GatewayTables.handle_rt role (net.config nmsg.destNID) now
      nmsg (s.tables nmsg.destNID)
    rw [handled, if_pos kind, about] at after
    exact (congrArg RoutingTable.leases after).trans
      (leases_newRTEntry ack.nid nmsg.ip now _)
  constructor
  case flight =>
    intro sent member other
    rcases List.mem_append.mp member with before | after
    · obtain ⟨same, below⟩ := renewing.flight sent
        (List.mem_of_mem_eraseIdx before) other
      exact ⟨same, below.more kept⟩
    · have among : sent ∈ ((s.tables nmsg.destNID).handle role
          (net.config nmsg.destNID) now nmsg).2 :=
        (congrArg (sent ∈ ·.2) handled).mpr after
      cases role with
      | gateway =>
          rw [GatewayTables.handle_gateway_emitted, if_pos kind] at among
          cases List.mem_singleton.mp among
          have own : (nmsg.destNID, nmsg.ip) ∈
              (writesFor ack.nid
                (outputs ++ [some ⟨now, nmsg, emitted⟩])).map RTWrite.hop := by
            rw [writes, List.map_append]
            exact List.mem_append_right _ List.mem_cons_self
          exact ⟨home, (risen.more kept).above chain known own⟩
      | core =>
          have redirect := (GatewayTables.handle_core_emitted among).2
          simp [registers, redirect] at other
  case written =>
    intro write member
    rw [writes] at member
    rcases List.mem_append.mp member with before | last
    · obtain ⟨past, below⟩ := renewing.written write before
      exact ⟨past.trans order, below.more kept⟩
    · cases List.mem_singleton.mp last
      exact ⟨le_rfl, risen.more kept⟩
  case served =>
    intro write member later reached current
    by_cases same : write.gw = nmsg.destNID
    · -- All registrations teach a gateway the same, so the later one serves
      -- what every earlier one wrote.
      have learnt : write.ip = nmsg.ip ∧ write.time ≤ now.tvSec := by
        rw [writes] at member
        rcases List.mem_append.mp member with before | last
        · obtain ⟨past, below⟩ := renewing.written write before
          have here := below.mem_hopsOf
          rw [same] at here
          exact ⟨eq_of_mem_hopsOf distinct here hop, past.trans order⟩
        · cases List.mem_singleton.mp last
          exact ⟨rfl, le_rfl⟩
      rw [same, learnt.1]
      simp only [Function.update_self, route]
      apply LeaseTable.refresh_serves
      · exact renewing.agreed _ hop
      · omega
    · simp only [Function.update_of_ne same]
      rw [writes] at member
      rcases List.mem_append.mp member with before | last
      · exact renewing.served write before later (order.trans reached) current
      · cases List.mem_singleton.mp last
        exact (same rfl).elim
  case agreed =>
    intro other member lease held permanent
    by_cases same : other.1 = nmsg.destNID
    · have ip : other.2 = nmsg.ip := by
        have there : (nmsg.destNID, other.2) ∈ hopsOf net ack.ip gws :=
          same ▸ member
        exact eq_of_mem_hopsOf distinct there hop
      simp only [same, Function.update_self, route] at held
      rw [ip]
      rcases LeaseTable.refresh_eq_some held with before | ⟨_, rfl⟩
      · exact renewing.agreed _ hop lease before permanent
      · rfl
    · simp only [Function.update_of_ne same] at held
      exact renewing.agreed other member lease held permanent

theorem step (renewing : Renewing net ack gws outputs s clock)
    (chain : GatewayChain net gws) (distinct : gws.Nodup)
    (first : gws.head? = some rvs.nidgw) {event : NetEvent}
    {output : Option Handled} (order : clock ≤ event.seconds)
    (renews : event.RenewsOnly rvs ack)
    (stepped : netStep net s event = some (next, output)) :
    Renewing net ack gws (outputs ++ [output]) next event.seconds := by
  cases event with
  | deliver now index =>
      obtain ⟨nmsg, found, away | here⟩ := netStep_deliver stepped
      · obtain ⟨_, rfl, rfl⟩ := away
        refine renewing.keep order rfl ?_ fun _ => .inl rfl
        intro sent member _
        exact .inl (List.mem_of_mem_eraseIdx member)
      · obtain ⟨role, tables, emitted, known, handled, rfl, rfl⟩ := here
        cases kind : registers ack.nid nmsg with
        | true =>
            exact renewing.deliver_tracked chain distinct order found kind
              known handled
        | false =>
            have routes := GatewayTables.handle_leases_of_not_registers role
              (net.config nmsg.destNID) now kind (s.tables nmsg.destNID)
            have silent := GatewayTables.handle_emitted_of_not_registers role
              (net.config nmsg.destNID) now kind (s.tables nmsg.destNID)
            rw [handled] at routes silent
            refine renewing.keep order (by simp [writesFor, kind]) ?_ ?_
            · intro sent member tracked
              rcases List.mem_append.mp member with before | after
              · exact .inl (List.mem_of_mem_eraseIdx before)
              · rw [List.filter_eq_nil_iff] at silent
                exact (silent sent after tracked).elim
            · intro gw
              left
              by_cases same : gw = nmsg.destNID
              · subst same
                simp only [Function.update_self]
                exact routes
              · simp only [Function.update_of_ne same]
  | lose now index =>
      cases stepped
      refine renewing.keep order rfl ?_ fun _ => .inl rfl
      intro sent member _
      exact .inl (List.mem_of_mem_eraseIdx member)
  | inject now nmsg =>
      cases stepped
      refine renewing.keep order rfl ?_ fun _ => .inl rfl
      intro sent member tracked
      rcases List.mem_append.mp member with before | last
      · exact .inl before
      · cases List.mem_singleton.mp last
        have renewed := renews tracked
        obtain ⟨_, _, home, rfl⟩ := id renewed
        exact .inr ⟨home, .of_renewedBy renewed first⟩
  | lookup now gw nid =>
      cases stepped
      refine renewing.keep order rfl (fun _ member _ => .inl member) ?_
      intro other
      by_cases same : other = gw
      · subst same
        simp only [Function.update_self]
        exact getRTEntry_lease nid ack.nid now (s.tables other).rt
      · left
        simp only [Function.update_of_ne same]

theorem of_run {start : Network} {began : Nat} {events : List NetEvent}
    (chain : GatewayChain net gws) (distinct : gws.Nodup)
    (first : gws.head? = some rvs.nidgw)
    (initial : Renewing net ack gws [] start began)
    (renews : ∀ event ∈ events, event.RenewsOnly rvs ack)
    (run : (netMachine net).Run (start, began) events outputs (s, clock)) :
    Renewing net ack gws outputs s clock := by
  generalize reached : (s, clock) = final at run
  induction run generalizing s clock with
  | nil =>
      cases reached
      exact initial
  | @snoc events outputs state next event output _ last ih =>
      subst reached
      obtain ⟨before, time⟩ := state
      obtain ⟨order, stepped, rfl⟩ := Machine.timed_step_iff.mp last
      have earlier := ih (fun event member =>
        renews event (List.mem_append_left _ member)) rfl
      exact earlier.step chain distinct first order
        (renews event (List.mem_append_right _ List.mem_cons_self)) stepped

theorem complete (renewing : Renewing net ack gws outputs s clock)
    (distinct : gws.Nodup) {core : NID} (last : gws.getLast? = some core)
    (arrived : core ∈ (writesFor ack.nid outputs).map RTWrite.gw) :
    ∀ hop ∈ hopsOf net ack.ip gws,
      hop ∈ (writesFor ack.nid outputs).map RTWrite.hop := by
  obtain ⟨write, member, rfl⟩ := List.mem_map.mp arrived
  obtain ⟨done, rest, rfl, here, below⟩ := (renewing.written write member).2
  have top : rest = [] := by
    rcases List.eq_nil_or_concat rest with rfl | ⟨front, final, rfl⟩
    · rfl
    · rw [List.concat_eq_append, ← List.cons_append, ← List.append_assoc,
        List.getLast?_concat, Option.some.injEq] at last
      subst last
      simp [List.nodup_append] at distinct
  subst top
  intro hop inside
  rw [hopsOf_append, List.mem_append] at inside
  rcases inside with lower | highest
  · exact below hop lower
  · cases List.mem_singleton.mp highest
    rw [← here]
    exact List.mem_map_of_mem member

/-- A gateway which has written serves its hop as long as it has renewed what
it wrote. -/
theorem serves (renewing : Renewing net ack gws outputs s clock)
    (distinct : gws.Nodup) {hop : NID × NID32}
    (member : hop ∈ hopsOf net ack.ip gws)
    (wrote : hop ∈ (writesFor ack.nid outputs).map RTWrite.hop) {now : Nat}
    (order : clock ≤ now) (fresh : Fresh (writesFor ack.nid outputs) now) :
    (s.tables hop.1).rt.leases.Serves gatewayTimeout now ack.nid hop.2 := by
  obtain ⟨write, written, rfl⟩ := List.mem_map.mp wrote
  obtain ⟨latest, held, same, current⟩ := fresh write written
  have there := (renewing.written latest held).2.mem_hopsOf
  have served := renewing.served latest held now order current
  rw [same] at there served
  rw [eq_of_mem_hopsOf distinct there member] at served
  exact served

theorem unrouted_step (renewing : Renewing net ack gws outputs s clock)
    {event : NetEvent} {output : Option Handled}
    (stepped : netStep net s event = some (next, output)) {gw : NID}
    (away : gw ∉ gws) (unrouted : (s.tables gw).rt.leases ack.nid = none) :
    (next.tables gw).rt.leases ack.nid = none := by
  cases event with
  | deliver now index =>
      obtain ⟨nmsg, found, none | here⟩ := netStep_deliver stepped
      · obtain ⟨_, _, rfl⟩ := none
        exact unrouted
      · obtain ⟨role, tables, emitted, known, handled, rfl, rfl⟩ := here
        by_cases same : gw = nmsg.destNID
        · have other : registers ack.nid nmsg = false := by
            by_contra tracked
            rw [Bool.not_eq_false] at tracked
            have risen := (renewing.flight nmsg (List.mem_of_getElem? found)
              tracked).2
            exact away (same ▸ risen.mem)
          have kept := GatewayTables.handle_leases_of_not_registers role
            (net.config nmsg.destNID) now other (s.tables nmsg.destNID)
          rw [handled] at kept
          subst same
          simp only [Function.update_self]
          exact kept.trans unrouted
        · simp only [Function.update_of_ne same]
          exact unrouted
  | lose =>
      cases stepped
      exact unrouted
  | inject =>
      cases stepped
      exact unrouted
  | lookup now looked nid =>
      cases stepped
      by_cases same : gw = looked
      · subst same
        simp only [Function.update_self]
        rcases getRTEntry_lease nid ack.nid now (s.tables gw).rt with
          kept | ⟨lapsed, _⟩
        · exact kept.trans unrouted
        · exact lapsed
      · simp only [Function.update_of_ne same]
        exact unrouted

theorem unrouted_of_run {start : Network} {began : Nat}
    {events : List NetEvent}
    (chain : GatewayChain net gws) (distinct : gws.Nodup)
    (first : gws.head? = some rvs.nidgw)
    (initial : Renewing net ack gws [] start began)
    (renews : ∀ event ∈ events, event.RenewsOnly rvs ack)
    (run : (netMachine net).Run (start, began) events outputs (s, clock))
    {gw : NID} (away : gw ∉ gws)
    (unrouted : (start.tables gw).rt.leases ack.nid = none) :
    (s.tables gw).rt.leases ack.nid = none := by
  generalize reached : (s, clock) = final at run
  induction run generalizing s clock with
  | nil =>
      cases reached
      exact unrouted
  | @snoc events outputs state next event output earlier last ih =>
      subst reached
      obtain ⟨before, time⟩ := state
      obtain ⟨_, stepped, _⟩ := Machine.timed_step_iff.mp last
      have quiet := fun event member =>
        renews event (List.mem_append_left _ member)
      have renewing := of_run chain distinct first initial quiet earlier
      exact renewing.unrouted_step stepped away (ih quiet rfl)

end Renewing

end NodeIdentity
