import NodeIdentity.Properties.RoutingMap
import NodeIdentity.Properties.StaticBindings

/-!
# Static entries

An entry is static because its time stamp is zero, and installing one over an
entry which is there already keeps the time stamp.  So what becomes of a
static entry depends on what was in its place: nothing, a static entry, or one
which was learned, be it expired or not.
-/

namespace NodeIdentity

open NodeIdentity.Library

/-- What happens to the connection map: calls of other threads, new static
entries, and a new configuration. -/
inductive MapOp where
  | call (call : CMCall)
  | static (nid : NID) (ip : NID32)
  | reconfigure (config : Configuration) (now : Timeval)

/-- The operation neither deletes the entry of a NID nor makes it static. -/
def MapOp.Spares (nid : NID) : MapOp → Prop
  | call (.delCM _ gone) => gone ≠ nid
  | call _ => True
  | static set _ => set ≠ nid
  | reconfigure _ _ => False

def CMSystem.operate (s : CMSystem) : MapOp → CMSystem
  | .call call => (s.apply call).1
  | .static nid ip => { s with cm := staticCMEntry nid ip s.cm }
  | .reconfigure config now => { s with cm := updateCMconf config now s.cm }

/-- The system some operations after the daemon has created its tables. -/
def CMSystem.after (config : Configuration) (ops : List MapOp) : CMSystem :=
  ops.foldl CMSystem.operate (CMSystem.installed config [])

inductive RTOp where
  | call (call : RTCall)
  | static (nid : NID) (ip : NID32)

def RTOp.Spares (nid : NID) : RTOp → Prop
  | call _ => True
  | static set _ => set ≠ nid

def RoutingTable.operate (rt : RoutingTable) : RTOp → RoutingTable
  | .call call => (rt.apply call).1
  | .static nid ip => staticRTEntry nid ip rt

def RoutingTable.after (config : Configuration) (ops : List RTOp) :
    RoutingTable :=
  ops.foldl RoutingTable.operate (initRtable config)

/-- `getCMEntry` answers with `ip` at all times, as long as nobody deletes the
entry or sets it again. -/
def StaysBound (cm : ConnMapper) (nid : NID) (ip : NID32) : Prop :=
  ∀ (queueTable : QueueTable) (ops : List MapOp),
    (∀ op ∈ ops, op.Spares nid) →
      Bound (ops.foldl CMSystem.operate ⟨cm, queueTable⟩).cm nid ip

/-- The same for `getRTEntry`. -/
def StaysRouted (rt : RoutingTable) (nid : NID) (ip : NID32) : Prop :=
  ∀ (ops : List RTOp), (∀ op ∈ ops, op.Spares nid) →
    ∀ now, (ops.foldl RoutingTable.operate rt).reply nid now = ⟨true, ip⟩

theorem CMSystem.operate_permanent {s : CMSystem} {nid : NID}
    {lease : Lease NID32} (held : s.cm.leases nid = some lease)
    (permanent : lease.Permanent) {op : MapOp} (spares : op.Spares nid) :
    (s.operate op).cm.leases nid = some lease := by
  cases op with
  | call call =>
      apply CMSystem.apply_permanent held permanent
      cases call with
      | delCM now gone =>
          intro same
          cases same
          exact spares rfl
      | newCM =>
          intro same
          cases same
      | getCM =>
          intro same
          cases same
      | unqueue =>
          intro same
          cases same
  | static set ip =>
      change (staticCMEntry set ip s.cm).leases nid = some lease
      rw [leases_staticCMEntry, LeaseTable.install_of_ne _ (Ne.symm spares), held]
  | reconfigure config now => exact spares.elim

theorem RoutingTable.operate_permanent {rt : RoutingTable} {nid : NID}
    {lease : Lease NID32} (held : rt.leases nid = some lease)
    (permanent : lease.Permanent) {op : RTOp} (spares : op.Spares nid) :
    (rt.operate op).leases nid = some lease := by
  cases op with
  | call call => exact RoutingTable.apply_permanent held permanent call
  | static set ip =>
      change (staticRTEntry set ip rt).leases nid = some lease
      rw [leases_staticRTEntry, LeaseTable.install_of_ne _ (Ne.symm spares), held]

theorem staysBound_iff {cm : ConnMapper} {nid : NID} {ip : NID32} :
    StaysBound cm nid ip ↔ cm.leases nid = some ⟨ip, 0⟩ := by
  constructor
  · intro stays
    exact bound_iff.mp (stays initRvsQueueTable [] (by simp))
  · intro held queueTable ops spares
    rw [bound_iff]
    refine List.foldlRecOn
      (motive := fun s : CMSystem => s.cm.leases nid = some ⟨ip, 0⟩)
      ops CMSystem.operate held ?_
    intro s kept op member
    exact CMSystem.operate_permanent kept rfl (spares op member)

theorem staysRouted_iff {rt : RoutingTable} {nid : NID} {ip : NID32}
    (nonzero : ip ≠ NID32.zero) :
    StaysRouted rt nid ip ↔ rt.leases nid = some ⟨ip, 0⟩ := by
  constructor
  · intro stays
    have served : ∀ now : Timeval,
        rt.leases.Serves gatewayTimeout now.tvSec nid ip :=
      fun now => (RoutingTable.reply_found_iff.mp (stays [] (by simp) now)).2
    obtain ⟨lease, held, _, value⟩ := served (.ofSec 0)
    obtain ⟨same, heldLater, live, _⟩ :=
      served (.ofSec (lease.since + gatewayTimeout))
    cases held.symm.trans heldLater
    have permanent : lease.since = 0 := live.resolve_right (Nat.lt_irrefl _)
    rw [held, ← value, ← permanent]
  · intro held ops spares now
    have kept : (ops.foldl RoutingTable.operate rt).leases nid =
        some ⟨ip, 0⟩ := by
      refine List.foldlRecOn
        (motive := fun rt : RoutingTable => rt.leases nid = some ⟨ip, 0⟩)
        ops RoutingTable.operate held ?_
      intro rt kept op member
      exact RoutingTable.operate_permanent kept rfl (spares op member)
    exact RoutingTable.reply_found_iff.mpr ⟨nonzero, _, kept, .inl rfl, rfl⟩

/-- A new static entry is permanent exactly if it takes no learned entry's
place. -/
theorem static_permanent_iff (cm : ConnMapper) (rt : RoutingTable) (nid : NID)
    (ip : NID32) (nonzero : ip ≠ NID32.zero) :
    (StaysBound (staticCMEntry nid ip cm) nid ip ↔
      ∀ lease, cm.leases nid = some lease → lease.Permanent) ∧
    (StaysRouted (staticRTEntry nid ip rt) nid ip ↔
      ∀ lease, rt.leases nid = some lease → lease.Permanent) := by
  constructor
  · rw [staysBound_iff, leases_staticCMEntry, LeaseTable.install_self]
    exact LeaseTable.installed_permanent_iff
  · rw [staysRouted_iff nonzero, leases_staticRTEntry, LeaseTable.install_self]
    exact LeaseTable.installed_permanent_iff

/-- Static entries of the connection map stay, whatever happened before. -/
def StaticCMEntriesStay : Prop :=
  ∀ (config : Configuration) (ops : List MapOp) (nid : NID) (ip : NID32),
    ip ≠ NID32.zero →
      StaysBound (staticCMEntry nid ip (CMSystem.after config ops).cm) nid ip

def StaticRTEntriesStay : Prop :=
  ∀ (config : Configuration) (ops : List RTOp) (nid : NID) (ip : NID32),
    ip ≠ NID32.zero →
      StaysRouted (staticRTEntry nid ip (RoutingTable.after config ops)) nid ip

section Example

private def staticConfig : Configuration := .sample .gateway (NID.ofNat 1)

/-- An entry learned at 100 and made static is forgotten at 110. -/
theorem not_staticEntriesStay :
    ¬ StaticCMEntriesStay ∧ ¬ StaticRTEntriesStay := by
  constructor
  · intro stay
    have bound := stay staticConfig
      [.call (.newCM (.ofSec 100) (NID.ofNat 9) (NID32.ofNat 90))]
      (NID.ofNat 9) (NID32.ofNat 91) (by decide) initRvsQueueTable [] (by simp)
    have forgotten := (bound (.ofSec 110) initRvsQueueTable).1
    revert forgotten
    decide +kernel
  · intro stay
    have routed := stay staticConfig
      [.call (.newRT (.ofSec 100) (NID.ofNat 9) (NID32.ofNat 90))]
      (NID.ofNat 9) (NID32.ofNat 91) (by decide) [] (by simp) (.ofSec 110)
    revert routed
    decide +kernel

/-- In new tables every static entry is permanent. -/
theorem static_permanent_new :
    StaysBound (staticCMEntry (NID.ofNat 9) (NID32.ofNat 91)
        (initConnMapper staticConfig)) (NID.ofNat 9) (NID32.ofNat 91) ∧
      StaysRouted (staticRTEntry (NID.ofNat 9) (NID32.ofNat 91)
        (initRtable staticConfig)) (NID.ofNat 9) (NID32.ofNat 91) := by
  have permanent := static_permanent_iff (initConnMapper staticConfig)
    (initRtable staticConfig) (NID.ofNat 9) (NID32.ofNat 91) (by decide)
  have noConnection : (initConnMapper staticConfig).leases (NID.ofNat 9) =
      none := congrFun (leases_empty 20 twenty_pos) _
  have noRoute : (initRtable staticConfig).leases (NID.ofNat 9) = none :=
    congrFun (leases_empty 30 thirty_pos) _
  constructor
  · apply permanent.1.mpr
    intro lease held
    cases noConnection.symm.trans held
  · apply permanent.2.mpr
    intro lease held
    cases noRoute.symm.trans held

end Example

/-- The map has the two static entries of the configuration, for good, and
nothing else. -/
structure IsReset (config : Configuration) (cm : ConnMapper) : Prop where
  entries : cm.connmap.nodes.Perm
    [(config.nidgw, ⟨config.gatewayIP, 0⟩), (config.nidrvs, ⟨config.rvsIP, 0⟩)]
  gateway : StaysBound cm config.nidgw config.gatewayIP
  rvs : StaysBound cm config.nidrvs config.rvsIP

/-- Some NID other than the two of the old configuration has an entry which is
too old to be listed. -/
def HasExpired (now : Timeval) (cm : ConnMapper) : Prop :=
  ∃ nid lease, cm.leases nid = some lease ∧
    ¬ lease.Live rvsUpdateTimeout now.tvSec ∧
    nid ≠ cm.cmNidgw ∧ nid ≠ cm.cmNidrvs

theorem leftOver_eq_empty_iff {now : Timeval} {cm : ConnMapper} :
    (cm.leftOver now = fun _ => none) ↔ ¬ HasExpired now cm := by
  constructor
  · rintro empty ⟨nid, lease, held, dead, notGateway, notRvs⟩
    have left := congrFun empty nid
    rw [ConnMapper.leftOver, if_neg fun old => old.elim notGateway notRvs, held]
      at left
    simp [Option.filter, dead] at left
  · intro nothing
    funext nid
    cases left : cm.leftOver now nid with
    | none => rfl
    | some lease =>
        have old : ¬ (nid = cm.cmNidgw ∨ nid = cm.cmNidrvs) := by
          intro same
          rw [ConnMapper.leftOver, if_pos same] at left
          cases left
        obtain ⟨notGateway, notRvs⟩ := not_or.mp old
        obtain ⟨held, dead⟩ := ConnMapper.dead_of_leftOver left
        exact (nothing ⟨nid, lease, held, dead, notGateway, notRvs⟩).elim

theorem lookup_eq_some_iff {cm : ConnMapper} {nid : NID} {ce : ConnEntry} :
    cm.connmap.find nid = some ce ↔ cm.leases nid = some ce.lease := by
  rw [ConnMapper.leases, leases, Option.map_eq_some_iff]
  constructor
  · intro found
    exact ⟨ce, found, rfl⟩
  · rintro ⟨other, found, same⟩
    obtain ⟨ip, tstamp⟩ := other
    obtain ⟨rfl, rfl⟩ := Lease.mk.inj same
    exact found

theorem nodes_perm_iff {cm : ConnMapper} {entries : List (NID × ConnEntry)}
    (nodup : entries.Nodup) :
    cm.connmap.nodes.Perm entries ↔
      ∀ nid ce, cm.leases nid = some (ConnEntry.lease ce) ↔
        (nid, ce) ∈ entries := by
  have nodupNodes : cm.connmap.nodes.Nodup :=
    (ChainedTable.nodup_nodes cm.connmap).of_map
  rw [List.perm_ext_iff_of_nodup nodupNodes nodup]
  constructor
  · intro same nid ce
    rw [← same, ChainedTable.mem_nodes_iff, lookup_eq_some_iff]
  · rintro same ⟨nid, ce⟩
    rw [← same, ChainedTable.mem_nodes_iff, lookup_eq_some_iff]

/-- The leases of a map with the two static entries of a configuration. -/
def staticLeases (config : Configuration) : LeaseTable NID NID32 := fun nid =>
  if nid = config.nidgw then some ⟨config.gatewayIP, 0⟩
  else if nid = config.nidrvs then some ⟨config.rvsIP, 0⟩
  else none

theorem staticLeases_eq_some_iff {config : Configuration}
    (distinct : config.nidgw ≠ config.nidrvs) {nid : NID} {ce : ConnEntry} :
    staticLeases config nid = some ce.lease ↔
      (nid, ce) ∈ [(config.nidgw, (⟨config.gatewayIP, 0⟩ : ConnEntry)),
        (config.nidrvs, ⟨config.rvsIP, 0⟩)] := by
  obtain ⟨ip, tstamp⟩ := ce
  simp only [staticLeases, ConnEntry.lease, List.mem_cons, List.not_mem_nil,
    or_false, Prod.mk.injEq, ConnEntry.mk.injEq]
  by_cases gateway : nid = config.nidgw
  · subst gateway
    simp [distinct, eq_comm]
  · by_cases rvs : nid = config.nidrvs
    · subst rvs
      simp [gateway, eq_comm]
    · simp [gateway, rvs]

theorem isReset_iff {config : Configuration}
    (distinct : config.nidgw ≠ config.nidrvs) {cm : ConnMapper} :
    IsReset config cm ↔ cm.leases = staticLeases config := by
  have nodup : [(config.nidgw, (⟨config.gatewayIP, 0⟩ : ConnEntry)),
      (config.nidrvs, ⟨config.rvsIP, 0⟩)].Nodup := by simp [distinct]
  have gateway : staticLeases config config.nidgw =
      some ⟨config.gatewayIP, 0⟩ := if_pos rfl
  have rvs : staticLeases config config.nidrvs = some ⟨config.rvsIP, 0⟩ := by
    rw [staticLeases, if_neg (Ne.symm distinct), if_pos rfl]
  constructor
  · intro reset
    funext nid
    apply Option.ext
    intro lease
    let ce : ConnEntry := ⟨lease.value, lease.since⟩
    have stored := (nodes_perm_iff nodup).mp reset.entries nid ce
    exact stored.trans (staticLeases_eq_some_iff distinct).symm
  · intro leases
    refine ⟨?_, ?_, ?_⟩
    · apply (nodes_perm_iff nodup).mpr
      intro nid ce
      rw [leases, staticLeases_eq_some_iff distinct]
    · rw [staysBound_iff, leases, gateway]
    · rw [staysBound_iff, leases, rvs]

/-- What is left over was learned, so it does not become static. -/
theorem installed_leftOver_iff {now : Timeval} {cm : ConnMapper} {nid : NID}
    {ip : NID32} :
    LeaseTable.installed ip (cm.leftOver now nid) = some ⟨ip, 0⟩ ↔
      cm.leftOver now nid = none := by
  rw [LeaseTable.installed_permanent_iff]
  constructor
  · intro permanent
    cases left : cm.leftOver now nid with
    | none => rfl
    | some lease =>
        have dead := (ConnMapper.dead_of_leftOver left).2
        exact (dead (.inl (permanent lease left))).elim
  · intro nothing lease left
    cases nothing.symm.trans left

/-- A new configuration leaves exactly its two static entries if and only if
no other entry has expired: expired ones are neither listed nor deleted. -/
theorem updateCMconf_resets_iff (config : Configuration) (now : Timeval)
    (cm : ConnMapper) (distinct : config.nidgw ≠ config.nidrvs) :
    IsReset config (updateCMconf config now cm) ↔ ¬ HasExpired now cm := by
  rw [isReset_iff distinct, ← leftOver_eq_empty_iff, leases_updateCMconf,
    funext_iff, funext_iff]
  apply forall_congr'
  intro nid
  by_cases rvs : nid = config.nidrvs
  · subst rvs
    rw [LeaseTable.install_self, LeaseTable.install_of_ne _ (Ne.symm distinct),
      staticLeases, if_neg (Ne.symm distinct), if_pos rfl]
    exact installed_leftOver_iff
  · rw [LeaseTable.install_of_ne _ rvs]
    by_cases gateway : nid = config.nidgw
    · subst gateway
      rw [LeaseTable.install_self, staticLeases, if_pos rfl]
      exact installed_leftOver_iff
    · rw [LeaseTable.install_of_ne _ gateway, staticLeases, if_neg gateway,
        if_neg rvs]

/-- Every reachable map is reset by a new configuration. -/
def UpdateCMconfResets : Prop :=
  ∀ (first config : Configuration) (ops : List MapOp) (now : Timeval),
    config.nidgw ≠ config.nidrvs →
      IsReset config (updateCMconf config now (CMSystem.after first ops).cm)

section Example

/-- The entry of the new gateway was learned long ago; it is not static after
the update, and gone when it is looked up. -/
theorem not_updateCMconfResets : ¬ UpdateCMconfResets := by
  intro resets
  have reset := resets staticConfig { staticConfig with nidgw := NID.ofNat 9 }
    [.static staticConfig.nidrvs staticConfig.rvsIP,
      .static staticConfig.nidgw staticConfig.gatewayIP,
      .call (.newCM (.ofSec 100) (NID.ofNat 9) (NID32.ofNat 90))] (.ofSec 105)
    (by decide)
  have bound := (reset.gateway initRvsQueueTable [] (by simp)) (.ofSec 105)
    initRvsQueueTable
  have forgotten := bound.1
  revert forgotten
  decide +kernel

/-- A map with only the static entries of the old configuration is reset. -/
theorem updateCMconf_resets_moved :
    IsReset { staticConfig with nidgw := NID.ofNat 9 }
      (updateCMconf { staticConfig with nidgw := NID.ofNat 9 } (.ofSec 105)
        (nodeConnMapper staticConfig)) := by
  apply (updateCMconf_resets_iff _ _ _ (by decide)).mpr
  rintro ⟨nid, lease, held, dead, notGateway, notRvs⟩
  have empty : (initConnMapper staticConfig).leases nid = none :=
    congrFun (leases_empty 20 twenty_pos) nid
  change nid ≠ staticConfig.nidgw at notGateway
  change nid ≠ staticConfig.nidrvs at notRvs
  rw [nodeConnMapper, leases_staticCMEntry, leases_staticCMEntry,
    LeaseTable.install_of_ne _ notGateway, LeaseTable.install_of_ne _ notRvs,
    empty] at held
  cases held

end Example

end NodeIdentity
