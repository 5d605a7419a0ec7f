import NodeIdentity.ConnectionMapper

/-!
# Mobility thread

`mobility.c`.  The thread counts the addresses the kernel announces, and
every second one is a handover: the live peers learn the new locator when the
node stays in its domain, the connection map starts again, and the rendezvous
server gets an update.
-/

namespace NodeIdentity

open NodeIdentity.Library

/-- `enum mobility_types`. -/
inductive MobilityType where
  | intradomain
  | interdomain
  deriving DecidableEq

/-- The message `rvs_update` writes to `sp_rvs2ph`. -/
def rvsUpdate (config : Configuration) : NidMsg :=
  { type := .rvsUpdate
    srcNID := config.nid
    destNID := config.nidrvs
    srcNIDgw := NID.zero
    destNIDgw := NID.zero
    nid := config.nid
    ip := config.locator }

/-- What one peer of the list is told. -/
def redirectMsg (config : Configuration) (peer : NID) : NidMsg :=
  { type := .redirect
    srcNID := config.nid
    destNID := peer
    srcNIDgw := NID.zero
    destNIDgw := NID.zero
    nid := config.nid
    ip := config.locator }

/-- What an event of the kernel leaves and what it makes the thread write. -/
structure MobilityTurn where
  count : Nat
  cm : ConnMapper
  mo2ph : List NidMsg
  rvs2ph : Option NidMsg

/-- `newaddr` is the result of `read_event`.  The peers are listed at `now`,
and the map is cleaned `later`, after the writes. -/
def threadMobility (config : Configuration) (mobility : MobilityType)
    (now later : Timeval) (newaddr : Bool) (count : Nat) (cm : ConnMapper) :
    MobilityTurn :=
  if newaddr then
    let count := count + 1
    if count ≥ 2 then
      let ll := getAllConnections now cm
      { count := 0
        cm := updateCMconf config later cm
        mo2ph :=
          match mobility with
          | .intradomain => ll.map fun node => redirectMsg config node.1
          | .interdomain => []
        rvs2ph := some (rvsUpdate config) }
    else ⟨count, cm, [], none⟩
  else ⟨count, cm, [], none⟩

theorem nodup_getAllConnections (now : Timeval) (cm : ConnMapper) :
    ((getAllConnections now cm).map Prod.fst).Nodup := by
  rw [getAllConnections, hashEnumerate, List.nil_append, List.map_map]
  apply List.Nodup.sublist (List.filter_sublist.map _)
  exact ChainedTable.nodup_nodes cm.connmap

end NodeIdentity
