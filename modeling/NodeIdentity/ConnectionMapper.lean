import NodeIdentity.ConnectionTable
import NodeIdentity.Configuration

/-!
# Connection mapper

`rvs_queue_table.c` and `connection_mapper.c`.  `getCMEntry` serves a static
or recent entry, asks for a refresh shortly before an entry runs out, and
otherwise plants an entry with the default gateway.  Its two `write` calls on
`sp_cm2rvs` are the field `request` of the result: at most one of them happens
in a call, and it is the last thing the call does.
-/

namespace NodeIdentity

open NodeIdentity.Library

abbrev QueueTable := HashTable QueueEntry

def queue (nid : NID) (now : Timeval) (queue_table : QueueTable) : QueueTable :=
  lockNID nid now queue_table

def unqueue (nid : NID) (queue_table : QueueTable) : QueueTable :=
  unlockNID nid queue_table

def isQueued (nid : NID) (now : Timeval) (queue_table : QueueTable) :
    Bool × QueueTable :=
  isLocked nid now queue_table

def initRvsQueueTable : QueueTable := constructHashTable 10 ten_pos

structure ConnMapper where
  connmap : HashTable ConnEntry
  cmNidgw : NID
  cmNidrvs : NID
  cmGatewayIP : NID32
  cmRvsIP : NID32

def initConnMapper (config : Configuration) : ConnMapper :=
  { connmap := constructHashTable 20 twenty_pos
    cmNidgw := config.nidgw
    cmNidrvs := config.nidrvs
    cmGatewayIP := config.gatewayIP
    cmRvsIP := config.rvsIP }

def newCMEntry (nid : NID) (ip : NID32) (now : Timeval) (cm : ConnMapper) :
    ConnMapper :=
  { cm with connmap := newConnEntry nid ip now cm.connmap }

def staticCMEntry (nid : NID) (ip : NID32) (cm : ConnMapper) : ConnMapper :=
  { cm with connmap := staticConnEntry nid ip cm.connmap }

def delCMEntry (nid : NID) (cm : ConnMapper) : ConnMapper :=
  { cm with connmap := (hashDel nid cm.connmap).2 }

def getAllConnections (now : Timeval) (cm : ConnMapper) : List (NID × NID32) :=
  hashEnumerate now cm.connmap []

/-- What a call of `getCMEntry` returns, stores and writes. -/
structure CMAnswer where
  found : Bool
  dst : NID32
  cm : ConnMapper
  queueTable : QueueTable
  request : Option NID

/-- The end of `getCMEntry`, reached with no entry for the NID left. -/
def plantCMEntry (nid : NID) (now : Timeval) (cm : ConnMapper)
    (queueTable : QueueTable) : CMAnswer :=
  { found := false
    dst := cm.cmGatewayIP
    cm := newCMEntry nid cm.cmGatewayIP now cm
    queueTable := queueTable
    request := some nid }

def getCMEntry (nid : NID) (now : Timeval) (cm : ConnMapper)
    (queueTable : QueueTable) : CMAnswer :=
  match hashLookup nid cm.connmap with
  | some ce =>
      if ce.tstamp = 0 ∨ ce.tstamp + rvsProactive > now.tvSec then
        ⟨true, ce.ip, cm, queueTable, none⟩
      else if ce.tstamp + rvsUpdateTimeout > now.tvSec then
        let (queued, queueTable) := isQueued nid now queueTable
        if queued then ⟨true, ce.ip, cm, queueTable, none⟩
        else ⟨true, ce.ip, cm, queue nid now queueTable, some nid⟩
      else plantCMEntry nid now (delCMEntry nid cm) queueTable
  | none => plantCMEntry nid now cm queueTable

/-- Enumerates the map twice into one list and deletes every listed NID. -/
def cleanCM (now : Timeval) (cm : ConnMapper) : ConnMapper :=
  let ll := hashEnumerate now cm.connmap (getAllConnections now cm)
  { cm with
    connmap := ll.foldl (fun table node => (hashDel node.1 table).2) cm.connmap }

def updateCMconf (config : Configuration) (now : Timeval) (cm : ConnMapper) :
    ConnMapper :=
  let cm := delCMEntry cm.cmNidrvs (delCMEntry cm.cmNidgw cm)
  let cm :=
    { cleanCM now cm with
      cmNidgw := config.nidgw
      cmNidrvs := config.nidrvs
      cmGatewayIP := config.gatewayIP
      cmRvsIP := config.rvsIP }
  staticCMEntry cm.cmNidrvs cm.cmRvsIP (staticCMEntry cm.cmNidgw cm.cmGatewayIP cm)

namespace ConnMapper

def leases (cm : ConnMapper) : LeaseTable NID NID32 :=
  NodeIdentity.leases cm.connmap

/-- The connection map has an entry for the NID which still serves. -/
def LiveEntry (cm : ConnMapper) (now : Timeval) (nid : NID)
    (lease : Lease NID32) : Prop :=
  cm.leases nid = some lease ∧ lease.Live rvsUpdateTimeout now.tvSec

end ConnMapper

@[simp] theorem leases_newCMEntry (nid : NID) (ip : NID32) (now : Timeval)
    (cm : ConnMapper) :
    (newCMEntry nid ip now cm).leases = cm.leases.refresh nid ip now.tvSec :=
  leases_newConnEntry nid ip now cm.connmap

@[simp] theorem leases_staticCMEntry (nid : NID) (ip : NID32)
    (cm : ConnMapper) :
    (staticCMEntry nid ip cm).leases = cm.leases.install nid ip :=
  leases_staticConnEntry nid ip cm.connmap

@[simp] theorem leases_delCMEntry (nid : NID) (cm : ConnMapper) :
    (delCMEntry nid cm).leases = cm.leases.drop nid :=
  leases_erase cm.connmap nid

theorem leases_of_lookup_some {nid : NID} {cm : ConnMapper} {ce : ConnEntry}
    (known : hashLookup nid cm.connmap = some ce) :
    cm.leases nid = some ce.lease :=
  leases_of_find known

theorem leases_of_lookup_none {nid : NID} {cm : ConnMapper}
    (unknown : hashLookup nid cm.connmap = none) : cm.leases nid = none :=
  leases_of_find unknown

theorem mem_getAllConnections {now : Timeval} {cm : ConnMapper} {nid : NID} :
    nid ∈ (getAllConnections now cm).map Prod.fst ↔
      ∃ lease, cm.LiveEntry now nid lease := by
  simp only [getAllConnections, hashEnumerate, List.nil_append, List.map_map,
    List.mem_map, List.mem_filter, decide_eq_true_iff]
  constructor
  · rintro ⟨node, ⟨stored, recent⟩, rfl⟩
    have found := (ChainedTable.mem_nodes_iff cm.connmap).mp stored
    exact ⟨node.2.lease, leases_of_lookup_some found, recent.symm⟩
  · rintro ⟨lease, held, live⟩
    obtain ⟨ce, found, rfl⟩ := Option.map_eq_some_iff.mp held
    have stored := (ChainedTable.mem_nodes_iff cm.connmap).mpr found
    exact ⟨(nid, ce), ⟨stored, live.symm⟩, rfl⟩

theorem leases_cleanCM (now : Timeval) (cm : ConnMapper) (nid : NID) :
    (cleanCM now cm).leases nid =
      (cm.leases nid).filter fun lease =>
        ¬ lease.Live rvsUpdateTimeout now.tvSec := by
  have listed : nid ∈ (hashEnumerate now cm.connmap
      (getAllConnections now cm)).map Prod.fst ↔
        ∃ lease, cm.LiveEntry now nid lease := by
    rw [← mem_getAllConnections, getAllConnections, hashEnumerate,
      hashEnumerate, List.nil_append, List.map_append, List.mem_append, or_self]
  simp only [cleanCM, hashDel, ConnMapper.leases, NodeIdentity.leases,
    ChainedTable.find_foldl_erase]
  change Option.map _ _ = Option.filter _ (cm.leases nid)
  by_cases live : ∃ lease, cm.LiveEntry now nid lease
  · obtain ⟨lease, held, serving⟩ := live
    rw [if_pos (listed.mpr ⟨lease, held, serving⟩), held]
    simp [Option.filter, serving]
  · rw [if_neg fun member => live (listed.mp member)]
    change cm.leases nid = _
    cases held : cm.leases nid with
    | none => rfl
    | some lease =>
        have dead : ¬ lease.Live rvsUpdateTimeout now.tvSec :=
          fun serving => live ⟨lease, held, serving⟩
        simp [Option.filter, dead]

/-- What a reconfiguration finds before it installs the new entries: the old
ones are deleted and the live ones cleaned away. -/
def ConnMapper.leftOver (cm : ConnMapper) (now : Timeval) :
    LeaseTable NID NID32 := fun nid =>
  if nid = cm.cmNidgw ∨ nid = cm.cmNidrvs then none
  else (cm.leases nid).filter fun lease =>
    ¬ lease.Live rvsUpdateTimeout now.tvSec

theorem leases_updateCMconf (config : Configuration) (now : Timeval)
    (cm : ConnMapper) :
    (updateCMconf config now cm).leases =
      ((cm.leftOver now).install config.nidgw config.gatewayIP).install
        config.nidrvs config.rvsIP := by
  have cleaned : (cleanCM now
      (delCMEntry cm.cmNidrvs (delCMEntry cm.cmNidgw cm))).leases =
        cm.leftOver now := by
    funext nid
    rw [leases_cleanCM, leases_delCMEntry, leases_delCMEntry,
      ConnMapper.leftOver]
    by_cases rvs : nid = cm.cmNidrvs
    · rw [rvs, LeaseTable.drop_self, if_pos (.inr rfl), Option.filter_none]
    · rw [LeaseTable.drop_of_ne _ rvs]
      by_cases gateway : nid = cm.cmNidgw
      · rw [gateway, LeaseTable.drop_self, if_pos (.inl rfl),
          Option.filter_none]
      · rw [LeaseTable.drop_of_ne _ gateway,
          if_neg fun old => old.elim gateway rvs]
  rw [← cleaned, updateCMconf, leases_staticCMEntry, leases_staticCMEntry]
  rfl

theorem ConnMapper.dead_of_leftOver {cm : ConnMapper} {now : Timeval}
    {nid : NID} {lease : Lease NID32}
    (left : cm.leftOver now nid = some lease) :
    cm.leases nid = some lease ∧ ¬ lease.Live rvsUpdateTimeout now.tvSec := by
  rw [ConnMapper.leftOver] at left
  split at left
  · cases left
  · obtain ⟨held, dead⟩ := Option.filter_eq_some_iff.mp left
    exact ⟨held, of_decide_eq_true dead⟩

theorem updateCMconf_dead {config : Configuration} {now later : Timeval}
    {cm : ConnMapper} {nid : NID} (notGateway : nid ≠ config.nidgw)
    (notRvs : nid ≠ config.nidrvs) (order : now.tvSec ≤ later.tvSec)
    (lease : Lease NID32) :
    ¬ (updateCMconf config now cm).LiveEntry later nid lease := by
  intro entry
  obtain ⟨held, live⟩ := entry
  rw [leases_updateCMconf, LeaseTable.install_of_ne _ notRvs,
    LeaseTable.install_of_ne _ notGateway] at held
  exact (ConnMapper.dead_of_leftOver held).2 (live.earlier order)

theorem updateCMconf_cmGatewayIP (config : Configuration) (now : Timeval)
    (cm : ConnMapper) :
    (updateCMconf config now cm).cmGatewayIP = config.gatewayIP :=
  rfl

theorem getCMEntry_live {nid : NID} {now : Timeval} {cm : ConnMapper}
    (queueTable : QueueTable) {lease : Lease NID32}
    (live : cm.LiveEntry now nid lease) :
    (getCMEntry nid now cm queueTable).found = true ∧
      (getCMEntry nid now cm queueTable).dst = lease.value ∧
      (getCMEntry nid now cm queueTable).cm = cm := by
  obtain ⟨held, serving⟩ := live
  obtain ⟨ce, known, rfl⟩ := Option.map_eq_some_iff.mp held
  have lookup : hashLookup nid cm.connmap = some ce := known
  unfold getCMEntry
  rw [lookup]
  by_cases fresh : ce.tstamp = 0 ∨ ce.tstamp + rvsProactive > now.tvSec
  · simp [fresh, ConnEntry.lease]
  · have soon : ce.tstamp + rvsUpdateTimeout > now.tvSec := by
      rcases serving with static | before
      · exact (fresh (.inl static)).elim
      · exact before
    simp only [if_neg fresh, if_pos soon]
    split <;> simp [ConnEntry.lease]

/-- Without a live entry the call ends by planting the default gateway, in a
map which has no entry for the NID and the old ones for all others. -/
theorem getCMEntry_eq_plant {nid : NID} {now : Timeval} {cm : ConnMapper}
    (queueTable : QueueTable)
    (dead : ∀ lease, ¬ cm.LiveEntry now nid lease) :
    ∃ cleared, getCMEntry nid now cm queueTable =
        plantCMEntry nid now cleared queueTable ∧
      cleared.leases = cm.leases.drop nid ∧
      cleared.cmGatewayIP = cm.cmGatewayIP := by
  cases lookup : hashLookup nid cm.connmap with
  | none =>
      have absent := leases_of_lookup_none lookup
      refine ⟨cm, ?_, ?_, rfl⟩
      · simp [getCMEntry, lookup]
      · rw [LeaseTable.drop, ← absent, Function.update_eq_self]
  | some ce =>
      have lapsed : ¬ ce.lease.Live rvsUpdateTimeout now.tvSec :=
        fun live => dead _ ⟨leases_of_lookup_some lookup, live⟩
      have expired : ¬ ce.tstamp + rvsUpdateTimeout > now.tvSec :=
        fun before => lapsed (.inr before)
      have stale : ¬ (ce.tstamp = 0 ∨ ce.tstamp + rvsProactive > now.tvSec) := by
        intro fresh
        rcases fresh with static | before
        · exact lapsed (.inl static)
        · have later : rvsProactive < rvsUpdateTimeout := by decide
          omega
      refine ⟨delCMEntry nid cm, ?_, leases_delCMEntry nid cm, rfl⟩
      simp only [getCMEntry, lookup, if_neg stale, if_neg expired]

theorem getCMEntry_dead {nid : NID} {now : Timeval} {cm : ConnMapper}
    (queueTable : QueueTable)
    (dead : ∀ lease, ¬ cm.LiveEntry now nid lease) :
    (getCMEntry nid now cm queueTable).found = false ∧
      (getCMEntry nid now cm queueTable).dst = cm.cmGatewayIP ∧
      (getCMEntry nid now cm queueTable).request = some nid ∧
      (getCMEntry nid now cm queueTable).cm.leases =
        Function.update cm.leases nid (some ⟨cm.cmGatewayIP, now.tvSec⟩) := by
  obtain ⟨cleared, answer, dropped, sameGateway⟩ :=
    getCMEntry_eq_plant queueTable dead
  rw [answer]
  refine ⟨rfl, sameGateway, rfl, ?_⟩
  rw [plantCMEntry, leases_newCMEntry, sameGateway, LeaseTable.refresh, dropped,
    LeaseTable.drop_self, LeaseTable.drop, Function.update_idem]
  rfl

theorem getCMEntry_found_iff {nid : NID} {now : Timeval} {cm : ConnMapper}
    {queueTable : QueueTable} :
    (getCMEntry nid now cm queueTable).found = true ↔
      ∃ lease, cm.LiveEntry now nid lease := by
  constructor
  · intro found
    by_contra none
    rw [(getCMEntry_dead _ fun lease here => none ⟨lease, here⟩).1] at found
    cases found
  · rintro ⟨lease, here⟩
    exact (getCMEntry_live queueTable here).1

theorem getCMEntry_cmGatewayIP (nid : NID) (now : Timeval) (cm : ConnMapper)
    (queueTable : QueueTable) :
    (getCMEntry nid now cm queueTable).cm.cmGatewayIP = cm.cmGatewayIP := by
  by_cases live : ∃ lease, cm.LiveEntry now nid lease
  · obtain ⟨lease, here⟩ := live
    rw [(getCMEntry_live queueTable here).2.2]
  · obtain ⟨cleared, answer, _, sameGateway⟩ :=
      getCMEntry_eq_plant queueTable (fun lease here => live ⟨lease, here⟩)
    rw [answer]
    exact sameGateway

theorem getCMEntry_leases_of_ne {nid other : NID} (different : other ≠ nid)
    (now : Timeval) (cm : ConnMapper) (queueTable : QueueTable) :
    (getCMEntry nid now cm queueTable).cm.leases other = cm.leases other := by
  by_cases live : ∃ lease, cm.LiveEntry now nid lease
  · obtain ⟨lease, here⟩ := live
    rw [(getCMEntry_live queueTable here).2.2]
  · rw [(getCMEntry_dead _ (fun lease here => live ⟨lease, here⟩)).2.2.2,
      Function.update_of_ne different]

/-- A lookup queues its own NID only. -/
theorem getCMEntry_queueTable_of_ne {nid other : NID} (different : other ≠ nid)
    (now : Timeval) (cm : ConnMapper) (queueTable : QueueTable) :
    hashLookup other (getCMEntry nid now cm queueTable).queueTable =
      hashLookup other queueTable := by
  have asked : hashLookup other (isQueued nid now queueTable).2 =
      hashLookup other queueTable := isLocked_table_of_ne different now queueTable
  have queued : hashLookup other
      (queue nid now (isQueued nid now queueTable).2) =
        hashLookup other queueTable :=
    (ChainedTable.find_insert_of_ne _ different _).trans asked
  unfold getCMEntry
  cases hashLookup nid cm.connmap with
  | none => rfl
  | some ce =>
      simp only
      split
      · rfl
      · split
        · split
          · exact asked
          · exact queued
        · rfl

/-- The connection map has an entry which is younger than `term`. -/
def ConnMapper.serves (term : Nat) (nid : NID) (now : Timeval)
    (cm : ConnMapper) : Bool :=
  (cm.leases nid).any fun lease => lease.Live term now.tvSec

/-- A lookup asks for a resolution when no entry serves the NID, or when the
one which does is about to run out and nobody has asked for it yet. -/
def needsResolution (nid : NID) (now : Timeval) (cm : ConnMapper)
    (queueTable : QueueTable) : Bool :=
  !cm.serves rvsProactive nid now &&
    (!cm.serves rvsUpdateTimeout nid now || !(isQueued nid now queueTable).1)

theorem getCMEntry_request (nid : NID) (now : Timeval) (cm : ConnMapper)
    (queueTable : QueueTable) :
    (getCMEntry nid now cm queueTable).request =
      if needsResolution nid now cm queueTable then some nid else none := by
  unfold getCMEntry
  cases lookup : hashLookup nid cm.connmap with
  | none =>
      have absent := leases_of_lookup_none lookup
      simp [needsResolution, ConnMapper.serves, absent, plantCMEntry]
  | some ce =>
      have held := leases_of_lookup_some lookup
      have served : ∀ term, cm.serves term nid now =
          decide (ce.tstamp = 0 ∨ ce.tstamp + term > now.tvSec) := by
        intro term
        simp only [ConnMapper.serves, held, Option.any_some]
        rfl
      simp only [needsResolution, served]
      by_cases fresh : ce.tstamp = 0 ∨ ce.tstamp + rvsProactive > now.tvSec
      · simp [fresh]
      · obtain ⟨dated, stale⟩ := not_or.mp fresh
        by_cases soon : ce.tstamp + rvsUpdateTimeout > now.tvSec
        · simp [dated, stale, soon]
          cases (isQueued nid now queueTable).1 with
          | true => simp
          | false => simp
        · simp [dated, stale, soon, plantCMEntry]

end NodeIdentity
