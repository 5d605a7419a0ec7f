import NodeIdentity.ConnectionTable
import NodeIdentity.Configuration

/-!
# Routing table and registry

The table functions of `nid_routing.c` and the registry table of `gwc.c`.
Both tables are filled like the connection map.  A routing lookup deletes an
expired entry and falls back to the locator of the next gateway; a registry
entry never expires.
-/

namespace NodeIdentity

open NodeIdentity.Library

structure RoutingTable where
  rtable : HashTable ConnEntry
  nidgw : NID
  gatewayIP : NID32

def initRtable (config : Configuration) : RoutingTable :=
  { rtable := constructHashTable 30 thirty_pos
    nidgw := config.nidgw
    gatewayIP := config.gatewayIP }

def newRTEntry (nid : NID) (ip : NID32) (now : Timeval) (rt : RoutingTable) :
    RoutingTable :=
  { rt with rtable := newConnEntry nid ip now rt.rtable }

def staticRTEntry (nid : NID) (ip : NID32) (rt : RoutingTable) : RoutingTable :=
  { rt with rtable := staticConnEntry nid ip rt.rtable }

/-- The result of `getRTEntry`: its return value, the locator it stores
through `dst`, and the table. -/
structure RTAnswer where
  found : Bool
  dst : NID32
  rt : RoutingTable

def getRTEntry (nid : NID) (now : Timeval) (rt : RoutingTable) : RTAnswer :=
  match hashLookup nid rt.rtable with
  | some ce =>
      if ce.tstamp + gatewayTimeout > now.tvSec ∨ ce.tstamp = 0 then
        if ce.ip ≠ NID32.zero then ⟨true, ce.ip, rt⟩
        else ⟨false, rt.gatewayIP, rt⟩
      else ⟨false, rt.gatewayIP, { rt with rtable := (hashDel nid rt.rtable).2 }⟩
  | none => ⟨false, rt.gatewayIP, rt⟩

def updateRT (config : Configuration) (rt : RoutingTable) : RoutingTable :=
  { rtable := (hashDel rt.nidgw rt.rtable).2
    nidgw := config.nidgw
    gatewayIP := config.gatewayIP }

namespace RoutingTable

def leases (rt : RoutingTable) : LeaseTable NID NID32 :=
  NodeIdentity.leases rt.rtable

end RoutingTable

@[simp] theorem leases_newRTEntry (nid : NID) (ip : NID32) (now : Timeval)
    (rt : RoutingTable) :
    (newRTEntry nid ip now rt).leases = rt.leases.refresh nid ip now.tvSec :=
  leases_newConnEntry nid ip now rt.rtable

theorem leases_of_rtable_some {nid : NID} {rt : RoutingTable} {ce : ConnEntry}
    (known : hashLookup nid rt.rtable = some ce) :
    rt.leases nid = some ce.lease :=
  leases_of_find known

theorem getRTEntry_serves {nid : NID} {now : Timeval} {rt : RoutingTable}
    {ip : NID32} (nonzero : ip ≠ NID32.zero)
    (served : rt.leases.Serves gatewayTimeout now.tvSec nid ip) :
    getRTEntry nid now rt = ⟨true, ip, rt⟩ := by
  obtain ⟨lease, held, live, rfl⟩ := served
  obtain ⟨ce, known, rfl⟩ := Option.map_eq_some_iff.mp held
  have lookup : hashLookup nid rt.rtable = some ce := known
  have current : ce.tstamp + gatewayTimeout > now.tvSec ∨ ce.tstamp = 0 :=
    Or.symm live
  have locator : ce.ip ≠ NID32.zero := nonzero
  simp only [getRTEntry, lookup, if_pos current, if_pos locator]
  rfl

theorem getRTEntry_found_iff {nid : NID} {now : Timeval} {rt : RoutingTable} :
    (getRTEntry nid now rt).found = true ↔
      ∃ ip, ip ≠ NID32.zero ∧
        rt.leases.Serves gatewayTimeout now.tvSec nid ip := by
  constructor
  · intro found
    unfold getRTEntry at found
    cases lookup : hashLookup nid rt.rtable with
    | none => simp [lookup] at found
    | some ce =>
        simp only [lookup] at found
        split at found
        · next current =>
            split at found
            · next nonzero =>
                exact ⟨ce.ip, nonzero, ce.lease, leases_of_rtable_some lookup,
                  Or.symm current, rfl⟩
            · simp at found
        · simp at found
  · rintro ⟨ip, nonzero, served⟩
    rw [getRTEntry_serves nonzero served]

/-- A lookup removes the entry of its NID, if that entry has expired, and
changes nothing else. -/
theorem getRTEntry_leases (nid : NID) (now : Timeval) (rt : RoutingTable) :
    (getRTEntry nid now rt).rt.leases = rt.leases ∨
      ((∃ lease, rt.leases nid = some lease ∧
          ¬ lease.Live gatewayTimeout now.tvSec) ∧
        (getRTEntry nid now rt).rt.leases = rt.leases.drop nid) := by
  unfold getRTEntry
  cases lookup : hashLookup nid rt.rtable with
  | none => exact .inl rfl
  | some ce =>
      by_cases current : ce.tstamp + gatewayTimeout > now.tvSec ∨ ce.tstamp = 0
      · left
        simp only [if_pos current]
        split <;> rfl
      · right
        simp only [if_neg current]
        refine ⟨⟨ce.lease, leases_of_rtable_some lookup, ?_⟩,
          leases_erase rt.rtable nid⟩
        intro live
        exact current (Or.symm live)

theorem getRTEntry_lease (nid other : NID) (now : Timeval) (rt : RoutingTable) :
    (getRTEntry nid now rt).rt.leases other = rt.leases other ∨
      ((getRTEntry nid now rt).rt.leases other = none ∧
        ∀ lease, rt.leases other = some lease →
          ¬ lease.Live gatewayTimeout now.tvSec) := by
  rcases getRTEntry_leases nid now rt with kept | lapsed
  · exact .inl (congrFun kept other)
  · obtain ⟨⟨lease, held, dead⟩, dropped⟩ := lapsed
    rw [dropped]
    by_cases own : other = nid
    · subst own
      right
      refine ⟨LeaseTable.drop_self _ _, ?_⟩
      intro current heldNow live
      cases held.symm.trans heldNow
      exact dead live
    · exact .inl (LeaseTable.drop_of_ne _ own)

def initRegistryTable : HashTable ConnEntry := constructHashTable 30 thirty_pos

/-- A new entry comes from `calloc` and is never stamped. -/
def addRegistry (nid : NID) (ip : NID32) (registry_table : HashTable ConnEntry) :
    HashTable ConnEntry :=
  staticConnEntry nid ip registry_table

/-- The return value and the locator stored through `dst`. -/
def getRegistry (nid : NID) (registry_table : HashTable ConnEntry) :
    Bool × NID32 :=
  match hashLookup nid registry_table with
  | some ce => if ce.ip ≠ NID32.zero then (true, ce.ip) else (false, NID32.zero)
  | none => (false, NID32.zero)

theorem getRegistry_found_iff {nid : NID} {registry_table : HashTable ConnEntry} :
    (getRegistry nid registry_table).1 = true ↔
      (getRegistry nid registry_table).2 ≠ NID32.zero := by
  unfold getRegistry
  cases hashLookup nid registry_table with
  | none => simp
  | some ce => by_cases zero : ce.ip = NID32.zero <;> simp [zero]

theorem getRegistry_snd (nid : NID) (registry_table : HashTable ConnEntry) :
    (getRegistry nid registry_table).2 =
      ((leases registry_table nid).map Lease.value).getD NID32.zero := by
  unfold getRegistry
  rw [leases, ← hashLookup]
  cases hashLookup nid registry_table with
  | none => rfl
  | some ce =>
      by_cases zero : ce.ip = NID32.zero
      · simp [zero, ConnEntry.lease]
      · simp [zero, ConnEntry.lease]

theorem getRegistry_addRegistry_self (nid : NID) (ip : NID32)
    (registry_table : HashTable ConnEntry) :
    (getRegistry nid (addRegistry nid ip registry_table)).2 = ip := by
  rw [getRegistry_snd, addRegistry, leases_staticConnEntry, LeaseTable.install,
    Function.update_self]
  cases leases registry_table nid with
  | none => rfl
  | some lease => rfl

theorem getRegistry_addRegistry_of_ne {nid other : NID}
    (different : other ≠ nid) (ip : NID32)
    (registry_table : HashTable ConnEntry) :
    (getRegistry other (addRegistry nid ip registry_table)).2 =
      (getRegistry other registry_table).2 := by
  rw [getRegistry_snd, getRegistry_snd, addRegistry, leases_staticConnEntry,
    LeaseTable.install_of_ne _ different]

theorem getRegistry_initRegistryTable (nid : NID) :
    (getRegistry nid initRegistryTable).2 = NID32.zero := by
  rw [getRegistry_snd, initRegistryTable, leases_empty]
  rfl

end NodeIdentity
