import NodeIdentity.RoutingTable

/-!
# Gateway threads

The threads of `gwc.c` which spread a registration.  They read and write full
messages.
-/

namespace NodeIdentity

/-- The routing table, and the message for `sp_gwl2gwt`. -/
def threadGwListener (now : Timeval) (nmsg : NidMsg) (rt : RoutingTable) :
    RoutingTable × NidMsg :=
  (newRTEntry nmsg.nid nmsg.ip now rt, nmsg)

structure CoreListenerTurn where
  rt : RoutingTable
  registry : HashTable ConnEntry
  gwt2ph : Option NidMsg

def threadGwCoreListener (config : Configuration) (now : Timeval)
    (nmsg : NidMsg) (rt : RoutingTable) (registry_table : HashTable ConnEntry) :
    CoreListenerTurn :=
  let rt := newRTEntry nmsg.nid nmsg.ip now rt
  if nmsg.srcNIDgw = config.nid then
    ⟨rt, addRegistry nmsg.nid NID32.zero registry_table, none⟩
  else
    ⟨rt, registry_table,
      some
        { type := .redirectCore
          srcNID := config.nid
          destNID := nmsg.srcNIDgw
          srcNIDgw := config.nid
          destNIDgw := nmsg.srcNIDgw
          nid := nmsg.nid
          ip := config.locator }⟩

/-- The message for `sp_gwt2ph`, the same from both channels it reads. -/
def threadGwTalker (config : Configuration) (nmsg : NidMsg) : NidMsg :=
  { nmsg with
    type := .registry
    destNID := config.nidgw
    ip := config.locator }

end NodeIdentity
