import NodeIdentity.Configuration

/-!
# Rendezvous clients and proxies

The threads of `rvsc.c`.  The proxies copy every field between `NID_msg` and
`RVS_msg`; the one which receives exchanges source and destination on the way.
Every message they read is a full record.
-/

namespace NodeIdentity

def threadRvsProxySend (nmsg : NidMsg) : RvsMsg :=
  { type := nmsg.type
    srcNID := nmsg.srcNID
    destNID := nmsg.destNID
    srcNIDgw := nmsg.srcNIDgw
    destNIDgw := nmsg.destNIDgw
    nid := nmsg.nid
    ip := nmsg.ip }

/-- What `thread_rvs_proxy_recv` writes: to `sp_rvs2ph` always, to
`sp_rvs2gwt` only acknowledgements. -/
structure RvsProxyTurn where
  rvs2ph : NidMsg
  rvs2gwt : Option NidMsg
  deriving DecidableEq

def threadRvsProxyRecv (rvs_msg : RvsMsg) : RvsProxyTurn :=
  let nmsg : NidMsg :=
    { type := rvs_msg.type
      srcNID := rvs_msg.destNID
      destNID := rvs_msg.srcNID
      srcNIDgw := rvs_msg.srcNIDgw
      destNIDgw := rvs_msg.destNIDgw
      nid := rvs_msg.nid
      ip := rvs_msg.ip }
  ⟨nmsg, if nmsg.type = .rvsAck then some nmsg else none⟩

/-- The message `thread_rvs_update` writes to `sp_rvs2ph` every five seconds. -/
def threadRvsUpdate (config : Configuration) : NidMsg :=
  { type := .rvsUpdate
    srcNID := config.nid
    destNID := config.nidrvs
    srcNIDgw := config.nidcorehome
    destNIDgw := NID.zero
    nid := config.nid
    ip := config.locator }

/-- What `thread_rvs_get` writes to `sp_rvs2ph` for a NID it reads. -/
def threadRvsGet (config : Configuration) (request : NID) : NidMsg :=
  { type := .rvsGet
    srcNID := config.nid
    destNID := config.nidrvs
    srcNIDgw := NID.zero
    destNIDgw := NID.zero
    nid := request
    ip := NID32.zero }

/-- What `thread_rvs2gw` writes to `sp_gwt2ph` for an acknowledgement. -/
def threadRvs2gw (config : Configuration) (nmsg : NidMsg) : NidMsg :=
  { nmsg with type := .registry, destNID := config.nidgw }

end NodeIdentity
