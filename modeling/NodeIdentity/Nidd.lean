import NodeIdentity.NidRouting
import NodeIdentity.NidMapper

/-!
# Threads of the daemon

`main` of `nidd.c` starts a set of threads for each type of node.  Three of
them are output threads of NID routing, and every type has one.  All threads
share the socket pairs, but `sp_cm2rvs` is read in `thread_rvs_get` only.
-/

namespace NodeIdentity

open NodeIdentity.Library

/-- The functions `main` passes to `pthread_create`. -/
inductive Thread where
  | dhcp
  | nidfilter
  | phOutput
  | phInput
  | nrOutput
  | nrOutputGw
  | nrOutputCore
  | nrInput
  | nrInputGw
  | debugRt
  | rvsUpdate
  | rvsGet
  | rvsProxyRecv
  | rvsProxySend
  | rvs2gw
  | mobility
  | control
  | controlRvs
  | controlGw
  | controlGwCore
  | gwTalker
  | gwListener
  | gwCoreListener
  | dhtUpdate
  | dhtGet
  | dnshandler
  deriving DecidableEq

/-- What decides about optional threads: two settings, and a macro at
compile time. -/
structure MainOptions where
  get_dht : Bool
  get_dns : Bool
  debugPrintRt : Bool

/-- The threads `main` starts, in order. -/
def mainThreads (options : MainOptions) : NodeType → List Thread
  | .node =>
      [.dhcp, .nidfilter, .phOutput, .phInput, .nrOutput, .nrInput, .rvsUpdate,
        .rvsGet, .mobility, .control] ++
      if options.get_dns then [.dnshandler] else []
  | .rvs =>
      [.nidfilter, .phOutput, .phInput, .nrOutput, .nrInput, .rvsProxyRecv,
        .rvsProxySend, .controlRvs, .rvsUpdate, .rvs2gw] ++
      if options.get_dns then [.dnshandler] else []
  | .gateway =>
      [.dhcp, .nidfilter, .phOutput, .phInput, .nrOutputGw, .nrInputGw] ++
      (if options.debugPrintRt then [.debugRt] else []) ++
      [.mobility, .rvsUpdate, .controlGw, .gwTalker, .gwListener] ++
      if options.get_dns then [.dnshandler] else []
  | .core =>
      [.nidfilter, .phOutput, .phInput, .nrOutputCore, .nrInputGw] ++
      (if options.debugPrintRt then [.debugRt] else []) ++
      [.controlGwCore, .gwCoreListener] ++
      (if options.get_dht then [.dhtUpdate, .dhtGet] else []) ++
      if options.get_dns then [.dnshandler] else []

namespace Thread

/-- Only `thread_rvs_get` reads `sp_cm2rvs[0]`. -/
def readsCm2rvs : Thread → Bool
  | rvsGet => true
  | _ => false

/-- The turn of an output thread; `thread_nr_output` reads one channel only. -/
def nrTurn (source : NrSource) (now : Timeval) (datagram : List UInt8)
    (s : NrOutput) : Thread → Option NrTurn
  | nrOutput =>
      match source with
      | .ph2nr => some (threadNrOutput now datagram s)
      | .nr => none
  | nrOutputGw => some (threadNrOutputGw source now datagram s)
  | nrOutputCore => some (threadNrOutputCore source now datagram s)
  | _ => none

end Thread

/-- The output thread of a type. -/
def outputThread : NodeType → Thread
  | .node => .nrOutput
  | .rvs => .nrOutput
  | .gateway => .nrOutputGw
  | .core => .nrOutputCore

theorem outputThread_mem (options : MainOptions) (type : NodeType) :
    outputThread type ∈ mainThreads options type := by
  cases type <;> simp [outputThread, mainThreads]

theorem readsCm2rvs_iff {options : MainOptions} {type : NodeType} :
    (mainThreads options type).any Thread.readsCm2rvs = true ↔
      type = .node := by
  obtain ⟨get_dht, get_dns, debugPrintRt⟩ := options
  cases type <;> cases get_dht <;> cases get_dns <;> cases debugPrintRt <;>
    decide

/-- The two static entries of the connection map. -/
def nodeConnMapper (config : Configuration) : ConnMapper :=
  staticCMEntry config.nidgw config.gatewayIP
    (staticCMEntry config.nidrvs config.rvsIP (initConnMapper config))

/-- Every type of node knows its rendezvous server. -/
def mainNidMapper (config : Configuration) (get_dns : Bool) : NidMapper :=
  newNMEntry config.nidrvs config.nidcore (initNidMapper get_dns)

/-- What `main` leaves for the output thread.  A core has no static entries,
and only a gateway has them in the routing table as well. -/
def mainNrOutput (config : Configuration) (buf : Buffer maxBufLen) : NrOutput :=
  { buf := buf
    cm :=
      match config.type with
      | .core => initConnMapper config
      | _ => nodeConnMapper config
    queueTable := initRvsQueueTable
    rt :=
      match config.type with
      | .gateway =>
          staticRTEntry config.nidgw config.gatewayIP
            (staticRTEntry config.nidrvs config.rvsIP (initRtable config))
      | _ => initRtable config
    registry := initRegistryTable
    dht := initDhtable }

end NodeIdentity
