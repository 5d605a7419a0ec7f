import NodeIdentity.Library.ByteBuffer
import NodeIdentity.ConnectionMapper
import NodeIdentity.RoutingTable

/-!
# Control threads

`control.c`: one control thread for each type of node.  All of them read a
datagram of `sp_ph2co` over the front of the same `NID_msg` variable and
switch on its type, so a short datagram acts with fields of an earlier one.
-/

namespace NodeIdentity

open NodeIdentity.Library

/-- The variable `nmsg` of a control thread. -/
abbrev NmsgBuffer := Buffer nmsgLen

def NmsgBuffer.nmsg (buf : NmsgBuffer) : NidMsg := nidMsgCodec.decode buf.bytes

theorem nmsg_receive_full (buf : NmsgBuffer) (nmsg : NidMsg) :
    NmsgBuffer.nmsg (buf.receive (nidMsgCodec.encode nmsg)) = nmsg := by
  have full := buf.decode_receive nidMsgCodec le_rfl nmsg []
  rwa [List.append_nil] at full

structure ControlTurn where
  buf : NmsgBuffer
  cm : ConnMapper
  queueTable : QueueTable

def threadControl (now : Timeval) (datagram : List UInt8) (buf : NmsgBuffer)
    (cm : ConnMapper) (queueTable : QueueTable) : ControlTurn :=
  let buf : NmsgBuffer := buf.receive datagram
  let nmsg := buf.nmsg
  match nmsg.type with
  | .redirect => ⟨buf, newCMEntry nmsg.nid nmsg.ip now cm, queueTable⟩
  | .relocate => ⟨buf, delCMEntry nmsg.nid cm, queueTable⟩
  | .rvsResponse =>
      if nmsg.ip ≠ NID32.zero then
        ⟨buf, newCMEntry nmsg.nid nmsg.ip now cm, unqueue nmsg.nid queueTable⟩
      else ⟨buf, cm, queueTable⟩
  | _ => ⟨buf, cm, queueTable⟩

structure ControlRvsTurn where
  buf : NmsgBuffer
  cm : ConnMapper
  co2rvs : Option NidMsg

def threadControlRvs (now : Timeval) (datagram : List UInt8)
    (buf : NmsgBuffer) (cm : ConnMapper) : ControlRvsTurn :=
  let buf : NmsgBuffer := buf.receive datagram
  let nmsg := buf.nmsg
  match nmsg.type with
  | .redirect => ⟨buf, newCMEntry nmsg.nid nmsg.ip now cm, none⟩
  | .relocate => ⟨buf, delCMEntry nmsg.nid cm, none⟩
  | .rvsUpdate => ⟨buf, cm, some nmsg⟩
  | .rvsGet => ⟨buf, cm, some nmsg⟩
  | _ => ⟨buf, cm, none⟩

structure ControlGwTurn where
  buf : NmsgBuffer
  cm : ConnMapper
  co2gwl : Option NidMsg

def threadControlGw (now : Timeval) (datagram : List UInt8)
    (buf : NmsgBuffer) (cm : ConnMapper) : ControlGwTurn :=
  let buf : NmsgBuffer := buf.receive datagram
  let nmsg := buf.nmsg
  match nmsg.type with
  | .redirect => ⟨buf, newCMEntry nmsg.nid nmsg.ip now cm, none⟩
  | .relocate => ⟨buf, delCMEntry nmsg.nid cm, none⟩
  | .registry => ⟨buf, cm, some nmsg⟩
  | _ => ⟨buf, cm, none⟩

structure ControlGwCoreTurn where
  buf : NmsgBuffer
  cm : ConnMapper
  registry : HashTable ConnEntry
  co2gwl : Option NidMsg

def threadControlGwCore (now : Timeval) (datagram : List UInt8)
    (buf : NmsgBuffer) (cm : ConnMapper) (registry_table : HashTable ConnEntry) :
    ControlGwCoreTurn :=
  let buf : NmsgBuffer := buf.receive datagram
  let nmsg := buf.nmsg
  match nmsg.type with
  | .redirect =>
      ⟨buf, newCMEntry nmsg.nid nmsg.ip now cm, registry_table, none⟩
  | .relocate => ⟨buf, delCMEntry nmsg.nid cm, registry_table, none⟩
  | .registry => ⟨buf, cm, registry_table, some nmsg⟩
  | .redirectCore =>
      ⟨buf, cm, addRegistry nmsg.nid nmsg.ip registry_table, none⟩
  | _ => ⟨buf, cm, registry_table, none⟩

end NodeIdentity
