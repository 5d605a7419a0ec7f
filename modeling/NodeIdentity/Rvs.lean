import NodeIdentity.Library.ByteBuffer
import NodeIdentity.Hash

/-!
# Rendezvous server

The server process of `rvs.c`.  One turn of its loop overlays `RVS_msg` on the
datagram it received, serves the request and sends the same bytes back with
the type, and for a request the locator, replaced.  A time stamp of zero has
no special meaning here.
-/

namespace NodeIdentity

open NodeIdentity.Library

/-- `MAXBUFLEN` of `rvs.c`; `recvfrom` asks for one byte less. -/
def rvsBufLen : Nat := 256

structure RvsServer where
  buf : Buffer rvsBufLen
  rvsTable : HashTable ConnEntry

def initRvsTable : HashTable ConnEntry := constructHashTable 100 hundred_pos

def addEntry (nid : NID) (ip : NID32) (now : Timeval)
    (rvs_table : HashTable ConnEntry) : HashTable ConnEntry :=
  (hashInsert nid ⟨ip, now.tvSec⟩ rvs_table).2

def getEntry (nid : NID) (now : Timeval) (rvs_table : HashTable ConnEntry) :
    NID32 × HashTable ConnEntry :=
  match hashLookup nid rvs_table with
  | some ce =>
      if ce.tstamp + rvsTimeout > now.tvSec then (ce.ip, rvs_table)
      else (NID32.zero, (hashDel nid rvs_table).2)
  | none => (NID32.zero, rvs_table)

/-- One round of the loop in `main`: the new state and the reply.  Errors of
the sockets end the process. -/
def rvsMain (now : Timeval) (datagram : List UInt8) (s : RvsServer) :
    RvsServer × List UInt8 :=
  let buf := s.buf.receive (datagram.take (rvsBufLen - 1))
  let numbytes := Buffer.received (rvsBufLen - 1) datagram
  let rvs_pt := rvsMsgCodec.decode buf.bytes
  match rvs_pt.type with
  | .rvsUpdate =>
      let reply := buf.receive (rvsMsgCodec.encode { rvs_pt with type := .rvsAck })
      (⟨reply, addEntry rvs_pt.nid rvs_pt.ip now s.rvsTable⟩,
        reply.bytes.take numbytes)
  | .rvsGet =>
      let (ip, rvs_table) := getEntry rvs_pt.nid now s.rvsTable
      let reply := buf.receive
        (rvsMsgCodec.encode { rvs_pt with type := .rvsResponse, ip := ip })
      (⟨reply, rvs_table⟩, reply.bytes.take numbytes)
  | _ => (⟨buf, s.rvsTable⟩, buf.bytes.take numbytes)

/-- What the server makes of a request, as records. -/
def RvsMsg.served (now : Timeval) (rvs_table : HashTable ConnEntry)
    (msg : RvsMsg) : RvsMsg :=
  match msg.type with
  | .rvsUpdate => { msg with type := .rvsAck }
  | .rvsGet =>
      { msg with type := .rvsResponse, ip := (getEntry msg.nid now rvs_table).1 }
  | _ => msg

def RvsMsg.tableAfter (now : Timeval) (rvs_table : HashTable ConnEntry)
    (msg : RvsMsg) : HashTable ConnEntry :=
  match msg.type with
  | .rvsUpdate => addEntry msg.nid msg.ip now rvs_table
  | .rvsGet => (getEntry msg.nid now rvs_table).2
  | _ => rvs_table

private theorem reply_bytes (buf : Buffer rvsBufLen) (msg : RvsMsg) :
    (buf.receive (rvsMsgCodec.encode msg)).bytes.take nmsgLen =
      rvsMsgCodec.encode msg := by
  have width : (rvsMsgCodec.encode msg).length = nmsgLen :=
    rvsMsgCodec.length_encode msg
  rw [Buffer.bytes_receive_of_le buf (by rw [width]; decide), ← width,
    List.take_left]

theorem rvsMain_full (now : Timeval) (msg : RvsMsg) (s : RvsServer) :
    (rvsMain now (rvsMsgCodec.encode msg) s).2 =
        rvsMsgCodec.encode (msg.served now s.rvsTable) ∧
      (rvsMain now (rvsMsgCodec.encode msg) s).1.rvsTable =
        msg.tableAfter now s.rvsTable := by
  have width : (rvsMsgCodec.encode msg).length = nmsgLen :=
    rvsMsgCodec.length_encode msg
  have uncut : (rvsMsgCodec.encode msg).take (rvsBufLen - 1) =
      rvsMsgCodec.encode msg :=
    List.take_of_length_le (by rw [width]; decide)
  have count : Buffer.received (rvsBufLen - 1) (rvsMsgCodec.encode msg) =
      nmsgLen := by
    rw [Buffer.received, width]
    rfl
  have overlay : rvsMsgCodec.decode
      (s.buf.receive (rvsMsgCodec.encode msg)).bytes = msg := by
    have full := s.buf.decode_receive rvsMsgCodec (by decide) msg []
    rwa [List.append_nil] at full
  simp only [rvsMain, uncut, count, overlay, RvsMsg.served, RvsMsg.tableAfter]
  split
  · exact ⟨reply_bytes _ _, rfl⟩
  · exact ⟨reply_bytes _ _, rfl⟩
  · exact ⟨reply_bytes _ _, rfl⟩

end NodeIdentity
