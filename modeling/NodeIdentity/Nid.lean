import Mathlib.Tactic.IntervalCases
import NodeIdentity.Library.FixedCodec

/-!
# Data types of the daemon

The declarations of `nid.h`: node identities, the header of a frame, the two
message records and the entries of the connection tables.  Records are also
given their layout in memory, since frames and messages travel as bytes.
-/

namespace NodeIdentity

open NodeIdentity.Library

/-- `struct in6_addr`, sixteen bytes in network order. -/
abbrev NID := Vector UInt8 16

/-- `in_addr_t`, as the four bytes it occupies in memory. -/
abbrev NID32 := Vector UInt8 4

/-- The address whose bytes spell the given number. -/
def NID.ofNat (number : Nat) : NID :=
  Vector.ofFn fun index => UInt8.ofNat (number / 256 ^ (15 - index.val))

def NID32.ofNat (number : Nat) : NID32 :=
  Vector.ofFn fun index => UInt8.ofNat (number / 256 ^ (3 - index.val))

/-- What `bzero` and `calloc` leave in an address. -/
def NID.zero : NID := Vector.replicate 16 0

def NID32.zero : NID32 := Vector.replicate 4 0

/-- `enum nid_ctrl_type` and `enum rvs_msg_type`.  The two enumerations share
the type fields of headers and messages and their codes do not overlap; any
other word a datagram brings in that field is `unknown`. -/
inductive MsgType where
  | data
  | redirect
  | relocate
  | registry
  | redirectCore
  | rvsUpdate
  | rvsAck
  | rvsGet
  | rvsResponse
  | unknown (code : UInt32) (outside : 9 ≤ code.toNat)
  deriving DecidableEq

namespace MsgType

def code : MsgType → UInt32
  | data => 0
  | redirect => 1
  | relocate => 2
  | registry => 3
  | redirectCore => 4
  | rvsUpdate => 5
  | rvsAck => 6
  | rvsGet => 7
  | rvsResponse => 8
  | unknown code _ => code

def ofCode (code : UInt32) : MsgType :=
  if outside : 9 ≤ code.toNat then unknown code outside
  else
    match code.toNat with
    | 0 => data
    | 1 => redirect
    | 2 => relocate
    | 3 => registry
    | 4 => redirectCore
    | 5 => rvsUpdate
    | 6 => rvsAck
    | 7 => rvsGet
    | _ => rvsResponse

theorem ofCode_code (kind : MsgType) : ofCode kind.code = kind := by
  cases kind with
  | unknown code outside => simp [ofCode, MsgType.code, outside]
  | _ => rfl

theorem code_ofCode (code : UInt32) : (ofCode code).code = code := by
  rw [ofCode]
  split
  · rfl
  · next inside =>
      obtain ⟨number, value⟩ : ∃ number, code.toNat = number := ⟨_, rfl⟩
      have known : code = UInt32.ofNat number := by
        rw [← value, UInt32.ofNat_toNat]
      rw [value] at inside ⊢
      subst known
      interval_cases number
      all_goals rfl

end MsgType

/-- `enum node_types`. -/
inductive NodeType where
  | node
  | rvs
  | gateway
  | core
  deriving DecidableEq

/-- The two types which route for others. -/
inductive GatewayRole where
  | gateway
  | core
  deriving DecidableEq

/-- `NID_header`. -/
structure NidHeader where
  type : MsgType
  srcNID : NID
  destNID : NID
  srcNIDgw : NID
  destNIDgw : NID
  deriving DecidableEq

/-- `NID_msg`. -/
structure NidMsg where
  type : MsgType
  srcNID : NID
  destNID : NID
  srcNIDgw : NID
  destNIDgw : NID
  nid : NID
  ip : NID32
  deriving DecidableEq

/-- `RVS_msg`. -/
structure RvsMsg where
  type : MsgType
  srcNID : NID
  destNID : NID
  srcNIDgw : NID
  destNIDgw : NID
  nid : NID
  ip : NID32
  deriving DecidableEq

/-- `conn_entry`; `tstamp = 0` marks a static entry. -/
structure ConnEntry where
  ip : NID32
  tstamp : Nat
  deriving DecidableEq

/-- The reading of the clock: `gettimeofday` gives both parts, `time(NULL)`
the seconds. -/
structure Timeval where
  tvSec : Nat
  tvUsec : Fin 1000000
  deriving DecidableEq

/-- A whole second. -/
def Timeval.ofSec (seconds : Nat) : Timeval := ⟨seconds, 0⟩

def rvsUpdateTimeout : Nat := 5

def rvsProactive : Nat := rvsUpdateTimeout - 1

def rvsTimeout : Nat := 10

def gatewayTimeout : Nat := 10

def deviceMtu : Nat := 1392

def msgTypeCodec : FixedCodec MsgType :=
  FixedCodec.uint32le.imap MsgType.ofCode MsgType.code MsgType.ofCode_code

theorem msgTypeCodec_prefixed : msgTypeCodec.Prefixed :=
  FixedCodec.uint32le_prefixed.imap

theorem msgTypeCodec_faithful : msgTypeCodec.Faithful :=
  FixedCodec.uint32le_faithful.imap MsgType.code_ofCode

def nidCodec : FixedCodec NID := FixedCodec.bytes 16

def nid32Codec : FixedCodec NID32 := FixedCodec.bytes 4

def nidHeaderCodec : FixedCodec NidHeader :=
  (msgTypeCodec.pair (nidCodec.pair (nidCodec.pair
    (nidCodec.pair nidCodec)))).imap
    (fun (type, srcNID, destNID, srcNIDgw, destNIDgw) =>
      ⟨type, srcNID, destNID, srcNIDgw, destNIDgw⟩)
    (fun header => (header.type, header.srcNID, header.destNID,
      header.srcNIDgw, header.destNIDgw))
    (fun _ => rfl)

def nidMsgCodec : FixedCodec NidMsg :=
  (msgTypeCodec.pair (nidCodec.pair (nidCodec.pair (nidCodec.pair
    (nidCodec.pair (nidCodec.pair nid32Codec)))))).imap
    (fun (type, srcNID, destNID, srcNIDgw, destNIDgw, nid, ip) =>
      ⟨type, srcNID, destNID, srcNIDgw, destNIDgw, nid, ip⟩)
    (fun msg => (msg.type, msg.srcNID, msg.destNID, msg.srcNIDgw,
      msg.destNIDgw, msg.nid, msg.ip))
    (fun _ => rfl)

def rvsMsgCodec : FixedCodec RvsMsg :=
  (msgTypeCodec.pair (nidCodec.pair (nidCodec.pair (nidCodec.pair
    (nidCodec.pair (nidCodec.pair nid32Codec)))))).imap
    (fun (type, srcNID, destNID, srcNIDgw, destNIDgw, nid, ip) =>
      ⟨type, srcNID, destNID, srcNIDgw, destNIDgw, nid, ip⟩)
    (fun msg => (msg.type, msg.srcNID, msg.destNID, msg.srcNIDgw,
      msg.destNIDgw, msg.nid, msg.ip))
    (fun _ => rfl)

theorem rvsMsgCodec_prefixed : rvsMsgCodec.Prefixed := by
  have nid : nidCodec.Prefixed := FixedCodec.bytes_prefixed 16
  have ip : nid32Codec.Prefixed := FixedCodec.bytes_prefixed 4
  exact (msgTypeCodec_prefixed.pair
    (nid.pair (nid.pair (nid.pair (nid.pair (nid.pair ip)))))).imap

/-- A header and the bytes behind it, as they lie in a packet buffer. -/
def frame (header : NidHeader) (payload : List UInt8) : List UInt8 :=
  nidHeaderCodec.encode header ++ payload

/-- `sizeof(NID_header)`. -/
def nhLen : Nat := 68

/-- `sizeof(NID_msg)`, which is also `sizeof(RVS_msg)`. -/
def nmsgLen : Nat := 88

example : nidHeaderCodec.width = nhLen ∧ nidMsgCodec.width = nmsgLen ∧
    rvsMsgCodec.width = nmsgLen := by decide

/-- A message fits where there is room for `sizeof(NID_msg)`. -/
theorem nmsg_encode_take (nmsg : NidMsg) {count : Nat}
    (room : nmsgLen ≤ count) :
    (nidMsgCodec.encode nmsg).take count = nidMsgCodec.encode nmsg := by
  have width : (nidMsgCodec.encode nmsg).length = nmsgLen :=
    nidMsgCodec.length_encode nmsg
  exact List.take_of_length_le (width.trans_le room)

theorem nmsg_typed (nmsg : NidMsg) :
    msgTypeCodec.width ≤ (nidMsgCodec.encode nmsg).length ∧
      msgTypeCodec.decode (nidMsgCodec.encode nmsg) = nmsg.type := by
  constructor
  · rw [nidMsgCodec.length_encode]
    decide
  · exact congrArg NidMsg.type (nidMsgCodec.decode_encode nmsg)

end NodeIdentity
