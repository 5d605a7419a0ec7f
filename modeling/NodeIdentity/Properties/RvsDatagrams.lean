import NodeIdentity.Properties.RendezvousService

/-!
# Bytes of earlier datagrams at the rendezvous server

The server reads a whole message from its buffer, whatever has arrived, so a
short datagram is completed with bytes of an earlier one.  Two histories which
leave the same table may then part at the next datagram.
-/

namespace NodeIdentity

open NodeIdentity.Library

/-- What a turn of the server waits for, and when it comes. -/
structure RvsDatagram where
  now : Timeval
  datagram : List UInt8

def RvsServer.turn (s : RvsServer) (arrival : RvsDatagram) :
    RvsServer × List UInt8 :=
  rvsMain arrival.now arrival.datagram s

/-- Runs of the server at a clock which does not go back. -/
def rvsLoop : Machine (RvsServer × Nat) RvsDatagram (List UInt8) :=
  (Machine.total RvsServer.turn).timed fun arrival => arrival.now.tvSec

/-- Some datagrams lead here.  The array on the stack starts with any bytes. -/
def RvsReached (s : RvsServer) (clock : Nat) : Prop :=
  ∃ buf arrivals replies,
    rvsLoop.Run (⟨buf, initRvsTable⟩, 0) arrivals replies (s, clock)

def SameBindings (table other : HashTable ConnEntry) : Prop :=
  ∀ nid, hashLookup nid table = hashLookup nid other

/-- The reply and the bindings do not tell the two servers apart. -/
structure SameTurn (arrival : RvsDatagram) (s s' : RvsServer) : Prop where
  reply : (s.turn arrival).2 = (s'.turn arrival).2
  bindings : SameBindings (s.turn arrival).1.rvsTable
    (s'.turn arrival).1.rvsTable

/-- After any other history with the same bindings, the datagram is answered
in the same way and changes the bindings in the same way. -/
def FromDatagram (arrival : RvsDatagram) (s : RvsServer) : Prop :=
  ∀ s' clock, RvsReached s' clock → clock ≤ arrival.now.tvSec →
    SameBindings s.rvsTable s'.rvsTable → SameTurn arrival s s'

/-- Nothing is missing that the server looks at.  A zero-length datagram is
served from the buffer as it is, and only an array which has not been received
into can hold a request. -/
structure SelfContained (arrival : RvsDatagram)
    (table : HashTable ConnEntry) : Prop where
  empty : arrival.datagram = [] → ∃ nid ce, hashLookup nid table = some ce
  typeless : arrival.datagram ≠ [] → arrival.datagram.length < 4 →
    ¬ arrival.datagram <+: msgTypeCodec.encode .rvsUpdate ∧
      ¬ arrival.datagram <+: msgTypeCodec.encode .rvsGet
  update : 4 ≤ arrival.datagram.length →
    msgTypeCodec.decode arrival.datagram = .rvsUpdate →
      nmsgLen ≤ arrival.datagram.length
  get : 4 ≤ arrival.datagram.length →
    msgTypeCodec.decode arrival.datagram = .rvsGet →
      84 ≤ arrival.datagram.length ∨
        ∀ nid ce, hashLookup nid table = some ce →
          ce.tstamp + rvsTimeout ≤ arrival.now.tvSec →
            ¬ arrival.datagram.drop 68 <+: nid.toList

theorem rvsMsgCodec_faithful : rvsMsgCodec.Faithful := by
  have bytes := FixedCodec.bytes_faithful
  exact (msgTypeCodec_faithful.pair ((bytes 16).pair ((bytes 16).pair
    ((bytes 16).pair ((bytes 16).pair ((bytes 16).pair
      (bytes 4))))))).imap fun _ => rfl

theorem rvsMsg_fields (bytes : List UInt8) :
    (rvsMsgCodec.decode bytes).type = msgTypeCodec.decode bytes ∧
      (rvsMsgCodec.decode bytes).nid = nidCodec.decode (bytes.drop 68) ∧
      (rvsMsgCodec.decode bytes).ip = nid32Codec.decode (bytes.drop 84) := by
  have nid : bytes.drop 68 =
      ((((bytes.drop 4).drop 16).drop 16).drop 16).drop 16 := by
    simp only [List.drop_drop]
  have ip : bytes.drop 84 = (bytes.drop 68).drop 16 := by
    rw [List.drop_drop]
  rw [ip, nid]
  exact ⟨rfl, rfl, rfl⟩

theorem length_encode_type (type : MsgType) :
    (msgTypeCodec.encode type).length = 4 :=
  msgTypeCodec.length_encode type

theorem encode_typed (msg : RvsMsg) (type : MsgType) :
    rvsMsgCodec.encode { msg with type := type } =
      msgTypeCodec.encode type ++ (rvsMsgCodec.encode msg).drop 4 := by
  have whole : ∀ type, ∃ rest,
      rvsMsgCodec.encode { msg with type := type } =
        msgTypeCodec.encode type ++ rest ∧
      rvsMsgCodec.encode msg = msgTypeCodec.encode msg.type ++ rest :=
    fun type => ⟨_, rfl, rfl⟩
  obtain ⟨rest, typed, original⟩ := whole type
  rw [typed, original, List.drop_left' (length_encode_type msg.type)]

theorem encode_located (msg : RvsMsg) (ip : NID32) :
    rvsMsgCodec.encode { msg with ip := ip } =
      (rvsMsgCodec.encode msg).take 84 ++ ip.toList := by
  have front : ∀ ip : NID32, rvsMsgCodec.encode { msg with ip := ip } =
      (msgTypeCodec.encode msg.type ++ (msg.srcNID.toList ++
        (msg.destNID.toList ++ (msg.srcNIDgw.toList ++
          (msg.destNIDgw.toList ++ msg.nid.toList))))) ++ ip.toList := by
    intro ip
    simp only [List.append_assoc]
    rfl
  have length : (msgTypeCodec.encode msg.type ++ (msg.srcNID.toList ++
      (msg.destNID.toList ++ (msg.srcNIDgw.toList ++
        (msg.destNIDgw.toList ++ msg.nid.toList))))).length = 84 := by
    simp only [List.length_append, length_encode_type, Vector.length_toList]
  have original := front msg.ip
  rw [front ip, original, List.take_left' length]

/-- What the buffer holds when a datagram has been received. -/
def RvsServer.arrived (s : RvsServer) (datagram : List UInt8) : List UInt8 :=
  (s.buf.receive (datagram.take (rvsBufLen - 1))).bytes

theorem length_arrived (s : RvsServer) (datagram : List UInt8) :
    (s.arrived datagram).length = rvsBufLen :=
  (s.buf.receive _).length_bytes

private theorem bytes_receive_encode (buf : Buffer rvsBufLen) (msg : RvsMsg) :
    (buf.receive (rvsMsgCodec.encode msg)).bytes =
      rvsMsgCodec.encode msg ++ buf.bytes.drop nmsgLen := by
  have width : (rvsMsgCodec.encode msg).length = nmsgLen :=
    rvsMsgCodec.length_encode msg
  rw [Buffer.bytes_receive_of_le buf (by rw [width]; decide), width]

theorem encode_decode_arrived (s : RvsServer) (datagram : List UInt8) :
    rvsMsgCodec.encode (rvsMsgCodec.decode (s.arrived datagram)) =
      (s.arrived datagram).take nmsgLen :=
  rvsMsgCodec_faithful _ (by rw [length_arrived]; decide)

theorem bytes_typed (s : RvsServer) (datagram : List UInt8) (type : MsgType) :
    ((s.buf.receive (datagram.take (rvsBufLen - 1))).receive
      (rvsMsgCodec.encode
        { rvsMsgCodec.decode (s.arrived datagram) with type := type })).bytes =
      Buffer.overlay 0 (msgTypeCodec.encode type) (s.arrived datagram) := by
  rw [bytes_receive_encode, encode_typed, encode_decode_arrived,
    Buffer.overlay, length_encode_type, List.take_zero, List.nil_append,
    List.append_assoc, RvsServer.arrived]
  congr 1
  rw [List.drop_take, nmsgLen]
  have split : ∀ bytes : List UInt8,
      bytes.drop 88 = (bytes.drop 4).drop (88 - 4) := by
    intro bytes
    rw [List.drop_drop]
  rw [split, List.take_append_drop]

theorem bytes_located (s : RvsServer) (datagram : List UInt8) (type : MsgType)
    (ip : NID32) :
    ((s.buf.receive (datagram.take (rvsBufLen - 1))).receive
      (rvsMsgCodec.encode { rvsMsgCodec.decode (s.arrived datagram) with
        type := type, ip := ip })).bytes =
      Buffer.overlay 84 ip.toList
        (Buffer.overlay 0 (msgTypeCodec.encode type)
          (s.arrived datagram)) := by
  have ipLength : ip.toList.length = 4 := Vector.length_toList
  have typed := bytes_typed s datagram type
  rw [bytes_receive_encode] at typed
  have located := encode_located
    { rvsMsgCodec.decode (s.arrived datagram) with type := type } ip
  have width : (rvsMsgCodec.encode { rvsMsgCodec.decode (s.arrived datagram)
      with type := type }).length = nmsgLen :=
    rvsMsgCodec.length_encode _
  have behind : 84 + 4 = nmsgLen := rfl
  rw [bytes_receive_encode, located, Buffer.overlay, ipLength, behind, ← typed,
    List.take_append_of_le_length (by rw [width]; decide), List.append_assoc,
    List.drop_left' width]

def taken (datagram : List UInt8) : Nat :=
  Buffer.received (rvsBufLen - 1) datagram

theorem turn_reply (s : RvsServer) (arrival : RvsDatagram) :
    (s.turn arrival).2 =
      (s.turn arrival).1.buf.bytes.take (taken arrival.datagram) := by
  simp only [RvsServer.turn, rvsMain]
  split
  · rfl
  · rfl
  · rfl

theorem turn_update {s : RvsServer} {arrival : RvsDatagram}
    (kind : msgTypeCodec.decode (s.arrived arrival.datagram) = .rvsUpdate) :
    (s.turn arrival).1.buf.bytes =
        Buffer.overlay 0 (msgTypeCodec.encode .rvsAck)
          (s.arrived arrival.datagram) ∧
      (s.turn arrival).1.rvsTable =
        addEntry (nidCodec.decode ((s.arrived arrival.datagram).drop 68))
          (nid32Codec.decode ((s.arrived arrival.datagram).drop 84))
          arrival.now s.rvsTable := by
  obtain ⟨type, nid, ip⟩ := rvsMsg_fields (s.arrived arrival.datagram)
  rw [← bytes_typed, ← nid, ← ip]
  rw [kind] at type
  unfold RvsServer.arrived at type
  simp only [RvsServer.turn, rvsMain, type]
  exact ⟨rfl, rfl⟩

theorem turn_get {s : RvsServer} {arrival : RvsDatagram}
    (kind : msgTypeCodec.decode (s.arrived arrival.datagram) = .rvsGet) :
    let entry := getEntry
      (nidCodec.decode ((s.arrived arrival.datagram).drop 68)) arrival.now
      s.rvsTable
    (s.turn arrival).1.buf.bytes = Buffer.overlay 84 entry.1.toList
        (Buffer.overlay 0 (msgTypeCodec.encode .rvsResponse)
          (s.arrived arrival.datagram)) ∧
      (s.turn arrival).1.rvsTable = entry.2 := by
  obtain ⟨type, nid, _⟩ := rvsMsg_fields (s.arrived arrival.datagram)
  intro entry
  rw [← bytes_located]
  subst entry
  rw [← nid]
  rw [kind] at type
  unfold RvsServer.arrived at type
  simp only [RvsServer.turn, rvsMain, type]
  exact ⟨rfl, rfl⟩

theorem turn_other {s : RvsServer} {arrival : RvsDatagram}
    (notUpdate : msgTypeCodec.decode (s.arrived arrival.datagram) ≠ .rvsUpdate)
    (notGet : msgTypeCodec.decode (s.arrived arrival.datagram) ≠ .rvsGet) :
    (s.turn arrival).1.buf.bytes = s.arrived arrival.datagram ∧
      (s.turn arrival).1.rvsTable = s.rvsTable := by
  obtain ⟨type, _⟩ := rvsMsg_fields (s.arrived arrival.datagram)
  rw [← type] at notUpdate notGet
  unfold RvsServer.arrived at notUpdate notGet
  cases kind : (rvsMsgCodec.decode (s.buf.receive
      (arrival.datagram.take (rvsBufLen - 1))).bytes).type with
  | rvsUpdate => exact absurd kind notUpdate
  | rvsGet => exact absurd kind notGet
  | _ =>
      simp only [RvsServer.turn, rvsMain, kind, and_true]
      rfl

/-- The server's buffer holds no request. -/
structure Served (buf : Buffer rvsBufLen) : Prop where
  notUpdate : msgTypeCodec.decode buf.bytes ≠ .rvsUpdate
  notGet : msgTypeCodec.decode buf.bytes ≠ .rvsGet

theorem turn_served (s : RvsServer) (arrival : RvsDatagram) :
    Served (s.turn arrival).1.buf := by
  have typed : ∀ type, msgTypeCodec.decode (Buffer.overlay 0
      (msgTypeCodec.encode type) (s.arrived arrival.datagram)) = type :=
    fun type => msgTypeCodec.decode_append type _
  by_cases update :
      msgTypeCodec.decode (s.arrived arrival.datagram) = .rvsUpdate
  · have type := typed .rvsAck
    rw [← (turn_update update).1] at type
    constructor
    · rw [type]
      decide
    · rw [type]
      decide
  · by_cases get : msgTypeCodec.decode (s.arrived arrival.datagram) = .rvsGet
    · have bytes := (turn_get get).1
      have type : msgTypeCodec.decode (s.turn arrival).1.buf.bytes =
          .rvsResponse := by
        have length : (Buffer.overlay 0 (msgTypeCodec.encode .rvsResponse)
            (s.arrived arrival.datagram)).length = rvsBufLen := by
          rw [Buffer.length_overlay (by rw [length_arrived]; decide),
            length_arrived]
        rw [bytes, ← msgTypeCodec_prefixed,
          Buffer.take_overlay (by decide) (by rw [length]; decide),
          msgTypeCodec_prefixed]
        exact typed .rvsResponse
      constructor
      · rw [type]
        decide
      · rw [type]
        decide
    · have bytes := (turn_other update get).1
      constructor
      · rwa [bytes]
      · rwa [bytes]

theorem length_taken (datagram : List UInt8) :
    taken datagram = (datagram.take (rvsBufLen - 1)).length := by
  rw [taken, Buffer.received, List.length_take, Nat.min_comm]

theorem taken_of_le {datagram : List UInt8}
    (fits : datagram.length ≤ rvsBufLen - 1) :
    taken datagram = datagram.length := by
  rw [length_taken, List.take_of_length_le fits]

theorem arrived_take (s : RvsServer) (datagram : List UInt8) :
    (s.arrived datagram).take (taken datagram) =
      datagram.take (rvsBufLen - 1) := by
  have fits : (datagram.take (rvsBufLen - 1)).length ≤ rvsBufLen := by
    rw [List.length_take]
    omega
  rw [RvsServer.arrived, Buffer.bytes_receive_of_le _ fits, length_taken,
    List.take_left' rfl]

theorem arrived_take_congr (s s' : RvsServer) (datagram : List UInt8)
    {count : Nat} (inside : count ≤ taken datagram) :
    (s.arrived datagram).take count = (s'.arrived datagram).take count := by
  have cut : ∀ server : RvsServer, (server.arrived datagram).take count =
      (datagram.take (rvsBufLen - 1)).take count := by
    intro server
    rw [← arrived_take server, List.take_take, Nat.min_eq_left inside]
  rw [cut, cut]

theorem arrived_nil (s : RvsServer) : s.arrived [] = s.buf.bytes := rfl

theorem arrived_type_iff {s : RvsServer} {datagram : List UInt8}
    {type : MsgType} :
    msgTypeCodec.decode (s.arrived datagram) = type ↔
      (s.arrived datagram).take 4 = msgTypeCodec.encode type :=
  msgTypeCodec_faithful.decode_eq_iff msgTypeCodec_prefixed
    (by rw [length_arrived]; decide)

theorem arrived_type_congr (s s' : RvsServer) {datagram : List UInt8}
    (typed : 4 ≤ taken datagram) :
    msgTypeCodec.decode (s.arrived datagram) =
      msgTypeCodec.decode (s'.arrived datagram) := by
  rw [arrived_type_iff, arrived_take_congr s s' datagram typed,
    ← arrived_type_iff]

theorem arrived_type_eq (s : RvsServer) {datagram : List UInt8}
    (typed : 4 ≤ datagram.length) :
    msgTypeCodec.decode (s.arrived datagram) =
      msgTypeCodec.decode datagram := by
  have width : msgTypeCodec.width = 4 := rfl
  have inside : 4 ≤ taken datagram := by
    rw [length_taken, List.length_take]
    exact le_min (by decide) typed
  rw [arrived_type_iff]
  have front := congrArg (List.take 4) (arrived_take s datagram)
  rw [List.take_take, Nat.min_eq_left inside, List.take_take,
    Nat.min_eq_left (show 4 ≤ rvsBufLen - 1 by decide)] at front
  rw [front]
  exact (msgTypeCodec_faithful datagram typed).symm

def Expired (table : HashTable ConnEntry) (now : Timeval) (nid : NID) : Prop :=
  ∃ ce, hashLookup nid table = some ce ∧ ce.tstamp + rvsTimeout ≤ now.tvSec

theorem getEntry_of_current {nid : NID} {now : Timeval}
    {table : HashTable ConnEntry} (current : ¬ Expired table now nid) :
    (getEntry nid now table).2 = table := by
  unfold getEntry
  split
  · next ce found =>
      split
      · rfl
      · next past => exact absurd ⟨ce, found, not_lt.mp past⟩ current
  · rfl

theorem getEntry_of_expired {nid : NID} {now : Timeval}
    {table : HashTable ConnEntry} (expired : Expired table now nid) :
    (getEntry nid now table).2 = (hashDel nid table).2 := by
  obtain ⟨ce, found, past⟩ := expired
  unfold getEntry
  rw [found]
  simp only
  rw [if_neg (not_lt.mpr past)]

theorem hashLookup_getEntry_of_ne {nid other : NID} (different : other ≠ nid)
    (now : Timeval) (table : HashTable ConnEntry) :
    hashLookup other (getEntry nid now table).2 = hashLookup other table := by
  by_cases expired : Expired table now nid
  · rw [getEntry_of_expired expired]
    exact ChainedTable.find_erase_of_ne table different
  · rw [getEntry_of_current expired]

namespace SameBindings

variable {table other third : HashTable ConnEntry}

theorem symm (same : SameBindings table other) : SameBindings other table :=
  fun nid => (same nid).symm

theorem trans (same : SameBindings table other)
    (next : SameBindings other third) : SameBindings table third :=
  fun nid => (same nid).trans (next nid)

theorem expired_iff (same : SameBindings table other) {now : Timeval}
    {nid : NID} : Expired table now nid ↔ Expired other now nid := by
  rw [Expired, Expired, same]

theorem addEntry (same : SameBindings table other) (nid : NID) (ip : NID32)
    (now : Timeval) :
    SameBindings (NodeIdentity.addEntry nid ip now table)
      (NodeIdentity.addEntry nid ip now other) := by
  intro key
  by_cases equal : key = nid
  · subst equal
    exact (ChainedTable.find_insert_self table key _).trans
      (ChainedTable.find_insert_self other key _).symm
  · have kept := fun table : HashTable ConnEntry =>
      ChainedTable.find_insert_of_ne table equal ⟨ip, now.tvSec⟩
    exact (kept table).trans ((same key).trans (kept other).symm)

theorem getEntry (same : SameBindings table other) (nid : NID)
    (now : Timeval) :
    SameBindings (NodeIdentity.getEntry nid now table).2
      (NodeIdentity.getEntry nid now other).2 := by
  by_cases expired : Expired table now nid
  · rw [getEntry_of_expired expired,
      getEntry_of_expired (same.expired_iff.mp expired)]
    intro key
    by_cases equal : key = nid
    · subst equal
      exact (ChainedTable.find_erase_self table key).trans
        (ChainedTable.find_erase_self other key).symm
    · exact (ChainedTable.find_erase_of_ne table equal).trans
        ((same key).trans (ChainedTable.find_erase_of_ne other equal).symm)
  · rwa [getEntry_of_current expired,
      getEntry_of_current (mt same.expired_iff.mpr expired)]

end SameBindings

section Pair

variable {s s' : RvsServer} {arrival : RvsDatagram}

theorem sameTurn_other (same : SameBindings s.rvsTable s'.rvsTable)
    (quiet : ∀ server : RvsServer, server = s ∨ server = s' →
      msgTypeCodec.decode (server.arrived arrival.datagram) ≠ .rvsUpdate ∧
      msgTypeCodec.decode (server.arrived arrival.datagram) ≠ .rvsGet) :
    SameTurn arrival s s' := by
  obtain ⟨notUpdate, notGet⟩ := quiet s (.inl rfl)
  obtain ⟨notUpdate', notGet'⟩ := quiet s' (.inr rfl)
  obtain ⟨bytes, table⟩ := turn_other notUpdate notGet
  obtain ⟨bytes', table'⟩ := turn_other notUpdate' notGet'
  constructor
  · rw [turn_reply, turn_reply, bytes, bytes', arrived_take, arrived_take]
  · rwa [table, table']

theorem sameTurn_update (same : SameBindings s.rvsTable s'.rvsTable)
    (whole : nmsgLen ≤ taken arrival.datagram)
    (kind : msgTypeCodec.decode (s.arrived arrival.datagram) = .rvsUpdate) :
    SameTurn arrival s s' := by
  have size : nmsgLen = 88 := rfl
  have kind' := kind
  rw [arrived_type_congr s s' (by omega)] at kind'
  obtain ⟨bytes, table⟩ := turn_update kind
  obtain ⟨bytes', table'⟩ := turn_update kind'
  have nid := (FixedCodec.bytes_prefixed 16).decode_congr
    (arrived_take_congr s s' arrival.datagram
      (show 68 + 16 ≤ taken arrival.datagram by omega))
  have ip := (FixedCodec.bytes_prefixed 4).decode_congr
    (arrived_take_congr s s' arrival.datagram
      (show 84 + 4 ≤ taken arrival.datagram by omega))
  constructor
  · rw [turn_reply, turn_reply, bytes, bytes']
    apply Buffer.take_overlay_congr
    · exact arrived_take_congr s s' _ le_rfl
    · exact Nat.zero_le _
    · exact Nat.zero_le _
  · rw [table, table', nidCodec, nid32Codec, nid, ip]
    exact same.addEntry _ _ _

/-- A request which has arrived up to the end of the NID, or asks for none of
the entries that are over. -/
theorem sameTurn_get (same : SameBindings s.rvsTable s'.rvsTable)
    (typed : 4 ≤ taken arrival.datagram)
    (kind : msgTypeCodec.decode (s.arrived arrival.datagram) = .rvsGet)
    (settled : 84 ≤ taken arrival.datagram ∨
      ∀ server : RvsServer, server = s ∨ server = s' →
        ¬ Expired s.rvsTable arrival.now
          (nidCodec.decode ((server.arrived arrival.datagram).drop 68))) :
    SameTurn arrival s s' := by
  have kind' := kind
  rw [arrived_type_congr s s' typed] at kind'
  obtain ⟨bytes, table⟩ := turn_get kind
  obtain ⟨bytes', table'⟩ := turn_get kind'
  have size : 84 ≤ rvsBufLen := by decide
  have room : ∀ server : RvsServer, (Buffer.overlay 0
      (msgTypeCodec.encode .rvsResponse)
      (server.arrived arrival.datagram)).length = rvsBufLen := by
    intro server
    rw [Buffer.length_overlay (by rw [length_arrived]; decide),
      length_arrived]
  have front : (Buffer.overlay 0 (msgTypeCodec.encode .rvsResponse)
      (s.arrived arrival.datagram)).take (taken arrival.datagram) =
      (Buffer.overlay 0 (msgTypeCodec.encode .rvsResponse)
        (s'.arrived arrival.datagram)).take (taken arrival.datagram) :=
    Buffer.take_overlay_congr (arrived_take_congr s s' _ le_rfl)
      (Nat.zero_le _) (Nat.zero_le _)
  by_cases named : 84 ≤ taken arrival.datagram
  · have nid := (FixedCodec.bytes_prefixed 16).decode_congr
      (arrived_take_congr s s' arrival.datagram
        (show 68 + 16 ≤ taken arrival.datagram by omega))
    rw [nidCodec, nid] at bytes table
    rw [nidCodec] at bytes' table'
    constructor
    · rw [turn_reply, turn_reply, bytes, bytes',
        getEntry_congr (same _)]
      exact Buffer.take_overlay_congr front (by rw [room]; exact size)
        (by rw [room]; exact size)
    · rw [table, table']
      exact same.getEntry _ _
  · have current := settled.resolve_left named
    have kept := getEntry_of_current (current s (.inl rfl))
    have kept' := getEntry_of_current
      (mt same.expired_iff.mpr (current s' (.inr rfl)))
    have cut : ∀ (server : RvsServer) (ip : NID32), (Buffer.overlay 84
        ip.toList (Buffer.overlay 0 (msgTypeCodec.encode .rvsResponse)
          (server.arrived arrival.datagram))).take (taken arrival.datagram) =
        (Buffer.overlay 0 (msgTypeCodec.encode .rvsResponse)
          (server.arrived arrival.datagram)).take (taken arrival.datagram) :=
      fun server ip => Buffer.take_overlay (by omega) (by rw [room]; exact size)
    constructor
    · rw [turn_reply, turn_reply, bytes, bytes', cut, cut, front]
    · rwa [table, table', kept, kept']

end Pair

/-- Before the first datagram the table is empty, and behind one the buffer
holds no request. -/
theorem RvsReached.served {s : RvsServer} {clock : Nat}
    (reached : RvsReached s clock) :
    s.rvsTable = initRvsTable ∨ Served s.buf := by
  obtain ⟨buf, arrivals, replies, run⟩ := reached
  generalize start : ((⟨buf, initRvsTable⟩ : RvsServer), 0) = begun at run
  generalize final : (s, clock) = last at run
  cases run with
  | nil =>
      cases start
      cases final
      exact .inl rfl
  | @snoc events outputs state next event output earlier stepped =>
      subst final
      obtain ⟨before, earlierClock⟩ := state
      obtain ⟨_, after, _, _⟩ := Machine.timed_total_step_iff.mp stepped
      rw [after]
      exact .inr (turn_served before event)

theorem RvsReached.turn {s : RvsServer} {clock : Nat}
    (reached : RvsReached s clock) (arrival : RvsDatagram)
    (order : clock ≤ arrival.now.tvSec) :
    RvsReached (s.turn arrival).1 arrival.now.tvSec := by
  obtain ⟨buf, arrivals, replies, run⟩ := reached
  exact ⟨buf, _, _, run.snoc
    (Machine.timed_total_step_iff.mpr ⟨order, rfl, rfl, rfl⟩)⟩

theorem hashLookup_initRvsTable (nid : NID) :
    hashLookup nid (initRvsTable) = none :=
  ChainedTable.find_empty 100 hundred_pos nid

/-- A datagram which does not spell the type of a request makes no request of
what lies in the buffer. -/
theorem typeless_quiet {datagram : List UInt8}
    (short : datagram.length < 4) {type : MsgType}
    (different : ¬ datagram <+: msgTypeCodec.encode type) (s : RvsServer) :
    msgTypeCodec.decode (s.arrived datagram) ≠ type := by
  have limit : rvsBufLen = 256 := rfl
  have fits : datagram.length ≤ rvsBufLen - 1 := by omega
  intro kind
  have front := arrived_take s datagram
  rw [taken_of_le fits, List.take_of_length_le fits] at front
  have begins := List.take_prefix datagram.length (s.arrived datagram)
  rw [front] at begins
  apply different
  rw [← arrived_type_iff.mp kind]
  exact List.prefix_take_iff.mpr ⟨begins, short.le⟩

theorem drop_prefix_nid {datagram : List UInt8}
    (short : datagram.length < 84) (s : RvsServer) :
    datagram.drop 68 <+:
      (nidCodec.decode ((s.arrived datagram).drop 68)).toList := by
  have limit : rvsBufLen = 256 := rfl
  have fits : datagram.length ≤ rvsBufLen - 1 := by omega
  have front := arrived_take s datagram
  rw [taken_of_le fits, List.take_of_length_le fits] at front
  have long : 16 ≤ ((s.arrived datagram).drop 68).length := by
    rw [List.length_drop, length_arrived]
    decide
  have asked : datagram.drop 68 =
      ((s.arrived datagram).drop 68).take (datagram.length - 68) := by
    rw [← List.drop_take, front]
  rw [nidCodec, FixedCodec.toList_decode_bytes long, asked]
  apply List.take_prefix_take_left
  omega

theorem sameTurn_of_selfContained {s s' : RvsServer} {clock clock' : Nat}
    {arrival : RvsDatagram} (reached : RvsReached s clock)
    (reached' : RvsReached s' clock')
    (same : SameBindings s.rvsTable s'.rvsTable)
    (contained : SelfContained arrival s.rvsTable) :
    SameTurn arrival s s' := by
  have limit : rvsBufLen = 256 := rfl
  have size : nmsgLen = 88 := rfl
  have count := length_taken arrival.datagram
  rw [List.length_take] at count
  by_cases nothing : arrival.datagram = []
  · obtain ⟨nid, ce, found⟩ := contained.empty nothing
    have filled : s.rvsTable ≠ initRvsTable := by
      intro initial
      rw [initial, hashLookup_initRvsTable] at found
      cases found
    have filled' : s'.rvsTable ≠ initRvsTable := by
      intro initial
      rw [same, initial, hashLookup_initRvsTable] at found
      cases found
    apply sameTurn_other same
    intro server which
    have served : Served server.buf := by
      rcases which with rfl | rfl
      · exact reached.served.resolve_left filled
      · exact reached'.served.resolve_left filled'
    rw [nothing, arrived_nil]
    exact ⟨served.notUpdate, served.notGet⟩
  · by_cases typed : 4 ≤ arrival.datagram.length
    · have kind := arrived_type_eq s typed
      by_cases update : msgTypeCodec.decode arrival.datagram = .rvsUpdate
      · have whole := contained.update typed update
        apply sameTurn_update same
        · omega
        · rw [kind, update]
      · by_cases get : msgTypeCodec.decode arrival.datagram = .rvsGet
        · apply sameTurn_get same
          · omega
          · rw [kind, get]
          · by_cases named : 84 ≤ arrival.datagram.length
            · left
              omega
            · right
              intro server _ expired
              have settled :=
                (contained.get typed get).resolve_left named
              obtain ⟨ce, found, past⟩ := expired
              exact settled _ ce found past
                (drop_prefix_nid (by omega) server)
        · apply sameTurn_other same
          intro server _
          rw [arrived_type_eq server typed]
          exact ⟨update, get⟩
    · obtain ⟨notUpdate, notGet⟩ :=
        contained.typeless nothing (not_le.mp typed)
      apply sameTurn_other same
      intro server _
      exact ⟨typeless_quiet (not_le.mp typed) notUpdate server,
        typeless_quiet (not_le.mp typed) notGet server⟩

def filler (byte : Nat → UInt8) : List UInt8 :=
  (List.range (rvsBufLen - 1)).map byte

def Filled (s : RvsServer) (byte : Nat → UInt8) : Prop :=
  ∀ index < rvsBufLen - 1, s.buf.bytes[index]? = some (byte index)

theorem filler_getElem? (byte : Nat → UInt8) {index : Nat}
    (below : index < rvsBufLen - 1) :
    (filler byte)[index]? = some (byte index) := by
  rw [filler, List.getElem?_map, List.getElem?_range below, Option.map_some]

theorem length_filler (byte : Nat → UInt8) :
    (filler byte).length = rvsBufLen - 1 := by
  rw [filler, List.length_map, List.length_range]

theorem type_ne_of_byte {s : RvsServer} {datagram : List UInt8} {index : Nat}
    (inside : index < 4) {byte : UInt8}
    (here : (s.arrived datagram)[index]? = some byte) {type : MsgType}
    (different : (msgTypeCodec.encode type)[index]? ≠ some byte) :
    msgTypeCodec.decode (s.arrived datagram) ≠ type := by
  intro kind
  apply different
  rw [← arrived_type_iff.mp kind, List.getElem?_take_of_lt inside, here]

/-- Whatever bytes there are behind the type, some history leaves them in the
buffer and the table as it is. -/
theorem RvsReached.filled {s : RvsServer} {clock : Nat}
    (reached : RvsReached s clock) {now : Timeval} (order : clock ≤ now.tvSec)
    (byte : Nat → UInt8) (other : byte 0 = 9) :
    ∃ s', RvsReached s' now.tvSec ∧ s'.rvsTable = s.rvsTable ∧
      Filled s' byte := by
  have limit : rvsBufLen = 256 := rfl
  have bytes : ∀ index < rvsBufLen - 1,
      (s.arrived (filler byte))[index]? = some (byte index) := by
    intro index below
    have uncut : (filler byte).take (rvsBufLen - 1) = filler byte :=
      List.take_of_length_le (length_filler byte).le
    rw [RvsServer.arrived, uncut, Buffer.getElem?_receive _
      (by rw [length_filler]; exact below) (by omega)]
    exact filler_getElem? byte below
  have first := bytes 0 (by decide)
  rw [other] at first
  obtain ⟨left, table⟩ :
      (s.turn ⟨now, filler byte⟩).1.buf.bytes = s.arrived (filler byte) ∧
        (s.turn ⟨now, filler byte⟩).1.rvsTable = s.rvsTable :=
    turn_other (type_ne_of_byte (by decide) first (by decide))
      (type_ne_of_byte (by decide) first (by decide))
  have next := reached.turn ⟨now, filler byte⟩ order
  have fills : Filled (s.turn ⟨now, filler byte⟩).1 byte := by
    intro index below
    rw [left]
    exact bytes index below
  exact ⟨_, next, table, fills⟩

theorem Filled.arrived {s : RvsServer} {byte : Nat → UInt8}
    (filled : Filled s byte) {datagram : List UInt8} {index : Nat}
    (behind : datagram.length ≤ index) (below : index < rvsBufLen - 1) :
    (s.arrived datagram)[index]? = some (byte index) := by
  have fits : datagram.length ≤ rvsBufLen - 1 := by omega
  rw [RvsServer.arrived, List.take_of_length_le fits,
    Buffer.getElem?_receive_of_le _ (by omega) behind]
  exact filled index below

theorem arrived_getElem? (s : RvsServer) {datagram : List UInt8} {index : Nat}
    (inside : index < datagram.length) (below : index < rvsBufLen - 1) :
    (s.arrived datagram)[index]? = datagram[index]? := by
  have cut : index < (datagram.take (rvsBufLen - 1)).length := by
    rw [List.length_take]
    omega
  rw [RvsServer.arrived, Buffer.getElem?_receive _ cut (by omega),
    List.getElem?_take_of_lt below]

theorem Filled.arrived_type {s : RvsServer} {byte : Nat → UInt8}
    (filled : Filled s byte) (zeros : ∀ index, 0 < index → index < 4 →
      byte index = 0) {type : MsgType} {code : UInt8}
    (spelled : msgTypeCodec.encode type = [code, 0, 0, 0])
    {datagram rest : List UInt8} (positive : 0 < datagram.length)
    (short : datagram.length < 4)
    (whole : datagram ++ rest = msgTypeCodec.encode type) :
    msgTypeCodec.decode (s.arrived datagram) = type := by
  have limit : rvsBufLen = 256 := rfl
  rw [arrived_type_iff]
  apply List.ext_getElem?
  intro index
  by_cases inType : index < 4
  · rw [List.getElem?_take_of_lt inType]
    by_cases inside : index < datagram.length
    · rw [arrived_getElem? s inside (by omega), ← whole,
        List.getElem?_append_left inside]
    · have behind : 0 < index := by omega
      rw [filled.arrived (by omega) (by omega), zeros index behind inType,
        spelled]
      interval_cases index <;> rfl
  · rw [List.getElem?_eq_none (by rw [List.length_take]; omega),
      List.getElem?_eq_none (by rw [length_encode_type]; omega)]

theorem FromDatagram.twins {s : RvsServer} {clock : Nat}
    {arrival : RvsDatagram} (isolated : FromDatagram arrival s)
    (reached : RvsReached s clock) (order : clock ≤ arrival.now.tvSec)
    (first second : Nat → UInt8) (firstOther : first 0 = 9)
    (secondOther : second 0 = 9) :
    ∃ s₁ s₂, s₁.rvsTable = s.rvsTable ∧ s₂.rvsTable = s.rvsTable ∧
      Filled s₁ first ∧ Filled s₂ second ∧ SameTurn arrival s₁ s₂ := by
  obtain ⟨s₁, reached₁, table₁, filled₁⟩ := reached.filled order first firstOther
  obtain ⟨s₂, reached₂, table₂, filled₂⟩ := reached.filled order second secondOther
  have same₁ := isolated s₁ _ reached₁ le_rfl fun nid => by rw [table₁]
  have same₂ := isolated s₂ _ reached₂ le_rfl fun nid => by rw [table₂]
  exact ⟨s₁, s₂, table₁, table₂, filled₁, filled₂,
    same₁.reply.symm.trans same₂.reply,
    same₁.bindings.symm.trans same₂.bindings⟩

theorem decode_bytes_getElem {n : Nat} {bytes : List UInt8} {offset index : Nat}
    (below : index < n) {byte : UInt8}
    (here : bytes[offset + index]? = some byte) :
    ((FixedCodec.bytes n).decode (bytes.drop offset))[index] = byte := by
  simp [FixedCodec.bytes, here]

theorem decode_bytes_congr {n : Nat} {bytes other : List UInt8} {offset : Nat}
    (same : ∀ index < n, bytes[offset + index]? = other[offset + index]?) :
    (FixedCodec.bytes n).decode (bytes.drop offset) =
      (FixedCodec.bytes n).decode (other.drop offset) := by
  apply Vector.ext
  intro index below
  simp [FixedCodec.bytes, same index below]

section Differ

variable {s : RvsServer} {clock : Nat} {arrival : RvsDatagram}

theorem FromDatagram.update (isolated : FromDatagram arrival s)
    (reached : RvsReached s clock) (order : clock ≤ arrival.now.tvSec)
    (typed : 4 ≤ arrival.datagram.length)
    (kind : msgTypeCodec.decode arrival.datagram = .rvsUpdate) :
    nmsgLen ≤ arrival.datagram.length := by
  by_contra short
  have size : nmsgLen = 88 := rfl
  have limit : rvsBufLen = 256 := rfl
  obtain ⟨s₁, s₂, _, _, filled₁, filled₂, same⟩ := isolated.twins reached order
    (fun index => if index = 0 then 9 else 0)
    (fun index => if index = 0 then 9 else if index = 87 then 1 else 0) rfl rfl
  have nid : nidCodec.decode ((s₁.arrived arrival.datagram).drop 68) =
      nidCodec.decode ((s₂.arrived arrival.datagram).drop 68) := by
    apply decode_bytes_congr
    intro index below
    by_cases inside : 68 + index < arrival.datagram.length
    · rw [arrived_getElem? s₁ inside (by omega),
        arrived_getElem? s₂ inside (by omega)]
    · rw [filled₁.arrived (by omega) (by omega),
        filled₂.arrived (by omega) (by omega)]
      simp only [show 68 + index ≠ 87 by omega, if_false]
  have last₁ := decode_bytes_getElem (show 3 < 4 by decide)
    (filled₁.arrived (show arrival.datagram.length ≤ 84 + 3 by omega)
      (by decide))
  have last₂ := decode_bytes_getElem (show 3 < 4 by decide)
    (filled₂.arrived (show arrival.datagram.length ≤ 84 + 3 by omega)
      (by decide))
  have table₁ := (turn_update ((arrived_type_eq s₁ typed).trans kind)).2
  have table₂ := (turn_update ((arrived_type_eq s₂ typed).trans kind)).2
  have bindings := same.bindings
    (nidCodec.decode ((s₁.arrived arrival.datagram).drop 68))
  rw [table₁, table₂, ← nid] at bindings
  have equal := ((ChainedTable.find_insert_self s₁.rvsTable _ _).symm.trans
    bindings).trans (ChainedTable.find_insert_self s₂.rvsTable _ _)
  have locator : nid32Codec.decode ((s₁.arrived arrival.datagram).drop 84) =
      nid32Codec.decode ((s₂.arrived arrival.datagram).drop 84) :=
    congrArg ConnEntry.ip (Option.some.inj equal)
  have bytes := congrArg (fun ip : NID32 => ip[3]) locator
  exact absurd (last₁.symm.trans (bytes.trans last₂)) (by decide)

theorem FromDatagram.get (isolated : FromDatagram arrival s)
    (reached : RvsReached s clock) (order : clock ≤ arrival.now.tvSec)
    (typed : 4 ≤ arrival.datagram.length)
    (kind : msgTypeCodec.decode arrival.datagram = .rvsGet)
    (short : arrival.datagram.length < 84) {nid : NID}
    (expired : Expired s.rvsTable arrival.now nid) :
    ¬ arrival.datagram.drop 68 <+: nid.toList := by
  intro begins
  obtain ⟨rest, whole⟩ := begins
  have limit : rvsBufLen = 256 := rfl
  obtain ⟨s₁, s₂, table₁, table₂, filled₁, filled₂, same⟩ :=
    isolated.twins reached order
      (fun index => if index < 68 then 9 else nid.toList.getD (index - 68) 0)
      (fun index => if index < 68 then 9 else
        nid.toList.getD (index - 68) 0 + 1) rfl rfl
  have named : nidCodec.decode ((s₁.arrived arrival.datagram).drop 68) =
      nid := by
    apply Vector.ext
    intro index below
    apply decode_bytes_getElem
    have inNid : index < nid.toList.length := by
      rwa [Vector.length_toList]
    by_cases inside : 68 + index < arrival.datagram.length
    · have here : (arrival.datagram.drop 68)[index]? = nid.toList[index]? := by
        rw [← whole, List.getElem?_append_left (by
          rw [List.length_drop]
          omega)]
      rw [arrived_getElem? s₁ inside (by omega), ← List.getElem?_drop, here]
      simp [below]
    · rw [filled₁.arrived (by omega) (by omega), if_neg (by omega),
        Nat.add_sub_cancel_left]
      simp [below]
  have other : nidCodec.decode ((s₂.arrived arrival.datagram).drop 68) ≠
      nid := by
    intro equal
    have last := decode_bytes_getElem (show 15 < 16 by decide)
      (filled₂.arrived (show arrival.datagram.length ≤ 68 + 15 by omega)
        (by decide))
    have bytes := congrArg (fun nid : NID => nid[15]) equal
    have read := last.symm.trans bytes
    simp at read
  have gone := (turn_get ((arrived_type_eq s₁ typed).trans kind)).2
  have kept := (turn_get ((arrived_type_eq s₂ typed).trans kind)).2
  have bindings := same.bindings nid
  rw [gone, kept, named, table₁, table₂, getEntry_of_expired expired,
    hashLookup_getEntry_of_ne (Ne.symm other)] at bindings
  obtain ⟨ce, found, _⟩ := expired
  rw [found] at bindings
  have erased : hashLookup nid (hashDel nid s.rvsTable).2 = none :=
    ChainedTable.find_erase_self s.rvsTable nid
  rw [erased] at bindings
  cases bindings

theorem FromDatagram.typeless (isolated : FromDatagram arrival s)
    (reached : RvsReached s clock) (order : clock ≤ arrival.now.tvSec)
    (nonempty : arrival.datagram ≠ []) (short : arrival.datagram.length < 4)
    {type answer : MsgType} {code reply : UInt8}
    (spelled : msgTypeCodec.encode type = [code, 0, 0, 0])
    (answered : msgTypeCodec.encode answer = [reply, 0, 0, 0])
    (different : reply ≠ code)
    (overwritten : ∀ server : RvsServer,
      msgTypeCodec.decode (server.arrived arrival.datagram) = type →
        (server.turn arrival).1.buf.bytes.take 4 =
          msgTypeCodec.encode answer) :
    ¬ arrival.datagram <+: msgTypeCodec.encode type := by
  intro begins
  obtain ⟨rest, whole⟩ := begins
  have limit : rvsBufLen = 256 := rfl
  have positive := List.length_pos_iff.mpr nonempty
  have count : taken arrival.datagram = arrival.datagram.length :=
    taken_of_le (by omega)
  obtain ⟨s₁, s₂, _, _, filled₁, filled₂, same⟩ := isolated.twins reached order
    (fun index => if index = 0 then 9 else 0) (fun _ => 9) rfl rfl
  have begun : arrival.datagram[0]? = some code := by
    have first := congrArg (fun bytes : List UInt8 => bytes[0]?) whole
    rw [List.getElem?_append_left positive, spelled] at first
    exact first
  have request := filled₁.arrived_type
    (fun index behind _ => if_neg behind.ne') spelled positive short whole
  have shown := congrArg (fun bytes : List UInt8 => bytes[0]?)
    (overwritten s₁ request)
  have filler := filled₂.arrived (show arrival.datagram.length ≤ 3 by omega)
    (by decide)
  have quiet : ∀ type, (msgTypeCodec.encode type)[3]? ≠ some 9 →
      msgTypeCodec.decode (s₂.arrived arrival.datagram) ≠ type :=
    fun type => type_ne_of_byte (by decide) filler
  have echoed := (turn_other (quiet _ (by decide)) (quiet _ (by decide))).1
  have replies := congrArg (fun bytes : List UInt8 => bytes[0]?) same.reply
  simp only [turn_reply, count, echoed] at replies
  rw [List.getElem?_take_of_lt positive, List.getElem?_take_of_lt positive,
    arrived_getElem? s₂ positive (by omega), begun] at replies
  simp only [List.getElem?_take_of_lt (show 0 < 4 by decide), answered,
    replies] at shown
  apply different
  exact (Option.some.inj shown).symm

theorem overwritten_update {server : RvsServer}
    (kind : msgTypeCodec.decode (server.arrived arrival.datagram) =
      .rvsUpdate) :
    (server.turn arrival).1.buf.bytes.take 4 =
      msgTypeCodec.encode .rvsAck := by
  rw [(turn_update kind).1, Buffer.overlay, List.take_zero, List.nil_append]
  exact List.take_left' (length_encode_type _)

theorem overwritten_get {server : RvsServer}
    (kind : msgTypeCodec.decode (server.arrived arrival.datagram) = .rvsGet) :
    (server.turn arrival).1.buf.bytes.take 4 =
      msgTypeCodec.encode .rvsResponse := by
  have room : 84 ≤ (Buffer.overlay 0 (msgTypeCodec.encode .rvsResponse)
      (server.arrived arrival.datagram)).length := by
    rw [Buffer.length_overlay (by rw [length_arrived]; decide),
      length_arrived]
    decide
  rw [(turn_get kind).1, Buffer.take_overlay (by decide) room, Buffer.overlay,
    List.take_zero, List.nil_append]
  exact List.take_left' (length_encode_type _)

/-- An array with an update in it before anything has been received. -/
def requestBuffer : Buffer rvsBufLen :=
  (Buffer.zero rvsBufLen).receive (msgTypeCodec.encode .rvsUpdate)

theorem FromDatagram.empty (isolated : FromDatagram arrival s)
    (reached : RvsReached s clock) (order : clock ≤ arrival.now.tvSec)
    (nothing : arrival.datagram = []) :
    ∃ nid ce, hashLookup nid s.rvsTable = some ce := by
  by_contra vacant
  have absent : ∀ nid, hashLookup nid s.rvsTable = none := by
    intro nid
    by_contra present
    exact vacant ⟨nid, Option.ne_none_iff_exists'.mp present⟩
  obtain ⟨s₁, reached₁, table₁, filled₁⟩ :=
    reached.filled order (fun _ => 9) rfl
  have same₁ := isolated s₁ _ reached₁ le_rfl fun nid => by rw [table₁]
  have same₂ := isolated ⟨requestBuffer, initRvsTable⟩ 0
    ⟨_, [], [], .nil⟩ (Nat.zero_le _) fun nid =>
      (absent nid).trans (hashLookup_initRvsTable nid).symm
  have request : msgTypeCodec.decode
      (RvsServer.arrived ⟨requestBuffer, initRvsTable⟩ arrival.datagram) =
        .rvsUpdate := by
    rw [nothing, arrived_nil]
    exact msgTypeCodec.decode_append .rvsUpdate _
  have filler := filled₁.arrived
    (show arrival.datagram.length ≤ 3 by rw [nothing]; decide) (by decide)
  have kept := (turn_other (type_ne_of_byte (by decide) filler (by decide))
    (type_ne_of_byte (by decide) filler (by decide))).2
  have added := (turn_update request).2
  have bindings := same₁.bindings.symm.trans same₂.bindings
  rw [kept, added, table₁] at bindings
  have entry := bindings (nidCodec.decode
    ((RvsServer.arrived ⟨requestBuffer, initRvsTable⟩
      arrival.datagram).drop 68))
  rw [absent] at entry
  have stored := entry.trans (ChainedTable.find_insert_self initRvsTable _ _)
  cases stored

end Differ

/-- A datagram is served from its own bytes, after this history, exactly if
its type has arrived or what there is of it begins no request, if an update
has arrived whole, if a request has arrived up to the end of its NID or can
name no entry that is over, and if there is an entry where nothing arrives. -/
theorem fromDatagram_iff {s : RvsServer} {clock : Nat} {arrival : RvsDatagram}
    (reached : RvsReached s clock) (order : clock ≤ arrival.now.tvSec) :
    FromDatagram arrival s ↔ SelfContained arrival s.rvsTable := by
  constructor
  · intro isolated
    constructor
    · exact isolated.empty reached order
    · intro nonempty short
      constructor
      · exact isolated.typeless reached order nonempty short rfl rfl
          (by decide) fun _ => overwritten_update
      · exact isolated.typeless reached order nonempty short rfl rfl
          (by decide) fun _ => overwritten_get
    · exact isolated.update reached order
    · intro typed kind
      by_cases named : 84 ≤ arrival.datagram.length
      · exact .inl named
      · right
        intro nid ce found past
        exact isolated.get reached order typed kind (not_le.mp named)
          ⟨ce, found, past⟩
  · intro contained s' clock' reached' _ same
    exact sameTurn_of_selfContained reached reached' same contained

/-- A server which has just started, with zeros on its stack. -/
def startedServer : RvsServer := ⟨Buffer.zero rvsBufLen, initRvsTable⟩

theorem startedServer_reached : RvsReached startedServer 0 :=
  ⟨_, [], [], .nil⟩

def fromProxy (type : MsgType) (nid ip : Nat) : RvsMsg :=
  { type := type
    srcNID := NID.ofNat 3
    destNID := NID.ofNat 6
    srcNIDgw := NID.ofNat 2
    destNIDgw := NID.zero
    nid := NID.ofNat nid
    ip := NID32.ofNat ip }

def registerFive : RvsDatagram :=
  ⟨.ofSec 100, rvsMsgCodec.encode (fromProxy .rvsUpdate 5 50)⟩

def registerEight : RvsDatagram :=
  ⟨.ofSec 101, rvsMsgCodec.encode (fromProxy .rvsUpdate 8 80)⟩

/-- A request which has lost its last bytes, behind the NID. -/
def askFive : RvsDatagram :=
  ⟨.ofSec 102, (rvsMsgCodec.encode (fromProxy .rvsGet 5 0)).take 84⟩

def twoRegistered : RvsServer :=
  ((startedServer.turn registerFive).1.turn registerEight).1

/-- The request is answered from its own bytes, with the locator of the first
update. -/
theorem fromDatagram_request :
    (∃ replies, rvsLoop.Run (startedServer, 0) [registerFive, registerEight]
      replies (twoRegistered, 101)) ∧
      FromDatagram askFive twoRegistered ∧
      (twoRegistered.turn askFive).2 =
        (rvsMsgCodec.encode (fromProxy .rvsResponse 5 50)).take 84 := by
  have first : rvsLoop.Run (startedServer, 0) [registerFive] [_]
      ((startedServer.turn registerFive).1, 100) :=
    Machine.Run.nil.snoc
      (Machine.timed_total_step_iff.mpr ⟨by decide, rfl, rfl, rfl⟩)
  have both : rvsLoop.Run (startedServer, 0) [registerFive, registerEight]
      [_, _] (twoRegistered, 101) :=
    first.snoc (Machine.timed_total_step_iff.mpr ⟨by decide, rfl, rfl, rfl⟩)
  have reached : RvsReached twoRegistered 101 := ⟨_, _, _, both⟩
  refine ⟨⟨_, both⟩, (fromDatagram_iff reached (by decide)).mpr ?_,
    by decide +kernel⟩
  have type : msgTypeCodec.decode askFive.datagram ≠ .rvsUpdate := by
    decide +kernel
  have long : askFive.datagram.length = 84 := by decide +kernel
  constructor
  · intro nothing
    rw [nothing] at long
    cases long
  · intro _ short
    omega
  · intro _ update
    exact (type update).elim
  · intro _ _
    exact .inl long.ge

/-- A response, which the server sends back as it is. -/
def strayResponse : RvsDatagram :=
  { now := .ofSec 0
    datagram := rvsMsgCodec.encode
      { type := .rvsResponse
        srcNID := NID.ofNat 3
        destNID := NID.ofNat 6
        srcNIDgw := NID.ofNat 2
        destNIDgw := NID.zero
        nid := NID.ofNat 5
        ip := NID32.ofNat 50 } }

def bareUpdate : RvsDatagram := ⟨.ofSec 0, msgTypeCodec.encode .rvsUpdate⟩

/-- Behind the response, the four bytes register its NID; behind nothing they
do not. -/
theorem not_fromDatagram : ¬ ∀ s clock arrival, RvsReached s clock →
    clock ≤ arrival.now.tvSec → FromDatagram arrival s := by
  intro isolated
  have echoed : RvsReached (startedServer.turn strayResponse).1 0 :=
    startedServer_reached.turn strayResponse le_rfl
  have table : (startedServer.turn strayResponse).1.rvsTable =
      startedServer.rvsTable := (turn_other (by decide) (by decide)).2
  have same := isolated startedServer 0 bareUpdate startedServer_reached le_rfl
    _ 0 echoed le_rfl fun nid => by rw [table]
  have bindings := same.bindings (NID.ofNat 5)
  revert bindings
  decide

end NodeIdentity
