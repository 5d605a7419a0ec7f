import Mathlib.Tactic.IntervalCases
import NodeIdentity.Library.ByteBuffer
import NodeIdentity.Inet
import NodeIdentity.NidMapper

/-!
# DNS handler

`dnshandler.c` and `fqdn_table.c`.  The handler answers queries for addresses
with the two NIDs it finds in a text record of the name server.  Offsets are
those of the C expressions; `none` is an access outside an array.  The table
of names stores a pointer, and the only array it ever points to is `ansAns`.
-/

namespace NodeIdentity

open NodeIdentity.Library

/-- `BUFFER_LENGTH`. -/
def bufferLength : Nat := 512

/-- `DNS_MAXNAMELENGTH + 1`, the size of the name arrays. -/
def nameLen : Nat := 256

/-- `sizeof(struct dnshdr)`. -/
def dnshdrLen : Nat := 12

/-- `NIDCHAR_MAXLENGTH`. -/
def nidcharMaxLength : Nat := 39

abbrev DnsBuffer := Buffer bufferLength

abbrev NameBuffer := Buffer nameLen

/-- Two bytes in network order. -/
def htons (word : Nat) : List UInt8 :=
  [UInt8.ofNat (word / 256), UInt8.ofNat word]

/-- The types of a query for an address, and of the query made of it. -/
def typeA : Nat := 1

def typeTXT : Nat := 16

def typeAAAA : Nat := 28

namespace DnsBuffer

/-- The name in the question, which `strcpy` takes to an array of names. -/
def queryName (buf : DnsBuffer) : Option (List UInt8) := do
  let name ← Buffer.cstring buf dnshdrLen
  if name.length < nameLen then some name else none

/-- The response code. -/
def rcode (buf : DnsBuffer) : Nat := (buf.bytes.getD 3 0).toNat % 16

end DnsBuffer

/-- The buffer, `fqdn` and `queryType`. -/
def modifyDnsQuery (buf : DnsBuffer) : Option (DnsBuffer × List UInt8 × Nat) := do
  let queryName ← DnsBuffer.queryName buf
  let queryType ← buf.read16 (1 + dnshdrLen + queryName.length)
  if queryType = typeA ∨ queryType = typeAAAA then
    let buf ← buf.write (1 + dnshdrLen + queryName.length) (htons typeTXT)
    return (buf, queryName, queryType)
  else return (buf, queryName, queryType)

/-- The arrays `analyse_dns_response` fills. -/
structure DnsAnswer where
  queryName : NameBuffer
  answerAns : NameBuffer
  nsNs : NameBuffer

/-- `memcpy` of `count` bytes to the front of a cleared array of names. -/
def copyName (buf : DnsBuffer) (offset count : Nat) : Option NameBuffer := do
  let data ← buf.read offset count
  (Buffer.zero nameLen).write 0 data

/-- The data of the answer and of the authority, without the length byte which
a text record has in front.  A length of zero asks `memcpy` for almost all of
the memory. -/
def analyseRecords (buf : DnsBuffer) (strlen : Nat) :
    Option (NameBuffer × NameBuffer) := do
  let answerDataLength ← buf.read16 (1 + dnshdrLen + strlen + 14)
  if answerDataLength = 0 then none
  let answerAns ← copyName buf (dnshdrLen + strlen + 18) (answerDataLength - 1)
  let nsDataLength ← buf.read16 (1 + dnshdrLen + strlen + 26 + answerDataLength)
  if nsDataLength = 0 then none
  let nsNs ← copyName buf (dnshdrLen + strlen + 30 + answerDataLength)
    (nsDataLength - 1)
  return (answerAns, nsNs)

/-- The arrays, and whether the response is successful. -/
def analyseDnsResponse (buf : DnsBuffer) : Option (DnsAnswer × Bool) := do
  let name ← DnsBuffer.queryName buf
  let queryName ← (Buffer.zero nameLen).write 0 name
  if DnsBuffer.rcode buf = 0 then
    let (answerAns, nsNs) ← analyseRecords buf name.length
    return (⟨queryName, answerAns, nsNs⟩, true)
  else
    return (⟨queryName, Buffer.zero nameLen, Buffer.zero nameLen⟩, false)

/-- The two C strings `get_nids` cuts out of a text. -/
structure NidsText where
  nid : List UInt8
  nidr : List UInt8
  deriving DecidableEq

def cstringOf (bytes : List UInt8) : List UInt8 := bytes.takeWhile (· ≠ 0)

def getNids (nidtuple : NameBuffer) : NidsText :=
  { nid := cstringOf (nidtuple.bytes.take nidcharMaxLength)
    nidr := cstringOf
      ((nidtuple.bytes.drop (nidcharMaxLength + 1)).take nidcharMaxLength) }

/-- What `build_dns_response` leaves in the buffer of a response. -/
def buildDnsResponse (buf : DnsBuffer) (nid32addr : NID32) (nidaddr : NID)
    (qType : Nat) : Option DnsBuffer := do
  let queryName ← DnsBuffer.queryName buf
  let question := 1 + dnshdrLen + queryName.length
  let queryType ← buf.read16 question
  let answerDataLength ← buf.read16 (question + 14)
  let ns := question + 16 + answerDataLength
  -- name, type, class, ttl and length of the authority, then its data
  let nsFields ← buf.read ns 12
  let nsDataLength ← buf.read16 (ns + 10)
  let nsNs ← buf.read (ns + 12) nsDataLength
  if nameLen < nsDataLength then none
  let rcode := DnsBuffer.rcode buf
  let buf ←
    if queryType = typeTXT ∧ (qType = typeA ∨ qType = typeAAAA) then
      buf.write question (htons qType)
    else some buf
  if queryType = typeTXT ∧ rcode = 0 then
    let buf ←
      if qType = typeA then do
        let buf ← buf.write (question + 6) (htons typeA)
        let buf ← buf.write (question + 16) nid32addr.toList
        buf.write (question + 14) (htons 4)
      else some buf
    let buf ←
      if qType = typeAAAA then do
        let buf ← buf.write (question + 6) (htons typeAAAA)
        let buf ← buf.write (question + 16) nidaddr.toList
        buf.write (question + 14) (htons 16)
      else some buf
    let answerDataLength ← buf.read16 (question + 14)
    let ns := question + 16 + answerDataLength
    let buf ← buf.write ns nsFields
    let buf ← buf.write (ns + 12) (List.replicate nameLen 0)
    buf.write (ns + 12) nsNs
  else return buf

/-- What `build_dns_response_with_fqdn_table` leaves in the buffer. -/
def buildDnsResponseWithFqdnTable (buf : DnsBuffer) (nid32addr : NID32)
    (nidaddr : NID) (qType : Nat) : Option DnsBuffer := do
  let transaction_id ← buf.read 0 2
  let queryName ← DnsBuffer.queryName buf
  let question := 1 + dnshdrLen + queryName.length
  let buf ← (Buffer.zero bufferLength).write 0 (transaction_id ++ htons 34176 ++
    htons 1 ++ htons 1 ++ htons 1 ++ htons 0 ++ queryName)
  let buf ← buf.write (question + 2) (htons 1)
  let buf ← buf.write (question + 4) (htons 49164)
  let buf ← buf.write (question + 8) (htons 1)
  let buf ← buf.write (question + 10) (htons 0 ++ htons 60)
  if qType = typeA ∨ qType = typeAAAA then
    let data := if qType = typeA then nid32addr.toList else nidaddr.toList
    let buf ← buf.write question (htons qType)
    let buf ← buf.write (question + 6) (htons qType)
    let buf ← buf.write (question + 14) (htons data.length ++ data)
    -- name server, class, time to live
    buf.write (question + 17 + data.length)
      (htons 2 ++ htons 1 ++ htons 0 ++ htons 60)
  else return buf

/-- Where a pointer stored in the table leads. -/
inductive TextRef where
  | ansAns
  deriving DecidableEq

def initFqdnTable : FqdnHashTable TextRef :=
  constructFqdnHashTable 100 hundred_pos

def newFQDNTEntry (fqdn : List UInt8) (nids : TextRef)
    (fqdnTable : FqdnHashTable TextRef) : FqdnHashTable TextRef :=
  (fqdnHashInsert fqdn nids fqdnTable).2

def getNIDsbyName (fqdn : List UInt8) (fqdnTable : FqdnHashTable TextRef) :
    Option TextRef :=
  fqdnHashLookup fqdn fqdnTable

/-- The last three bytes of a NID as a number. -/
def last24bit (nid : NID) : Nat :=
  (nid.toList.drop 13).foldl
    (fun last24bit byte => last24bit * 256 + byte.toNat) 0

/-- The address the handler answers with: `ntohl(last24bit + 16777216)`. -/
def dnsNid32 (nid : NID) : NID32 := NID32.ofNat (last24bit nid + 16777216)

/-- Both NIDs of a text, recorded in the mapper under both tables. -/
structure Resolved where
  nid : NID
  nidr : NID
  nm : NidMapper

/-- The handler gives up on a text that is not two addresses. -/
def resolveNids (text : NidsText) (nm : NidMapper) : Option Resolved := do
  let nid ← inetPton6 text.nid
  let nidr ← inetPton6 text.nidr
  return ⟨nid, nidr, newNMEntry32 (dnsNid32 nid) nid nidr (newNMEntry nid nidr nm)⟩

/-- The variables of `thread_dnshandler` which live from round to round.
`running` ends with a `break`. -/
structure DnsHandler where
  buffer : DnsBuffer
  ansAns : NameBuffer
  fqdnTable : FqdnHashTable TextRef
  running : Bool

def DnsHandler.deref (s : DnsHandler) : TextRef → NameBuffer
  | .ansAns => s.ansAns

/-- What the sockets report in a round: a query, a response when the name
server is asked, and whether the reply could be sent. -/
structure DnsInput where
  query : Option (List UInt8)
  response : Option (List UInt8)
  replied : Bool

/-- The text a round worked with, and where it came from. -/
inductive DnsLog where
  | silent
  | hit (fqdn : List UInt8) (text : NidsText)
  | success (fqdn : List UInt8) (text : NidsText)
  | failure (fqdn : List UInt8)
  deriving DecidableEq

/-- The answer to a query for an address. -/
structure Resolution where
  fqdn : List UInt8
  queryType : Nat
  nid : NID
  deriving DecidableEq

structure DnsRound where
  state : DnsHandler
  nm : NidMapper
  log : DnsLog
  resolution : Option Resolution
  reply : Option (List UInt8)

/-- A round which leaves the loop. -/
def dnsBreak (s : DnsHandler) (nm : NidMapper) (log : DnsLog) : DnsRound :=
  ⟨{ s with running := false }, nm, log, none, none⟩

/-- A name found in the table. -/
def dnsHit (input : DnsInput) (fqdn : List UInt8) (queryType : Nat)
    (ref : TextRef) (s : DnsHandler) (nm : NidMapper) : Option DnsRound := do
  let text := getNids (s.deref ref)
  let log := DnsLog.hit fqdn text
  match resolveNids text nm with
  | some resolved =>
      let buffer ← buildDnsResponseWithFqdnTable s.buffer (dnsNid32 resolved.nid)
        resolved.nid queryType
      let s := { s with buffer := buffer }
      if input.replied then
        return ⟨s, resolved.nm, log, some ⟨fqdn, queryType, resolved.nid⟩,
          some buffer.bytes⟩
      else return dnsBreak s resolved.nm log
  | none => return dnsBreak s nm log

/-- A response of the name server. -/
def dnsMiss (input : DnsInput) (fqdn : List UInt8) (queryType : Nat)
    (response : List UInt8) (s : DnsHandler) (nm : NidMapper) :
    Option DnsRound := do
  let buffer : DnsBuffer := s.buffer.receive response
  let rc := Buffer.received bufferLength response
  let (answer, success) ← analyseDnsResponse buffer
  let s := { s with buffer := buffer, ansAns := answer.answerAns }
  if success then
    let s := { s with fqdnTable := newFQDNTEntry fqdn .ansAns s.fqdnTable }
    let text := getNids s.ansAns
    let log := DnsLog.success fqdn text
    match resolveNids text nm with
    | some resolved =>
        let buffer ← buildDnsResponse s.buffer (dnsNid32 resolved.nid)
          resolved.nid queryType
        let s := { s with buffer := buffer }
        if input.replied then
          return ⟨s, resolved.nm, log, some ⟨fqdn, queryType, resolved.nid⟩,
            some (buffer.bytes.take rc)⟩
        else return dnsBreak s resolved.nm log
    | none => return dnsBreak s nm log
  else
    let log := DnsLog.failure fqdn
    if input.replied then return ⟨s, nm, log, none, some (buffer.bytes.take rc)⟩
    else return dnsBreak s nm log

/-- One round of the loop of `thread_dnshandler`. -/
def threadDnshandler (input : DnsInput) (s : DnsHandler) (nm : NidMapper) :
    Option DnsRound := do
  match input.query with
  | some query =>
      let (buffer, fqdn, queryType) ← modifyDnsQuery (s.buffer.receive query)
      let s := { s with buffer := buffer }
      match getNIDsbyName fqdn s.fqdnTable with
      | some ref => dnsHit input fqdn queryType ref s nm
      | none =>
          match input.response with
          | some response => dnsMiss input fqdn queryType response s nm
          | none => return dnsBreak s nm .silent
  | none => return dnsBreak s nm .silent

/-- The datagram a round sends to the name server: the query, with its type
replaced, for a name which is not in the table. -/
def serverQuery (input : DnsInput) (s : DnsHandler) : Option (List UInt8) := do
  let query ← input.query
  let (buffer, fqdn, _) ← modifyDnsQuery (s.buffer.receive query)
  match getNIDsbyName fqdn s.fqdnTable with
  | some _ => none
  | none => return buffer.bytes.take (Buffer.received bufferLength query)

theorem last24bit_eq {nid : NID} {first second third : UInt8}
    (address : nid2nid32 nid = #v[1, first, second, third]) :
    last24bit nid =
      (first.toNat * 256 + second.toNat) * 256 + third.toNat := by
  have bytes : nid.toList.drop 13 = (nid2nid32 nid).toList.drop 1 := by
    apply List.ext_getElem
    · simp
    · intro index here _
      have short : index < 3 := by simpa using here
      interval_cases index <;> simp [nid2nid32]
  rw [last24bit, bytes, address]
  simp only [Vector.toList_mk, List.drop_succ_cons, List.drop_zero,
    List.foldl_cons, List.foldl_nil, Nat.zero_mul, Nat.zero_add]

theorem dnsNid32_eq (nid : NID) : dnsNid32 nid = nid2nid32 nid := by
  have first := nid[13].toNat_lt
  have second := nid[14].toNat_lt
  have third := nid[15].toNat_lt
  rw [dnsNid32, last24bit_eq rfl]
  simp only [nid2nid32, NID32.ofNat]
  apply Vector.ext
  intro index below
  rw [Vector.getElem_ofFn]
  apply UInt8.toNat_inj.mp
  interval_cases index
  · simp
    omega
  · simp
    omega
  · simp
    omega
  · simp

/-- What `get_nids` reads from a cleared array. -/
def noText : NidsText := ⟨[], []⟩

theorem resolveNids_noText (nm : NidMapper) : resolveNids noText nm = none := by
  simp [resolveNids, noText, inetPton6_nil]

/-- What a round makes of a text: it leaves the loop, or it records the NIDs
and answers with the first of them, if it can send the answer. -/
inductive TextEffect (text : NidsText) (nm : NidMapper) (round : DnsRound) :
    Prop where
  | unresolved : resolveNids text nm = none → round.state.running = false →
      round.nm = nm → round.resolution = none → TextEffect text nm round
  | resolved {resolved : Resolved} :
      resolveNids text nm = some resolved → round.nm = resolved.nm →
      (∀ resolution, round.resolution = some resolution →
        resolution.nid = resolved.nid) →
      TextEffect text nm round

/-- What a round can do, by its log entry. -/
inductive RoundEffect (s : DnsHandler) (nm : NidMapper) (round : DnsRound) :
    Prop where
  | silent : round.log = .silent → round.state.running = false →
      round.nm = nm → round.resolution = none → RoundEffect s nm round
  | hit {fqdn : List UInt8} {ref : TextRef} :
      getNIDsbyName fqdn s.fqdnTable = some ref →
      round.log = .hit fqdn (getNids (s.deref ref)) →
      round.state.ansAns = s.ansAns → round.state.fqdnTable = s.fqdnTable →
      TextEffect (getNids (s.deref ref)) nm round → RoundEffect s nm round
  | success {fqdn : List UInt8} :
      round.log = .success fqdn (getNids round.state.ansAns) →
      round.state.fqdnTable = newFQDNTEntry fqdn .ansAns s.fqdnTable →
      TextEffect (getNids round.state.ansAns) nm round → RoundEffect s nm round
  | failure {fqdn : List UInt8} :
      round.log = .failure fqdn → getNids round.state.ansAns = noText →
      round.state.fqdnTable = s.fqdnTable → round.nm = nm →
      round.resolution = none → RoundEffect s nm round

theorem textEffect_of_reply {text : NidsText} {nm : NidMapper}
    {resolved : Resolved} {s : DnsHandler} {log : DnsLog} {fqdn : List UInt8}
    {queryType : Nat} {reply : List UInt8} {replied : Bool} {round : DnsRound}
    (result : resolveNids text nm = some resolved)
    (ended : (if replied = true then
        some ⟨s, resolved.nm, log, some ⟨fqdn, queryType, resolved.nid⟩,
          some reply⟩
      else some (dnsBreak s resolved.nm log)) = some round) :
    TextEffect text nm round ∧ round.log = log ∧
      round.state.ansAns = s.ansAns ∧ round.state.fqdnTable = s.fqdnTable := by
  split at ended
  · cases ended
    refine ⟨.resolved result rfl ?_, rfl, rfl, rfl⟩
    intro resolution answered
    cases answered
    rfl
  · cases ended
    refine ⟨.resolved result rfl ?_, rfl, rfl, rfl⟩
    intro resolution answered
    cases answered

theorem dnsHit_effect {input : DnsInput} {fqdn : List UInt8}
    {queryType : Nat} {ref : TextRef} {s : DnsHandler} {nm : NidMapper}
    {round : DnsRound} (known : getNIDsbyName fqdn s.fqdnTable = some ref)
    (result : dnsHit input fqdn queryType ref s nm = some round) :
    RoundEffect s nm round := by
  unfold dnsHit at result
  cases resolved : resolveNids (getNids (s.deref ref)) nm with
  | none =>
      simp only [resolved, Option.pure_def, Option.some.injEq] at result
      subst result
      exact .hit known rfl rfl rfl (.unresolved resolved rfl rfl rfl)
  | some nids =>
      simp only [resolved, Option.bind_eq_bind, Option.bind_eq_some_iff]
        at result
      obtain ⟨buffer, _, ended⟩ := result
      obtain ⟨effect, logged, ansAns, table⟩ :=
        textEffect_of_reply resolved ended
      exact .hit known logged ansAns table effect

theorem analyse_failure {buf : DnsBuffer} {answer : DnsAnswer}
    (result : analyseDnsResponse buf = some (answer, false)) :
    getNids answer.answerAns = noText := by
  have cleared : getNids (Buffer.zero nameLen) = noText := by decide +kernel
  simp only [analyseDnsResponse, Option.bind_eq_bind,
    Option.bind_eq_some_iff] at result
  obtain ⟨name, _, queryName, _, result⟩ := result
  split at result
  · obtain ⟨records, _, result⟩ := Option.bind_eq_some_iff.mp result
    cases result
  · cases result
    exact cleared

theorem dnsMiss_effect {input : DnsInput} {fqdn response : List UInt8}
    {queryType : Nat} {s : DnsHandler} {nm : NidMapper} {round : DnsRound}
    (result : dnsMiss input fqdn queryType response s nm = some round) :
    RoundEffect s nm round := by
  simp only [dnsMiss, Option.bind_eq_bind, Option.bind_eq_some_iff] at result
  obtain ⟨⟨answer, success⟩, analysed, result⟩ := result
  cases success with
  | true =>
      simp only [if_true] at result
      cases resolved : resolveNids (getNids answer.answerAns) nm with
      | none =>
          simp only [resolved, Option.pure_def, Option.some.injEq] at result
          subst result
          exact .success rfl rfl (.unresolved resolved rfl rfl rfl)
      | some nids =>
          simp only [resolved, Option.bind_eq_some_iff] at result
          obtain ⟨buffer, _, ended⟩ := result
          obtain ⟨effect, logged, ansAns, table⟩ :=
            textEffect_of_reply resolved ended
          rw [← show round.state.ansAns = answer.answerAns from ansAns]
            at effect logged
          exact .success logged table effect
  | false =>
      have cleared := analyse_failure analysed
      simp only [Bool.false_eq_true, if_false] at result
      split at result
      · cases result
        exact .failure rfl cleared rfl rfl rfl
      · cases result
        exact .failure rfl cleared rfl rfl rfl

theorem RoundEffect.of_buffer {s : DnsHandler} {buffer : DnsBuffer}
    {nm : NidMapper} {round : DnsRound}
    (effect : RoundEffect { s with buffer := buffer } nm round) :
    RoundEffect s nm round := by
  cases effect with
  | silent log stopped nm unanswered =>
      exact .silent log stopped nm unanswered
  | hit known log ansAns table text => exact .hit known log ansAns table text
  | success log table text => exact .success log table text
  | failure log cleared table nm unanswered =>
      exact .failure log cleared table nm unanswered

theorem threadDnshandler_effect {input : DnsInput} {s : DnsHandler}
    {nm : NidMapper} {round : DnsRound}
    (result : threadDnshandler input s nm = some round) :
    RoundEffect s nm round := by
  unfold threadDnshandler at result
  split at result
  · obtain ⟨⟨buffer, fqdn, queryType⟩, _, result⟩ :=
      Option.bind_eq_some_iff.mp result
    simp only at result
    split at result
    · next ref known =>
        have effect : RoundEffect { s with buffer := buffer } nm round :=
          dnsHit_effect known result
        exact effect.of_buffer
    · split at result
      · exact (dnsMiss_effect result).of_buffer
      · cases result
        exact .silent rfl rfl rfl rfl
  · cases result
    exact .silent rfl rfl rfl rfl

end NodeIdentity
