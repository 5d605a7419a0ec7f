import NodeIdentity.Properties.DnsService

/-!
# Bytes of other clients in a reply

A response is received over the front of a buffer which still has what earlier
messages left.  The handler looks for an authority behind the answer, whether
the response has one or not, and moves what it finds there into the reply.
-/

namespace NodeIdentity

open NodeIdentity.Library

/-- The buffer with the response, as if nothing had been there before. -/
def arrived (response : List UInt8) : DnsBuffer :=
  (Buffer.zero bufferLength).receive response

/-- A successful response whose answer has been received whole, and is a text
of two NIDs. -/
structure TextAnswered (response name : List UInt8) : Prop where
  whole : response.length ≤ bufferLength
  named : DnsBuffer.queryName (arrived response) = some name
  success : DnsBuffer.rcode (arrived response) = 0
  inside : 13 + name.length + 16 +
    DnsBuffer.answerLength (arrived response) name ≤ response.length
  text : (responseText (arrived response) name).Proper

/-- The handler sends this reply, in some round and with this in its variables
before it receives the response. -/
def RepliesWith (response : List UInt8) (queryType : Nat) (s : DnsHandler)
    (reply : List UInt8) : Prop :=
  ∃ input fqdn nm round, dnsMiss input fqdn queryType response s nm =
    some round ∧ round.reply = some reply

/-- The reply depends on the response and on the type asked for alone. -/
def Isolated (response : List UInt8) (queryType : Nat) : Prop :=
  ∀ s s' reply reply', RepliesWith response queryType s reply →
    RepliesWith response queryType s' reply' → reply = reply'

def ClientsIsolated : Prop :=
  ∀ response name queryType, TextAnswered response name →
    Isolated response queryType

/-- The twelve bytes of the authority behind the answer have been received, and
all its data. -/
def RecordReceived (response name : List UInt8) : Prop :=
  let ns := 13 + name.length + 16 +
    DnsBuffer.answerLength (arrived response) name
  ns + 12 ≤ response.length ∧
    ns + 12 + DnsBuffer.nsLength (arrived response) name ≤ response.length

def Holds (buf : DnsBuffer) (response : List UInt8) : Prop :=
  buf.bytes.take response.length = response

namespace TextAnswered

variable {response name : List UInt8} {buf : DnsBuffer}

theorem slice (answered : TextAnswered response name)
    (holds : Holds buf response) {place count : Nat}
    (inside : place + count ≤ response.length) :
    buf.slice place count = (arrived response).slice place count := by
  have same : buf.bytes.take response.length =
      (arrived response).bytes.take response.length :=
    holds.trans (Buffer.take_receive _ answered.whole).symm
  exact Buffer.slice_of_take_eq same inside

theorem named_of_holds (answered : TextAnswered response name)
    (holds : Holds buf response) : DnsBuffer.queryName buf = some name := by
  have inside := answered.inside
  obtain ⟨proper, short, whole⟩ :=
    DnsBuffer.queryName_eq_some_iff.mp answered.named
  refine DnsBuffer.queryName_eq_some_iff.mpr ⟨proper, short, ?_⟩
  rw [answered.slice holds (by rw [dnshdrLen]; omega)]
  exact whole

theorem rcode_of_holds (answered : TextAnswered response name)
    (holds : Holds buf response) : buf.rcode = 0 := by
  have inside := answered.inside
  have byte := Buffer.slice_one_eq_iff.mp
    (answered.slice holds (show 3 + 1 ≤ response.length by omega))
  rw [DnsBuffer.rcode, List.getD_eq_getElem?_getD, byte,
    ← List.getD_eq_getElem?_getD]
  exact answered.success

theorem answerLength_of_holds (answered : TextAnswered response name)
    (holds : Holds buf response) :
    buf.answerLength name =
      DnsBuffer.answerLength (arrived response) name := by
  have inside := answered.inside
  rw [DnsBuffer.answerLength, DnsBuffer.answerLength,
    answered.slice holds (by omega)]

theorem long (answered : TextAnswered response name) :
    42 ≤ DnsBuffer.answerLength (arrived response) name := by
  by_contra short
  have empty : ((((arrived response).slice (30 + name.length)
      (DnsBuffer.answerLength (arrived response) name - 1)).drop
        (nidcharMaxLength + 1)).take nidcharMaxLength) = [] := by
    rw [List.drop_of_length_le, List.take_nil]
    rw [Buffer.slice, List.length_take, nidcharMaxLength]
    omega
  have second := answered.text.nidr
  rw [responseText] at second
  simp only [empty] at second
  rw [show cstringOf [] = [] from rfl, inetPton6_nil] at second
  cases second

theorem text_of_holds (answered : TextAnswered response name)
    (holds : Holds buf response) :
    responseText buf name = responseText (arrived response) name := by
  have inside := answered.inside
  have long := answered.long
  rw [responseText, responseText, answered.answerLength_of_holds holds,
    answered.slice holds (by omega)]

end TextAnswered

section Pair

variable {response name : List UInt8} {queryType : Nat} {buf : DnsBuffer}

theorem TextAnswered.reply (answered : TextAnswered response name)
    {s : DnsHandler} {reply : List UInt8}
    (replies : RepliesWith response queryType s reply) :
    ∃ nid next, inetPton6 (responseText (arrived response) name).nid =
        some nid ∧
      ResponseUsable (s.buffer.receive response) name queryType ∧
      buildDnsResponse (s.buffer.receive response) (dnsNid32 nid) nid
        queryType = some next ∧
      reply = next.bytes.take response.length := by
  have holds : Holds (s.buffer.receive response) response :=
    Buffer.take_receive _ answered.whole
  have count : Buffer.received bufferLength response = response.length :=
    Nat.min_eq_left answered.whole
  obtain ⟨input, fqdn, nm, round, result, sent⟩ := replies
  obtain ⟨usable, ansAns, nids, next, resolved, built, _, rfl⟩ :=
    usable_of_reply (answered.named_of_holds holds)
      (answered.rcode_of_holds holds) result
      (by rw [sent]; exact Option.some_ne_none _)
  rw [answered.text_of_holds holds] at resolved
  obtain ⟨nid, first, rest⟩ := Option.bind_eq_some_iff.mp resolved
  obtain ⟨nidr, _, equal⟩ := Option.bind_eq_some_iff.mp rest
  cases equal
  rw [count] at sent
  cases sent
  exact ⟨nid, next, first, usable, built, rfl⟩

theorem TextAnswered.replies (answered : TextAnswered response name)
    (holds : Holds buf response)
    (usable : ResponseUsable buf name queryType) :
    ∃ nid next, inetPton6 (responseText (arrived response) name).nid =
        some nid ∧
      buildDnsResponse buf (dnsNid32 nid) nid queryType = some next ∧
      RepliesWith response queryType
        (dnsStart buf (Buffer.zero nameLen) (initNidMapper true)).handler
        (next.bytes.take response.length) := by
  generalize start : (dnsStart buf (Buffer.zero nameLen)
    (initNidMapper true)).handler = s
  have again : s.buffer.receive response = buf := by
    rw [← start]
    exact Buffer.receive_of_take holds
  have count : Buffer.received bufferLength response = response.length :=
    Nat.min_eq_left answered.whole
  have named := answered.named_of_holds holds
  have success := answered.rcode_of_holds holds
  rw [← again] at usable named success
  obtain ⟨ansAns, nids, next, resolved, built, result⟩ := usable.replied
    ⟨none, none, true⟩ name (initNidMapper true) named success rfl
  rw [again] at built resolved
  rw [answered.text_of_holds holds] at resolved
  obtain ⟨nid, first, rest⟩ := Option.bind_eq_some_iff.mp resolved
  obtain ⟨nidr, _, equal⟩ := Option.bind_eq_some_iff.mp rest
  cases equal
  refine ⟨nid, next, first, built, _, _, _, _, result, ?_⟩
  rw [repliedRound, count]

theorem TextAnswered.nsLength_of_holds (answered : TextAnswered response name)
    (holds : Holds buf response)
    (complete : 13 + name.length + 16 +
      DnsBuffer.answerLength (arrived response) name + 12 ≤ response.length) :
    buf.nsLength name = DnsBuffer.nsLength (arrived response) name := by
  rw [DnsBuffer.nsLength, DnsBuffer.nsLength,
    answered.answerLength_of_holds holds, answered.slice holds (by omega)]

/-- The reply as an edited response, with the length of the answer which has been
received. -/
theorem TextAnswered.edited (answered : TextAnswered response name)
    {next : DnsBuffer} {nid : NID} (holds : Holds buf response)
    (text : Buffer.word16 ((arrived response).slice (13 + name.length) 2) =
      typeTXT)
    (built : buildDnsResponse buf (dnsNid32 nid) nid queryType = some next) :
    ∃ edited, AnswerEdited buf edited (13 + name.length) queryType
        (addressData (dnsNid32 nid) nid queryType) ∧
      AuthorityMoved edited next
        (13 + name.length + 16 + sentLength queryType
          (DnsBuffer.answerLength (arrived response) name))
        (buf.slice (13 + name.length + 16 +
          DnsBuffer.answerLength (arrived response) name) 12)
        (buf.slice (13 + name.length + 16 +
          DnsBuffer.answerLength (arrived response) name + 12)
          (buf.nsLength name)) := by
  have inside := answered.inside
  have question := answered.slice holds
    (show 13 + name.length + 2 ≤ response.length by omega)
  obtain ⟨edited, answer, moved⟩ := buildDnsResponse_edited
    (answered.named_of_holds holds) _ _ (answered.rcode_of_holds holds)
    (by rw [question, text]) built
  rw [answered.answerLength_of_holds holds] at moved
  exact ⟨edited, answer, moved⟩

/-- What is left over makes no difference if the type asked for is not that of
an address, or if the record behind the answer has been received whole. -/
theorem TextAnswered.sent_eq (answered : TextAnswered response name)
    {buf' next next' : DnsBuffer} (holds : Holds buf response)
    (holds' : Holds buf' response) (nid : NID)
    (quiet : ¬ (queryType = typeA ∨ queryType = typeAAAA) ∨
      RecordReceived response name)
    (built : buildDnsResponse buf (dnsNid32 nid) nid queryType = some next)
    (built' : buildDnsResponse buf' (dnsNid32 nid) nid queryType =
      some next')
    (text : Buffer.word16 ((arrived response).slice (13 + name.length) 2) =
      typeTXT) :
    next.bytes.take response.length = next'.bytes.take response.length := by
  have inside := answered.inside
  have long := answered.long
  have same : buf.bytes.take response.length =
      buf'.bytes.take response.length := holds.trans holds'.symm
  have records := ((buildDnsResponse_isSome_iff
    (answered.named_of_holds holds) _ _).mp ⟨next, built⟩).records
  have records' := ((buildDnsResponse_isSome_iff
    (answered.named_of_holds holds') _ _).mp ⟨next', built'⟩).records
  obtain ⟨edited, answer, moved⟩ := answered.edited holds text built
  obtain ⟨edited', answer', moved'⟩ := answered.edited holds' text built'
  have small := length_addressData (dnsNid32 nid) nid queryType
  rw [answered.answerLength_of_holds holds] at records
  rw [answered.answerLength_of_holds holds'] at records'
  by_cases address : queryType = typeA ∨ queryType = typeAAAA
  · obtain ⟨complete, received⟩ := quiet.resolve_left (not_not.mpr address)
    have sent := sentLength_eq (dnsNid32 nid) nid address
    rw [sent] at moved moved'
    rw [answered.nsLength_of_holds holds complete] at records moved
    rw [answered.nsLength_of_holds holds' complete] at records' moved'
    have front := answer.front_eq answer' address same (by omega)
    apply moved.take_eq moved' (by omega) (by omega) same (fun _ => rfl)
    · intro index short below
      omega
    · rintro index below (before | behind)
      · exact Buffer.slice_of_take_eq front before
      · rw [answer.kept _ _ (by omega), answer'.kept _ _ (by omega)]
        exact Buffer.slice_of_take_eq same below
  · obtain rfl := answer.other address
    obtain rfl := answer'.other address
    have sent : ∀ length, sentLength queryType length = length := by
      intro length
      rw [not_or] at address
      rw [sentLength, if_neg address.1, if_neg address.2]
    rw [sent] at moved moved'
    apply moved.take_eq moved' (by omega) (by omega) same
    · intro complete
      rw [answered.nsLength_of_holds holds (by omega),
        answered.nsLength_of_holds holds' (by omega)]
    · intro index _ below
      exact below
    · intro index below _
      exact Buffer.slice_of_take_eq same below

/-- Another byte behind what has been received, and behind the fields of the
records, changes neither. -/
theorem TextAnswered.usable_write (answered : TextAnswered response name)
    {buf' : DnsBuffer} (holds : Holds buf response)
    (usable : ResponseUsable buf name queryType) {index : Nat} {byte : UInt8}
    (behind : response.length ≤ index)
    (fields : 13 + name.length + 16 +
      DnsBuffer.answerLength (arrived response) name + 12 ≤ index)
    (written : buf.write index [byte] = some buf') :
    Holds buf' response ∧ buf'.nsLength name = buf.nsLength name ∧
      ResponseUsable buf' name queryType := by
  have inside := answered.inside
  have kept : ∀ {place count}, place + count ≤ index →
      buf'.slice place count = buf.slice place count :=
    fun before => Buffer.slice_of_write_apart written (.inl before)
  have holds' : Holds buf' response := by
    have front := kept (show 0 + response.length ≤ index by omega)
    rw [Buffer.slice, Buffer.slice, List.drop_zero, List.drop_zero] at front
    exact front.trans holds
  have lengths := answered.answerLength_of_holds holds
  have lengths' := answered.answerLength_of_holds holds'
  have nsLength : buf'.nsLength name = buf.nsLength name := by
    rw [DnsBuffer.nsLength, DnsBuffer.nsLength, lengths, lengths',
      kept (by omega)]
  refine ⟨holds', nsLength, ?_⟩
  have code := answered.rcode_of_holds holds
  have code' := answered.rcode_of_holds holds'
  have question := kept (show 13 + name.length + 2 ≤ index by omega)
  obtain ⟨answer, answerShort, authority, ⟨records, short, room⟩, text⟩ := usable
  rw [answered.text_of_holds holds] at text
  rw [lengths] at answer answerShort records room
  refine ⟨?_, ?_, ?_, ⟨?_, ?_, ?_⟩, ?_⟩
  · exact answer.trans_eq lengths'.symm
  · exact lengths'.trans_le answerShort
  · rwa [nsLength]
  · rwa [lengths', nsLength]
  · rwa [nsLength]
  · intro asked _
    rw [lengths']
    exact room (by rw [← question, asked]) code
  · rwa [answered.text_of_holds holds']

theorem TextAnswered.exists_missing (answered : TextAnswered response name)
    (incomplete : ¬ RecordReceived response name) (holds : Holds buf response)
    (authority : 0 < buf.nsLength name) :
    ∃ index, response.length ≤ index ∧
      13 + name.length + 16 +
          DnsBuffer.answerLength (arrived response) name + 12 ≤ index ∧
      index < 13 + name.length + 16 +
          DnsBuffer.answerLength (arrived response) name + 12 +
            buf.nsLength name ∧
      index < response.length + 13 := by
  have inside := answered.inside
  by_cases complete : 13 + name.length + 16 +
      DnsBuffer.answerLength (arrived response) name + 12 ≤ response.length
  · refine ⟨response.length, le_rfl, complete, ?_, by omega⟩
    by_contra received
    rw [answered.nsLength_of_holds holds complete] at received
    exact incomplete ⟨complete, not_lt.mp received⟩
  · exact ⟨_, by omega, le_rfl, by omega, by omega⟩

theorem TextAnswered.leaks (answered : TextAnswered response name)
    (text : Buffer.word16 ((arrived response).slice (13 + name.length) 2) =
      typeTXT)
    (address : queryType = typeA ∨ queryType = typeAAAA)
    (incomplete : ¬ RecordReceived response name)
    (holds : Holds buf response)
    (usable : ResponseUsable buf name queryType) :
    ¬ Isolated response queryType := by
  have inside := answered.inside
  have long := answered.long
  have records := usable.fits.records
  have authority := usable.authority
  have lengths := answered.answerLength_of_holds holds
  rw [lengths] at records
  obtain ⟨index, behind, data, first, last⟩ :=
    answered.exists_missing incomplete holds (by omega)
  generalize length : DnsBuffer.answerLength (arrived response) name = L at *
  obtain ⟨byte, here⟩ : ∃ byte, buf.bytes[index]? = some byte := by
    have below : index < buf.bytes.length := by
      rw [buf.length_bytes]
      omega
    exact ⟨_, List.getElem?_eq_getElem below⟩
  obtain ⟨buf', written, there, _⟩ := Buffer.exists_write buf
    (show index + [byte + 1].length ≤ bufferLength by
      rw [List.length_singleton]
      omega)
  obtain ⟨holds', nsLength, usable'⟩ := answered.usable_write holds usable
    behind (by rw [length]; exact data) written
  obtain ⟨nid, next, read, built, replies⟩ := answered.replies holds usable
  obtain ⟨nid', next', read', built', replies'⟩ :=
    answered.replies holds' usable'
  cases read.symm.trans read'
  intro isolated
  have same := isolated _ _ _ _ replies replies'
  obtain ⟨edited, _, moved⟩ := answered.edited holds text built
  obtain ⟨edited', _, moved'⟩ := answered.edited holds' text built'
  have small := length_addressData_le (dnsNid32 nid) nid queryType
  rw [sentLength_eq _ _ address, length] at moved
  rw [sentLength_eq _ _ address, length, nsLength] at moved'
  obtain ⟨shift, rfl⟩ := Nat.exists_eq_add_of_le
    (show 13 + name.length + 16 + L ≤ index by omega)
  have moves := Buffer.slice_of_take_eq same (show 13 + name.length + 16 +
    (addressData (dnsNid32 nid) nid queryType).length + shift + 1 ≤
      response.length by omega)
  rw [moved.byte (by omega) (by omega), moved'.byte (by omega) (by omega)]
    at moves
  have found : buf.slice (13 + name.length + 16 + L + shift) 1 = [byte] := by
    rw [Buffer.slice, List.take_one, List.head?_drop, here]
    rfl
  rw [List.length_singleton] at there
  have equal := congrArg UInt8.toNat
    (List.singleton_inj.mp (found.symm.trans (moves.trans there)))
  rw [UInt8.toNat_add] at equal
  have below := byte.toNat_lt
  have one : (1 : UInt8).toNat = 1 := rfl
  omega

end Pair

/-- A reply has nothing from earlier messages exactly if the type asked for is
not that of an address or the question is not for a text, if the record behind
the answer has been received whole, or if no leftovers let the records fit the
arrays of the handler, which then does not reply. -/
theorem isolated_iff {response name : List UInt8} (queryType : Nat)
    (answered : TextAnswered response name) :
    Isolated response queryType ↔
      ¬ (queryType = typeA ∨ queryType = typeAAAA) ∨
      Buffer.word16 ((arrived response).slice (13 + name.length) 2) ≠
        typeTXT ∨
      RecordReceived response name ∨
      ∀ buf, Holds buf response → ¬ ResponseUsable buf name queryType := by
  constructor
  · intro isolated
    by_contra conditions
    simp only [not_or, not_not, not_forall] at conditions
    obtain ⟨address, text, incomplete, buf, holds, usable⟩ := conditions
    rw [← not_or, not_not] at address
    exact answered.leaks text address incomplete holds usable isolated
  · intro conditions s s' reply reply' replies replies'
    have holds : Holds (s.buffer.receive response) response :=
      Buffer.take_receive _ answered.whole
    have holds' : Holds (s'.buffer.receive response) response :=
      Buffer.take_receive _ answered.whole
    obtain ⟨nid, next, read, usable, built, rfl⟩ := answered.reply replies
    obtain ⟨nid', next', read', _, built', rfl⟩ := answered.reply replies'
    cases read.symm.trans read'
    have inside := answered.inside
    by_cases text : Buffer.word16
        ((arrived response).slice (13 + name.length) 2) = typeTXT
    · rcases conditions with other | wrong | complete | never
      · exact answered.sent_eq holds holds' nid (.inl other) built built' text
      · exact (wrong text).elim
      · exact answered.sent_eq holds holds' nid (.inr complete) built built'
          text
      · exact (never _ holds usable).elim
    · rw [buildDnsResponse_of_other (answered.named_of_holds holds) _ _
          (by rwa [answered.slice holds (by omega)]) built,
        buildDnsResponse_of_other (answered.named_of_holds holds') _ _
          (by rwa [answered.slice holds' (by omega)]) built']
      exact holds.trans holds'.symm

theorem answered_letter (response : List UInt8)
    (short : response.length ≤ bufferLength)
    (named : DnsBuffer.queryName (arrived response) = some [1, 102])
    (success : DnsBuffer.rcode (arrived response) = 0)
    (inside : 31 + DnsBuffer.answerLength (arrived response) [1, 102] ≤
      response.length)
    (text : responseText (arrived response) [1, 102] =
      ⟨digitNid 49, digitNid 49⟩) :
    TextAnswered response [1, 102] := by
  have nid : (inetPton6 (digitNid 49)).isSome := by decide +kernel
  refine ⟨short, named, success, inside, ?_⟩
  rw [text]
  exact ⟨nid, nid⟩

/-- With an authority nothing is left over. -/
theorem isolated_letter : Isolated (letterResponse 102 49) typeA := by
  have answered : TextAnswered (letterResponse 102 49) [1, 102] :=
    answered_letter _ (by decide +kernel) (by decide +kernel)
      (by decide +kernel) (by decide +kernel) (by decide +kernel)
  have complete : RecordReceived (letterResponse 102 49) [1, 102] := by
    unfold RecordReceived
    decide +kernel
  exact (isolated_iff typeA answered).mpr (.inr (.inr (.inl complete)))

def bareResponse : List UInt8 := (letterResponse 102 49).take 111

/-- What a longer message may have left behind the place of that record: a
length of one, and a byte of data. -/
def leftover (byte : UInt8) : DnsHandler :=
  (dnsStart ((Buffer.zero bufferLength).receive
    (List.replicate 122 0 ++ [1, byte])) (Buffer.zero nameLen)
      (initNidMapper true)).handler

private theorem replies_leftover (byte : UInt8)
    (found : ((dnsMiss ⟨none, none, true⟩ [] typeA bareResponse (leftover byte)
      (initNidMapper true)).bind DnsRound.reply).any
        (fun reply => reply[47]? == some byte) = true) :
    ∃ reply, RepliesWith bareResponse typeA (leftover byte) reply ∧
      reply[47]? = some byte := by
  obtain ⟨reply, sent, here⟩ := (Option.any_eq_true _ _).mp found
  obtain ⟨round, result, replied⟩ := Option.bind_eq_some_iff.mp sent
  exact ⟨reply, ⟨_, _, _, round, result, replied⟩, eq_of_beq here⟩

/-- Without an authority the byte left over is sent to the client. -/
theorem not_clientsIsolated : ¬ ClientsIsolated := by
  intro isolated
  have answered : TextAnswered bareResponse [1, 102] :=
    answered_letter _ (by decide +kernel) (by decide +kernel)
      (by decide +kernel) (by decide +kernel) (by decide +kernel)
  obtain ⟨reply, replies, here⟩ := replies_leftover 7 (by decide +kernel)
  obtain ⟨reply', replies', there⟩ := replies_leftover 8 (by decide +kernel)
  rw [isolated _ _ _ answered _ _ _ _ replies replies', there] at here
  cases here

end NodeIdentity
