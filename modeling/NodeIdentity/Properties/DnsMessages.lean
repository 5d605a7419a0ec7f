import NodeIdentity.Library.DnsMessage
import NodeIdentity.Properties.DnsAnswers

/-!
# The messages of the DNS handler as messages of the system

What the handler sends, read by the grammar of whole messages: a message for a
name of the table, and a response of the name server after the handler has
edited it.
-/

namespace NodeIdentity

open NodeIdentity.Library NodeIdentity.Library.DnsWire

/-- The labels of a name which is also a C string. -/
structure TextName (labels : Name) : Prop where
  proper : ∀ label ∈ labels, ProperLabel label
  noNul : ∀ label ∈ labels, 0 ∉ label

theorem TextName.queryName {labels : Name} (text : TextName labels)
    (short : (encodeLabels labels).length < nameLen) {buf : DnsBuffer}
    (found : encodeLabels labels ++ [0] <+: buf.bytes.drop dnshdrLen) :
    DnsBuffer.queryName buf = some (encodeLabels labels) := by
  apply DnsBuffer.queryName_eq_some_iff.mpr
  refine ⟨zero_notMem_encodeLabels text.proper text.noNul, short, ?_⟩
  have whole := Buffer.slice_eq_iff_prefix.mpr found
  rwa [List.length_append, List.length_singleton] at whole

/-- The message for a name of the table: the answer points to the name in the
question, and the authority is a name server without a name. -/
def tableMessage (id : Nat) (labels : Name) (qType : Nat)
    (data : List UInt8) : WireMessage :=
  { id := id
    flags := 34176
    questions := [⟨⟨labels, none⟩, qType, 1⟩]
    answers := [⟨⟨[], some dnshdrLen⟩, qType, 1, 60, data⟩]
    authorities := [⟨⟨[], none⟩, 2, 1, 60, []⟩]
    additionals := [] }

theorem root_valid : WireName.Valid ⟨[], none⟩ := by
  constructor
  · intro label member
    cases member
  · intro target member
    cases member

theorem pointer_valid {target : Nat} (inReach : target < 16384) :
    WireName.Valid ⟨[], some target⟩ := by
  constructor
  · intro label member
    cases member
  · intro other member
    cases member
    exact inReach

theorem TextName.valid {labels : Name} (text : TextName labels) :
    WireName.Valid ⟨labels, none⟩ := by
  constructor
  · exact text.proper
  · intro target member
    cases member

theorem tableMessage_valid {id : Nat} {labels : Name} {qType : Nat}
    {data : List UInt8} (idBelow : id < 65536) (text : TextName labels)
    (typeBelow : qType < 65536) (short : data.length < 65536) :
    messageFormat.Valid (tableMessage id labels qType data) := by
  have one : 1 < 65536 := by decide
  rw [messageFormat_valid_iff]
  simp only [tableMessage, List.forall_mem_singleton,
    questionFormat_valid_iff, recordFormat_valid_iff]
  refine ⟨⟨idBelow, by decide, one, one, one, by decide⟩,
    ⟨text.valid, typeBelow, one⟩,
    ⟨pointer_valid (by decide), typeBelow, one, by decide, short⟩,
    ⟨root_valid, by decide, one, by decide, by decide⟩, ?_⟩
  intro record member
  cases member

theorem TableLayout.bytes_eq {buf : DnsBuffer} {labels : Name}
    {data : List UInt8} {id qType : Nat}
    (layout : TableLayout buf (htons id) (encodeLabels labels) qType data)
    (inside : 40 + (encodeLabels labels).length + data.length ≤ bufferLength) :
    buf.bytes = messageFormat.encode (tableMessage id labels qType data) ++
      List.replicate
        (bufferLength - (40 + (encodeLabels labels).length + data.length))
        0 := by
  have encoded : messageFormat.encode (tableMessage id labels qType data) =
      (htons id ++
        (htons 34176 ++ htons 1 ++ htons 1 ++ htons 1 ++ htons 0)) ++
      ((encodeLabels labels ++ [0]) ++ (htons qType ++ (htons 1 ++
      (htons 49164 ++ (htons qType ++ (htons 1 ++ ((htons 0 ++ htons 60) ++
        (htons data.length ++ (data ++ ([0] ++
        ((htons 2 ++ htons 1 ++ htons 0 ++ htons 60) ++
          List.replicate 2 0))))))))))) := by
    rw [tableMessage, encode_single]
    simp only [encode_question, encode_record, WireName.encode_none,
      WireName.encode_pointer, List.append_assoc]
    rfl
  have length_word : ∀ value, (htons value).length = 2 := length_htons
  have size : bufferLength = 512 := rfl
  rw [encoded]
  apply Buffer.bytes_eq_append
  · apply Buffer.slice_append 12 rfl layout.header
    apply Buffer.slice_append (13 + (encodeLabels labels).length)
      (by rw [List.length_append, List.length_singleton]; omega) (by
        rw [List.length_append]
        exact layout.question)
    apply Buffer.slice_append _ rfl layout.questionType
    apply Buffer.slice_append _ rfl layout.classOfQuestion
    apply Buffer.slice_append _ rfl layout.owner
    apply Buffer.slice_append _ rfl layout.answerType
    apply Buffer.slice_append _ rfl layout.classOfAnswer
    apply Buffer.slice_append _ rfl layout.timeToLive
    apply Buffer.slice_append _ rfl layout.dataLength
    apply Buffer.slice_append _ rfl layout.answerData
    apply Buffer.slice_append (13 + (encodeLabels labels).length + 17 +
      data.length) (by rw [List.length_singleton]; omega) layout.nsName
    apply Buffer.slice_append (13 + (encodeLabels labels).length + 25 +
      data.length) (by simp only [List.length_append, length_word]; omega)
      layout.nsFields
    exact layout.cleared _ 2 le_rfl (by omega)
  · simp only [List.length_append, length_word, List.length_replicate,
      List.length_singleton]
    apply (layout.cleared _ _ (by omega) (by omega)).trans
    apply congrArg fun count => List.replicate count (0 : UInt8)
    omega

theorem htons_word16 {bytes : List UInt8} (length : bytes.length = 2) :
    Buffer.word16 bytes < 65536 ∧ htons (Buffer.word16 bytes) = bytes := by
  obtain ⟨high, low, rfl⟩ := List.length_eq_two.mp length
  have parsed : WireFormat.word16.parse [high, low] =
      some (Buffer.word16 [high, low], []) := rfl
  obtain ⟨below, whole⟩ := (WireFormat.word16.parse_iff _ _ _).mp parsed
  rw [List.append_nil] at whole
  exact ⟨below, whole.symm⟩

/-- The message for a name of the table is one of the grammar: a successful
response with the question, the answer, which points to the name in the
question, and an authority without a name.  Zeros fill the rest. -/
theorem tableMessage_parses {labels : Name} (text : TextName labels)
    (short : (encodeLabels labels).length ≤ 255) {buf : DnsBuffer}
    (found : encodeLabels labels ++ [0] <+: buf.bytes.drop dnshdrLen)
    (nid32addr : NID32) (nidaddr : NID) {qType : Nat}
    (address : qType = typeA ∨ qType = typeAAAA) :
    ∃ next message zeros,
      buildDnsResponseWithFqdnTable buf nid32addr nidaddr qType = some next ∧
      messageFormat.parse next.bytes =
        some (message, List.replicate zeros 0) ∧
      message = tableMessage (Buffer.word16 (buf.slice 0 2)) labels qType
        (addressData nid32addr nidaddr qType) ∧
      message.Response ∧ message.rcode = 0 ∧
      nameAt next.bytes dnshdrLen =
        some (labels, dnshdrLen + (encodeLabels labels).length + 1) := by
  have named := text.queryName (by rw [nameLen]; omega) found
  obtain ⟨next, built, layout⟩ :=
    buildDnsResponseWithFqdnTable_layout named nid32addr nidaddr qType
  have layout := layout address
  obtain ⟨idBelow, id⟩ := htons_word16 (Buffer.length_slice buf
    (show 0 + 2 ≤ bufferLength by decide))
  have small := length_addressData_le nid32addr nidaddr qType
  have typeBelow := addressType_lt address
  rw [← id] at layout
  have bytes := layout.bytes_eq (by
    rw [bufferLength]
    omega)
  have valid := tableMessage_valid idBelow text typeBelow
    (show (addressData nid32addr nidaddr qType).length < 65536 by omega)
  have parsed := messageFormat.parse_encode valid (List.replicate (bufferLength -
    (40 + (encodeLabels labels).length +
      (addressData nid32addr nidaddr qType).length)) 0)
  rw [← bytes] at parsed
  refine ⟨next, _, _, built, parsed, rfl, ?_, ?_, ?_⟩
  · show Nat.testBit 34176 15 = true
    decide
  · show 34176 % 16 = 0
    decide
  · apply nameAt_encodeLabels text.proper
    apply Buffer.slice_eq_iff_prefix.mp
    rw [List.length_append]
    exact layout.question

theorem text_letterName : TextName letterName.labels :=
  ⟨letterName.proper, letterName.noNul⟩

/-- The address of the name `f`. -/
theorem tableMessage_parses_letter : ∃ next message zeros,
    buildDnsResponseWithFqdnTable letterBuffer (NID32.ofNat 7) (NID.ofNat 7)
      typeA = some next ∧
    messageFormat.parse next.bytes = some (message, List.replicate zeros 0) ∧
    message = tableMessage (Buffer.word16 (letterBuffer.slice 0 2))
      letterName.labels typeA
      (addressData (NID32.ofNat 7) (NID.ofNat 7) typeA) ∧
    message.Response ∧ message.rcode = 0 ∧
    nameAt next.bytes dnshdrLen = some (letterName.labels,
      dnshdrLen + (encodeLabels letterName.labels).length + 1) := by
  have found : encodeLabels letterName.labels ++ [0] <+:
      letterBuffer.bytes.drop dnshdrLen := by decide +kernel
  exact tableMessage_parses text_letterName (by decide) found (NID32.ofNat 7)
    (NID.ofNat 7) (.inl rfl)

/-- A response with one question, one answer and one authority, but for the
type of the question and of the answer, and the data of the answer.  The owners
of the records are pointers into the message. -/
structure SingleResponse where
  id : Nat
  flags : Nat
  labels : Name
  questionClass : Nat
  owner : Nat
  answerClass : Nat
  answerTtl : Nat
  nsOwner : Nat
  nsType : Nat
  nsClass : Nat
  nsTtl : Nat
  nsData : List UInt8

namespace SingleResponse

variable (response : SingleResponse)

def message (type : Nat) (data : List UInt8) : WireMessage :=
  { id := response.id
    flags := response.flags
    questions := [⟨⟨response.labels, none⟩, type, response.questionClass⟩]
    answers := [⟨⟨[], some response.owner⟩, type, response.answerClass,
      response.answerTtl, data⟩]
    authorities := [⟨⟨[], some response.nsOwner⟩, response.nsType,
      response.nsClass, response.nsTtl, response.nsData⟩]
    additionals := [] }

def name : List UInt8 := encodeLabels response.labels

def nsFields : List UInt8 :=
  htons (49152 + response.nsOwner) ++ (htons response.nsType ++
    (htons response.nsClass ++ (WireFormat.word32.encode response.nsTtl ++
      htons response.nsData.length)))

theorem length_nsFields : response.nsFields.length = 12 := rfl

/-- Where the fields of the message lie. -/
structure Layout (buf : DnsBuffer) (type : Nat) (data : List UInt8) :
    Prop where
  header : buf.slice 0 12 = htons response.id ++ (htons response.flags ++
    (htons 1 ++ (htons 1 ++ (htons 1 ++ htons 0))))
  question : buf.slice 12 (response.name.length + 1) = response.name ++ [0]
  questionType : buf.slice (13 + response.name.length) 2 = htons type
  answerHead : buf.slice (13 + response.name.length + 2) 4 =
    htons response.questionClass ++ htons (49152 + response.owner)
  answerType : buf.slice (13 + response.name.length + 6) 2 = htons type
  answerFields : buf.slice (13 + response.name.length + 8) 6 =
    htons response.answerClass ++ WireFormat.word32.encode response.answerTtl
  dataLength : buf.slice (13 + response.name.length + 14) 2 =
    htons data.length
  answerData : buf.slice (13 + response.name.length + 16) data.length = data
  nsFields : buf.slice (13 + response.name.length + 16 + data.length) 12 =
    response.nsFields
  nsData : buf.slice (13 + response.name.length + 16 + data.length + 12)
    response.nsData.length = response.nsData

theorem encode_message (type : Nat) (data : List UInt8) :
    messageFormat.encode (response.message type data) =
      (htons response.id ++ (htons response.flags ++ (htons 1 ++ (htons 1 ++
        (htons 1 ++ htons 0))))) ++
      ((response.name ++ [0]) ++ (htons type ++
      ((htons response.questionClass ++ htons (49152 + response.owner)) ++
      (htons type ++ ((htons response.answerClass ++
        WireFormat.word32.encode response.answerTtl) ++
      (htons data.length ++ (data ++
        (response.nsFields ++ response.nsData)))))))) := by
  rw [message, encode_single]
  simp only [encode_question, encode_record, WireName.encode_none,
    WireName.encode_pointer, nsFields, List.append_assoc]
  rfl

theorem length_message (type : Nat) (data : List UInt8) :
    (messageFormat.encode (response.message type data)).length =
      13 + response.name.length + 28 + data.length +
        response.nsData.length := by
  have word32 : ∀ value, (WireFormat.word32.encode value).length = 4 :=
    fun _ => rfl
  simp only [encode_message, List.length_append, length_htons, word32,
    response.length_nsFields, List.length_singleton]
  omega

variable {response} {buf : DnsBuffer} {type : Nat} {data : List UInt8}

theorem Layout.found (layout : response.Layout buf type data) :
    messageFormat.encode (response.message type data) <+: buf.bytes := by
  have whole : buf.slice 0
      (messageFormat.encode (response.message type data)).length =
        messageFormat.encode (response.message type data) := by
    rw [encode_message]
    apply Buffer.slice_append 12 rfl layout.header
    apply Buffer.slice_append (13 + response.name.length)
      (by rw [List.length_append, List.length_singleton]; omega)
      (by
        rw [List.length_append]
        exact layout.question)
    apply Buffer.slice_append _ rfl layout.questionType
    apply Buffer.slice_append _ rfl layout.answerHead
    apply Buffer.slice_append _ rfl layout.answerType
    apply Buffer.slice_append _ rfl layout.answerFields
    apply Buffer.slice_append _ rfl layout.dataLength
    apply Buffer.slice_append _ rfl layout.answerData
    apply Buffer.slice_append _ rfl layout.nsFields
    exact layout.nsData
  exact Buffer.slice_eq_iff_prefix.mp whole

theorem layout_of_found
    (found : messageFormat.encode (response.message type data) <+: buf.bytes) :
    response.Layout buf type data := by
  rw [encode_message, ← List.drop_zero (l := buf.bytes)] at found
  obtain ⟨header, found⟩ := Buffer.slice_prefix 12 rfl found
  obtain ⟨question, found⟩ := Buffer.slice_prefix (13 + response.name.length)
    (by rw [List.length_append, List.length_singleton]; omega) found
  obtain ⟨questionType, found⟩ :=
    Buffer.slice_prefix (13 + response.name.length + 2) rfl found
  obtain ⟨answerHead, found⟩ :=
    Buffer.slice_prefix (13 + response.name.length + 6) rfl found
  obtain ⟨answerType, found⟩ :=
    Buffer.slice_prefix (13 + response.name.length + 8) rfl found
  obtain ⟨answerFields, found⟩ :=
    Buffer.slice_prefix (13 + response.name.length + 14) rfl found
  obtain ⟨dataLength, found⟩ :=
    Buffer.slice_prefix (13 + response.name.length + 16) rfl found
  obtain ⟨answerData, found⟩ :=
    Buffer.slice_prefix (13 + response.name.length + 16 + data.length) rfl found
  obtain ⟨nsFields, found⟩ :=
    Buffer.slice_prefix (13 + response.name.length + 16 + data.length + 12)
      rfl found
  rw [List.length_append] at question
  exact ⟨header, question, questionType, answerHead, answerType, answerFields,
    dataLength, answerData, nsFields, Buffer.slice_eq_iff_prefix.mpr found⟩

theorem Layout.front (layout : response.Layout buf type data) :
    buf.slice 0 (13 + response.name.length) =
      (htons response.id ++ (htons response.flags ++ (htons 1 ++ (htons 1 ++
        (htons 1 ++ htons 0))))) ++ (response.name ++ [0]) := by
  rw [← layout.header, ← layout.question, show 13 + response.name.length =
    12 + (response.name.length + 1) by omega, Buffer.slice_add]

theorem Layout.rcode (layout : response.Layout buf type data) :
    buf.rcode = response.flags % 16 := by
  have last : buf.bytes[3]? = some (UInt8.ofNat response.flags) := by
    have fourth := congrArg (fun bytes : List UInt8 => bytes[3]?) layout.header
    simpa [Buffer.slice, htons, List.getElem?_take, List.getElem?_drop]
      using fourth
  rw [DnsBuffer.rcode, List.getD_eq_getElem?_getD, last, Option.getD_some,
    UInt8.toNat_ofNat']
  omega

theorem Layout.queryName (layout : response.Layout buf type data)
    (text : TextName response.labels) (short : response.name.length < nameLen) :
    DnsBuffer.queryName buf = some response.name :=
  DnsBuffer.queryName_eq_some_iff.mpr
    ⟨zero_notMem_encodeLabels text.proper text.noNul, short, layout.question⟩

theorem Layout.answerLength (layout : response.Layout buf type data)
    (short : data.length < 65536) :
    buf.answerLength response.name = data.length := by
  rw [DnsBuffer.answerLength, layout.dataLength, word16_htons short]

theorem Layout.nsLength (layout : response.Layout buf type data)
    (short : data.length < 65536) (nsShort : response.nsData.length < 65536) :
    buf.nsLength response.name = response.nsData.length := by
  rw [DnsBuffer.nsLength, layout.answerLength short,
    ← Buffer.take_drop_slice buf (show 10 + 2 ≤ 12 by decide),
    layout.nsFields]
  exact word16_htons nsShort

theorem Layout.edited (layout : response.Layout buf typeTXT data)
    (text : TextName response.labels) (success : response.flags % 16 = 0)
    (nsShort : response.nsData.length ≤ nameLen)
    (whole : 13 + response.name.length + 28 + data.length +
      response.nsData.length ≤ bufferLength)
    (nid32addr : NID32) (nidaddr : NID) {qType : Nat}
    (address : qType = typeA ∨ qType = typeAAAA)
    (room : 13 + response.name.length + 28 +
      (addressData nid32addr nidaddr qType).length + nameLen ≤ bufferLength) :
    ∃ next, buildDnsResponse buf nid32addr nidaddr qType = some next ∧
      response.Layout next qType (addressData nid32addr nidaddr qType) := by
  have size : bufferLength = 512 := rfl
  have names : nameLen = 256 := rfl
  have named := layout.queryName text (by omega)
  have code := layout.rcode.trans success
  have answerLength := layout.answerLength (by omega)
  have nsLength := layout.nsLength (by omega) (by omega)
  have sent := sentLength_eq nid32addr nidaddr address data.length
  have fits : ResponseFits buf response.name qType := by
    refine ⟨?_, ?_, fun _ _ => ?_⟩
    · rw [answerLength, nsLength]
      exact whole
    · rw [nsLength]
      exact nsShort
    · rw [answerLength, sent]
      exact room
  obtain ⟨next, built⟩ :=
    (buildDnsResponse_isSome_iff named nid32addr nidaddr).mpr fits
  obtain ⟨edited, answer, moved⟩ := buildDnsResponse_edited named nid32addr
    nidaddr code (by rw [layout.questionType, word16_htons (by decide)]) built
  have nsFields := layout.nsFields
  have nsData := layout.nsData
  rw [answerLength, nsLength, sent, nsFields, nsData] at moved
  have front := moved.front
  refine ⟨next, built, ?_⟩
  exact
    { header := by
        rw [front _ _ (by omega), answer.kept _ _ (by omega), layout.header]
      question := by
        rw [front _ _ (by omega), answer.kept _ _ (by omega), layout.question]
      questionType := by
        rw [front _ _ (by omega), answer.questionType address]
      answerHead := by
        rw [front _ _ (by omega), answer.kept _ _ (by omega),
          layout.answerHead]
      answerType := by
        rw [front _ _ (by omega), answer.answerType address]
      answerFields := by
        rw [front _ _ (by omega), answer.kept _ _ (by omega),
          layout.answerFields]
      dataLength := by
        rw [front _ _ (by omega), answer.dataLength address]
      answerData := by
        rw [front _ _ (by omega), answer.answerData address]
      nsFields := moved.fields
      nsData := moved.data }

theorem valid_message (valid : messageFormat.Valid (response.message type data))
    {other : Nat} (below : other < 65536) {newData : List UInt8}
    (short : newData.length < 65536) :
    messageFormat.Valid (response.message other newData) := by
  rw [messageFormat_valid_iff] at valid ⊢
  simp only [message, List.forall_mem_singleton, questionFormat_valid_iff,
    recordFormat_valid_iff] at valid ⊢
  obtain ⟨header, ⟨name, _, qclass⟩, ⟨owner, _, rclass, ttl, _⟩, rest⟩ := valid
  exact ⟨header, ⟨name, below, qclass⟩, ⟨owner, below, rclass, ttl, short⟩,
    rest⟩

end SingleResponse

/-- A response to the query for a text, as it is sent on: the types of question
and answer and the data of the answer are those of the query for an address,
and nothing else in the message has changed.  Pointers to a name in front of
the type lead to it as before. -/
theorem response_rewritten {response : SingleResponse}
    {received data rest : List UInt8} (text : TextName response.labels)
    (parsed : messageFormat.parse received =
      some (response.message typeTXT data, rest))
    (success : (response.message typeTXT data).rcode = 0)
    (long : 80 ≤ data.length) (nsShort : response.nsData.length ≤ nameLen)
    (whole : received.length ≤ bufferLength) (nid32addr : NID32)
    (nidaddr : NID) {qType : Nat} (address : qType = typeA ∨ qType = typeAAAA)
    (room : 13 + response.name.length + 28 +
      (addressData nid32addr nidaddr qType).length + nameLen ≤ bufferLength)
    (old : DnsBuffer) :
    ∃ next left,
      buildDnsResponse (old.receive received) nid32addr nidaddr qType =
        some next ∧
      (sentOn received next).length = received.length ∧
      messageFormat.parse (sentOn received next) = some (response.message qType
        (addressData nid32addr nidaddr qType), left) ∧
      ∀ target found,
        nameAt (received.take (13 + response.name.length)) target =
          some found →
        nameAt received target = some found ∧
          nameAt (sentOn received next) target = some found := by
  obtain ⟨valid, rfl⟩ := (messageFormat.parse_iff _ _ _).mp parsed
  have bytes := Buffer.bytes_receive_of_le old whole
  have found : messageFormat.encode (response.message typeTXT data) <+:
      (old.receive (messageFormat.encode (response.message typeTXT data) ++
        rest)).bytes := by
    rw [bytes, List.append_assoc]
    exact List.prefix_append _ _
  have layout := SingleResponse.layout_of_found found
  have total : (messageFormat.encode (response.message typeTXT data) ++
      rest).length = 13 + response.name.length + 28 + data.length +
        response.nsData.length + rest.length := by
    rw [List.length_append, response.length_message]
  obtain ⟨next, built, edited⟩ := layout.edited text success nsShort (by omega)
    nid32addr nidaddr address room
  generalize messageFormat.encode (response.message typeTXT data) ++ rest =
    received at *
  have small := length_addressData_le nid32addr nidaddr qType
  have typeBelow := addressType_lt address
  have count : Buffer.received bufferLength received = received.length :=
    Nat.min_eq_left whole
  -- The new message is shorter than the one received.
  obtain ⟨left, sent⟩ : messageFormat.encode (response.message qType
      (addressData nid32addr nidaddr qType)) <+: sentOn received next := by
    rw [sentOn, count]
    apply List.prefix_take_iff.mpr
    refine ⟨edited.found, ?_⟩
    rw [response.length_message]
    omega
  refine ⟨next, left, built, ?_, ?_, ?_⟩
  · rw [sentOn, count, List.length_take, next.length_bytes,
      Nat.min_eq_left whole]
  · rw [← sent]
    exact messageFormat.parse_encode
      (SingleResponse.valid_message valid typeBelow (by omega)) left
  · intro target name here
    refine ⟨nameAt_of_take here, ?_⟩
    have front : (sentOn received next).take (13 + response.name.length) =
        received.take (13 + response.name.length) := by
      have same := edited.front.trans layout.front.symm
      rw [Buffer.slice, Buffer.slice, List.drop_zero, List.drop_zero, bytes,
        List.take_append_of_le_length (by omega)] at same
      rw [sentOn, count, List.take_take, Nat.min_eq_left (by omega), same]
    rw [← front] at here
    exact nameAt_of_take here

/-- A response for the name `f`, whose owners point to the question. -/
def letterSingle : SingleResponse :=
  { id := 7
    flags := 33152
    labels := letterName.labels
    questionClass := 1
    owner := 12
    answerClass := 1
    answerTtl := 60
    nsOwner := 12
    nsType := 2
    nsClass := 1
    nsTtl := 60
    nsData := [1, 110, 192, 12] }

/-- Two NIDs, with the length byte of a text in front. -/
def letterText : List UInt8 := 79 :: (digitNid 49 ++ 44 :: digitNid 50)

theorem letterSingle_valid :
    messageFormat.Valid (letterSingle.message typeTXT letterText) := by
  rw [messageFormat_valid_iff]
  simp only [SingleResponse.message, List.forall_mem_singleton,
    questionFormat_valid_iff, recordFormat_valid_iff]
  refine ⟨by decide, ⟨text_letterName.valid, by decide⟩,
    ⟨pointer_valid (by decide), by decide⟩,
    ⟨pointer_valid (by decide), by decide⟩, ?_⟩
  intro record member
  cases member

/-- The response for `f`, sent on to a query for the address. -/
theorem response_rewritten_letter :
    let received :=
      messageFormat.encode (letterSingle.message typeTXT letterText)
    ∃ next left,
      buildDnsResponse ((Buffer.zero bufferLength).receive received)
        (NID32.ofNat 7) (NID.ofNat 7) typeA = some next ∧
      (sentOn received next).length = received.length ∧
      messageFormat.parse (sentOn received next) = some (letterSingle.message
        typeA (addressData (NID32.ofNat 7) (NID.ofNat 7) typeA), left) ∧
      ∀ target found,
        nameAt (received.take (13 + letterSingle.name.length)) target =
          some found →
        nameAt received target = some found ∧
          nameAt (sentOn received next) target = some found := by
  have parsed := messageFormat.parse_encode letterSingle_valid []
  rw [List.append_nil] at parsed
  have short : (messageFormat.encode
      (letterSingle.message typeTXT letterText)).length ≤ bufferLength := by
    decide +kernel
  exact response_rewritten text_letterName parsed (by decide) (by decide)
    (by decide) short (NID32.ofNat 7) (NID.ofNat 7) (.inl rfl)
    (by decide +kernel) (Buffer.zero bufferLength)

end NodeIdentity
