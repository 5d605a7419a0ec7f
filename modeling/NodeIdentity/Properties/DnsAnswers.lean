import NodeIdentity.Library.DnsWire
import NodeIdentity.DnsLayout
import NodeIdentity.Properties.FqdnCache

/-!
# Answers from the name server and from the table

The handler edits the first answer for a name in the message it received, and
writes the later ones into a cleared buffer.  A reader of such messages finds
the same answer in both, but for the classes: the first message keeps those of
the name server, the others have the class of the Internet.
-/

namespace NodeIdentity

open NodeIdentity.Library NodeIdentity.Library.DnsWire

/-- The bytes of a name in a question, up to the empty label. -/
structure QueryName where
  labels : Name
  proper : ∀ label ∈ labels, ProperLabel label
  noNul : ∀ label ∈ labels, 0 ∉ label
  short : (encodeLabels labels).length + 1 ≤ 255

namespace QueryName

def bytes (name : QueryName) : List UInt8 := encodeLabels name.labels

theorem zero_notMem (name : QueryName) : 0 ∉ name.bytes :=
  zero_notMem_encodeLabels name.proper name.noNul

end QueryName

theorem answerOf_of_layout {buf : DnsBuffer} {name : QueryName}
    {data : List UInt8} {id qType questionClass answerClass : Nat}
    (count : Nat) (layout : AnswerLayout buf (htons id) name.bytes qType questionClass
      answerClass data)
    (idBelow : id < 65536) (typeBelow : qType < 65536)
    (questionBelow : questionClass < 65536) (answerBelow : answerClass < 65536)
    (short : data.length < 65536)
    (sent : 13 + name.bytes.length + 16 + data.length ≤ count) :
    ∃ ttl, answerOf (buf.bytes.take count) = some
      ⟨id, ⟨name.labels, qType, questionClass⟩,
        ⟨name.labels, qType, answerClass, ttl, data.length, data⟩⟩ := by
  have found : ∀ (offset : Nat) (field : List UInt8),
      buf.slice offset field.length = field → offset + field.length ≤ count →
        field <+: (buf.bytes.take count).drop offset := by
    intro offset field here inside
    rw [List.drop_take]
    apply List.prefix_take_iff.mpr
    exact ⟨Buffer.slice_eq_iff_prefix.mp here, by omega⟩
  have nameShort : name.bytes.length + 1 ≤ 255 := name.short
  have question : 12 + (encodeLabels name.labels).length + 1 =
      13 + name.bytes.length := by
    rw [QueryName.bytes]
    omega
  have encoded : encodeLabels name.labels ++ [0] <+:
      (buf.bytes.take count).drop 12 := by
    apply found
    · rw [List.length_append]
      exact layout.question
    · rw [List.length_append, List.length_singleton, ← QueryName.bytes]
      omega
  have field : ∀ offset value, buf.slice offset 2 = htons value →
      offset + 2 ≤ count → word value <+: (buf.bytes.take count).drop offset :=
    fun offset value here inside => found offset (htons value) here inside
  have questionRead := questionAt_of_prefix name.proper typeBelow questionBelow
    encoded
    (by
      rw [question]
      exact field _ _ layout.questionType (by omega))
    (by
      rw [question]
      exact field _ _ layout.classOfQuestion (by omega))
  rw [question] at questionRead
  have owner := nameAt_of_pointer name.proper
    (field _ _ layout.owner (by omega)) (by decide) (by decide) encoded
  have ttlLength : (buf.slice (13 + name.bytes.length + 10) 4).length = 4 :=
    Buffer.length_slice _ (by rw [bufferLength]; omega)
  have ttl : buf.slice (13 + name.bytes.length + 10) 4 <+:
      (buf.bytes.take count).drop (13 + name.bytes.length + 10) := by
    apply found
    · rw [ttlLength]
    · omega
  have recordRead := recordAt_of_prefix owner typeBelow answerBelow short
    ttlLength (field _ _ layout.answerType (by omega))
    (field _ _ layout.classOfAnswer (by omega)) ttl
    (field _ _ layout.dataLength (by omega))
    (found _ _ layout.answerData (by omega))
  refine ⟨buf.slice (13 + name.bytes.length + 10) 4, ?_⟩
  simp only [answerOf,
    wordAt_of_prefix idBelow (field 0 id layout.transaction (by omega)),
    wordAt_of_prefix (by decide) (field 4 1 layout.questions (by omega)),
    wordAt_of_prefix (by decide) (field 6 1 layout.answers (by omega)),
    questionRead, recordRead, Option.bind_eq_bind, Option.bind_some, and_self,
    if_true, Option.pure_def]

/-- A successful response to a query for the text of a name: one question, one
text record with two NIDs, and a name server. -/
structure Upstream (nid nidr : NID) where
  id : Nat
  idBelow : id < 65536
  /-- The first byte of the flags, and the second one, which ends with the
  response code. -/
  flags : UInt8 × UInt8
  success : flags.2.toNat % 16 = 0
  name : QueryName
  questionClass : Nat
  questionBelow : questionClass < 65536
  answerClass : Nat
  answerBelow : answerClass < 65536
  ttl : List UInt8
  length_ttl : ttl.length = 4
  nidText : List UInt8
  length_nidText : nidText.length = nidcharMaxLength
  nid_eq : inetPton6 nidText = some nid
  separator : UInt8
  nidrText : List UInt8
  length_nidrText : nidrText.length = nidcharMaxLength
  nidr_eq : inetPton6 nidrText = some nidr
  /-- Pointer to the owner, type, class and time to live. -/
  nsFields : List UInt8
  length_nsFields : nsFields.length = 10
  nsData : List UInt8
  nsData_le : nsData.length ≤ 256

namespace Upstream

variable {nid nidr : NID}

/-- The text record: a length byte, and the two NIDs with a character between
them. -/
def text (response : Upstream nid nidr) : List UInt8 :=
  79 :: (response.nidText ++ response.separator :: response.nidrText)

theorem length_text (response : Upstream nid nidr) :
    response.text.length = 80 := by
  simp [text, response.length_nidText, response.length_nidrText,
    nidcharMaxLength]

/-- The header, the question, the answer and the authority. -/
def encode (response : Upstream nid nidr) : List UInt8 :=
  word response.id ++ ([response.flags.1, response.flags.2] ++
    (word 1 ++ (word 1 ++ (word 1 ++ (word 0 ++
    ((response.name.bytes ++ [0]) ++ (word typeTXT ++
      (word response.questionClass ++
    ([192, 12] ++ (word typeTXT ++ (word response.answerClass ++
      (response.ttl ++ (word response.text.length ++ (response.text ++
    (response.nsFields ++ (word response.nsData.length ++
      response.nsData))))))))))))))))

/-- The response fits into the buffer, and behind the answer of the message
which is sent on there is room for clearing an array of names. -/
structure Fits (response : Upstream nid nidr) (qType : Nat) : Prop where
  whole : response.encode.length ≤ bufferLength
  room : 13 + response.name.bytes.length + 28 + sentLength qType 80 + nameLen ≤
    bufferLength

theorem length_encode (response : Upstream nid nidr) :
    response.encode.length =
      13 + response.name.bytes.length + 108 + response.nsData.length := by
  have length_word : ∀ value, (word value).length = 2 := fun _ => rfl
  simp only [encode, List.length_append, length_word, response.length_ttl,
    response.length_text, response.length_nsFields, List.length_cons,
    List.length_nil]
  omega

/-- Where the handler finds the fields of the response. -/
structure Received (response : Upstream nid nidr) (buf : DnsBuffer) : Prop where
  id : buf.slice 0 2 = htons response.id
  success : buf.rcode = 0
  questions : buf.slice 4 2 = htons 1
  answers : buf.slice 6 2 = htons 1
  named : DnsBuffer.queryName buf = some response.name.bytes
  questionType : buf.slice (13 + response.name.bytes.length) 2 = htons typeTXT
  questionClass : buf.slice (13 + response.name.bytes.length + 2) 2 =
    htons response.questionClass
  owner : buf.slice (13 + response.name.bytes.length + 4) 2 = htons 49164
  answerClass : buf.slice (13 + response.name.bytes.length + 8) 2 =
    htons response.answerClass
  answerLength : buf.answerLength response.name.bytes = 80
  nsLength : buf.nsLength response.name.bytes = response.nsData.length

theorem received (response : Upstream nid nidr)
    (whole : response.encode.length ≤ bufferLength) (old : DnsBuffer) :
    response.Received (old.receive response.encode) := by
  generalize buffer : old.receive response.encode = buf
  have found : response.encode <+: buf.bytes.drop 0 := by
    rw [← buffer, List.drop_zero, Buffer.bytes_receive_of_le old whole]
    exact List.prefix_append _ _
  rw [encode] at found
  obtain ⟨id, found⟩ := Buffer.slice_prefix 2 rfl found
  obtain ⟨flags, found⟩ := Buffer.slice_prefix 4 rfl found
  obtain ⟨questions, found⟩ := Buffer.slice_prefix 6 rfl found
  obtain ⟨answers, found⟩ := Buffer.slice_prefix 8 rfl found
  obtain ⟨_, found⟩ := Buffer.slice_prefix 10 rfl found
  obtain ⟨_, found⟩ := Buffer.slice_prefix 12 rfl found
  obtain ⟨name, found⟩ := Buffer.slice_prefix (13 + response.name.bytes.length)
    (by rw [List.length_append, List.length_singleton]; omega) found
  obtain ⟨questionType, found⟩ :=
    Buffer.slice_prefix (13 + response.name.bytes.length + 2) rfl found
  obtain ⟨questionClass, found⟩ :=
    Buffer.slice_prefix (13 + response.name.bytes.length + 4) rfl found
  obtain ⟨owner, found⟩ :=
    Buffer.slice_prefix (13 + response.name.bytes.length + 6) rfl found
  obtain ⟨_, found⟩ :=
    Buffer.slice_prefix (13 + response.name.bytes.length + 8) rfl found
  obtain ⟨answerClass, found⟩ :=
    Buffer.slice_prefix (13 + response.name.bytes.length + 10) rfl found
  obtain ⟨_, found⟩ :=
    Buffer.slice_prefix (13 + response.name.bytes.length + 14)
    (by rw [response.length_ttl]) found
  obtain ⟨answerLength, found⟩ :=
    Buffer.slice_prefix (13 + response.name.bytes.length + 16) rfl found
  obtain ⟨_, found⟩ :=
    Buffer.slice_prefix (13 + response.name.bytes.length + 16 + 80)
    (by rw [response.length_text]) found
  obtain ⟨_, found⟩ :=
    Buffer.slice_prefix (13 + response.name.bytes.length + 16 + 80 + 10)
    (by rw [response.length_nsFields]) found
  obtain ⟨nsLength, _⟩ :=
    Buffer.slice_prefix (13 + response.name.bytes.length + 16 + 80 + 12)
      rfl found
  have nsData := response.nsData_le
  have answer : DnsBuffer.answerLength buf response.name.bytes = 80 := by
    rw [DnsBuffer.answerLength]
    exact (congrArg Buffer.word16 answerLength).trans
      (by rw [response.length_text]; rfl)
  exact
    { id := id
      success := by
        have last : buf.bytes[3]? = some response.flags.2 := by
          have second := congrArg (fun bytes : List UInt8 => bytes[1]?) flags
          simpa [Buffer.slice, List.getElem?_take, List.getElem?_drop]
            using second
        rw [DnsBuffer.rcode, List.getD_eq_getElem?_getD, last,
          Option.getD_some]
        exact response.success
      questions := questions
      answers := answers
      named := by
        have short : response.name.bytes.length + 1 ≤ 255 :=
          response.name.short
        apply DnsBuffer.queryName_eq_some_iff.mpr
        refine ⟨response.name.zero_notMem, ?_, ?_⟩
        · rw [nameLen]
          omega
        · rw [List.length_append] at name
          exact name
      questionType := questionType
      questionClass := questionClass
      owner := owner
      answerClass := answerClass
      answerLength := answer
      nsLength := by
        rw [DnsBuffer.nsLength, answer]
        exact (congrArg Buffer.word16 nsLength).trans
          (word16_htons (by omega)) }

end Upstream

def sentOn (response : List UInt8) (buf : DnsBuffer) : Message :=
  buf.bytes.take (Buffer.received bufferLength response)

/-- The messages sent for a name carry the same answer, whether the name server
was asked or the table. -/
def AnswersAgree : Prop :=
  ∀ (nid nidr : NID) (response : Upstream nid nidr) (old query : DnsBuffer)
    (qType : Nat), qType = typeA ∨ qType = typeAAAA → response.Fits qType →
    DnsBuffer.queryName query = some response.name.bytes →
    query.slice 0 2 = htons response.id →
    ∃ fresh cached first second,
      buildDnsResponse (old.receive response.encode) (dnsNid32 nid) nid qType =
        some fresh ∧
      buildDnsResponseWithFqdnTable query (dnsNid32 nid) nid qType =
        some cached ∧
      answerOf (sentOn response.encode fresh) = some first ∧
      answerOf cached.bytes = some second ∧ SameAnswer first second

section Answers

variable {nid nidr : NID} (response : Upstream nid nidr) {qType : Nat}

/-- An answer of the handler: the question, and the NID or its address. -/
def handlerAnswer (qType questionClass answerClass : Nat) (ttl : List UInt8) :
    Answer :=
  let data := addressData (dnsNid32 nid) nid qType
  ⟨response.id, ⟨response.name.labels, qType, questionClass⟩,
    ⟨response.name.labels, qType, answerClass, ttl, data.length, data⟩⟩

theorem fresh_answer (old : DnsBuffer)
    (address : qType = typeA ∨ qType = typeAAAA) (fits : response.Fits qType) :
    ∃ fresh ttl,
      buildDnsResponse (old.receive response.encode) (dnsNid32 nid) nid qType =
        some fresh ∧
      answerOf (sentOn response.encode fresh) = some (handlerAnswer response
        qType response.questionClass response.answerClass ttl) := by
  have found := response.received fits.whole old
  have whole := fits.whole
  rw [response.length_encode] at whole
  have records : ResponseFits (old.receive response.encode)
      response.name.bytes qType := by
    refine ⟨?_, ?_, fun _ _ => ?_⟩
    · rw [found.answerLength, found.nsLength]
      omega
    · rw [found.nsLength]
      exact response.nsData_le
    · rw [found.answerLength]
      exact fits.room
  obtain ⟨fresh, built, layout⟩ := buildDnsResponse_layout found.named
    (dnsNid32 nid) nid records address found.success found.questionType
    found.questions found.answers found.questionClass found.owner
    found.answerClass
  rw [found.id] at layout
  have small := length_addressData_le (dnsNid32 nid) nid qType
  have sent : 13 + response.name.bytes.length + 16 +
      (addressData (dnsNid32 nid) nid qType).length ≤
        Buffer.received bufferLength response.encode := by
    rw [Buffer.received, response.length_encode]
    omega
  obtain ⟨ttl, read⟩ := answerOf_of_layout _ layout response.idBelow
    (addressType_lt address) response.questionBelow response.answerBelow (by omega)
    sent
  exact ⟨fresh, ttl, built, read⟩

theorem cached_answer {query : DnsBuffer}
    (named : DnsBuffer.queryName query = some response.name.bytes)
    (id : query.slice 0 2 = htons response.id)
    (address : qType = typeA ∨ qType = typeAAAA) :
    ∃ cached ttl,
      buildDnsResponseWithFqdnTable query (dnsNid32 nid) nid qType =
        some cached ∧
      answerOf cached.bytes = some (handlerAnswer response qType 1 1 ttl) := by
  obtain ⟨cached, built, layout⟩ := buildDnsResponseWithFqdnTable_layout named
    (dnsNid32 nid) nid qType
  have layout := (layout address).toAnswerLayout
  rw [id] at layout
  have small := length_addressData_le (dnsNid32 nid) nid qType
  have short : response.name.bytes.length + 1 ≤ 255 := response.name.short
  obtain ⟨ttl, read⟩ := answerOf_of_layout bufferLength layout
    response.idBelow (addressType_lt address) (by decide) (by decide) (by omega) (by
      rw [bufferLength]
      omega)
  rw [List.take_of_length_le cached.length_bytes.le] at read
  exact ⟨cached, ttl, built, read⟩

theorem sameAnswer_iff {questionClass answerClass : Nat}
    {ttl ttl' : List UInt8} :
    SameAnswer (handlerAnswer response qType questionClass answerClass ttl)
        (handlerAnswer response qType 1 1 ttl') ↔
      questionClass = 1 ∧ answerClass = 1 := by
  constructor
  · intro same
    exact ⟨congrArg Question.qclass same.question, same.rclass⟩
  · rintro ⟨rfl, rfl⟩
    exact ⟨rfl, rfl, rfl, rfl, rfl, rfl, rfl⟩

/-- Both messages answer the question with the address asked for.  They agree
exactly if the name server answered for the class of the Internet. -/
theorem answers_agree_iff {query : DnsBuffer} (old : DnsBuffer)
    (address : qType = typeA ∨ qType = typeAAAA) (fits : response.Fits qType)
    (named : DnsBuffer.queryName query = some response.name.bytes)
    (id : query.slice 0 2 = htons response.id) :
    ∃ fresh cached first second freshTtl cachedTtl,
      buildDnsResponse (old.receive response.encode) (dnsNid32 nid) nid qType =
        some fresh ∧
      buildDnsResponseWithFqdnTable query (dnsNid32 nid) nid qType =
        some cached ∧
      answerOf (sentOn response.encode fresh) = some first ∧
      answerOf cached.bytes = some second ∧
      first = handlerAnswer response qType response.questionClass
        response.answerClass freshTtl ∧
      second = handlerAnswer response qType 1 1 cachedTtl ∧
      (SameAnswer first second ↔
        response.questionClass = 1 ∧ response.answerClass = 1) := by
  obtain ⟨fresh, freshTtl, built, read⟩ := fresh_answer response old address fits
  obtain ⟨cached, cachedTtl, written, readBack⟩ :=
    cached_answer response named id address
  exact ⟨fresh, cached, _, _, freshTtl, cachedTtl, built, written, read,
    readBack, rfl, rfl, sameAnswer_iff response⟩

end Answers

/-- The name `f`. -/
def letterName : QueryName :=
  { labels := [[102]]
    proper := by
      intro label member
      cases List.mem_singleton.mp member
      exact ⟨by decide, by decide⟩
    noNul := by
      intro label member
      cases List.mem_singleton.mp member
      decide
    short := by decide }

def classResponse (asked : Nat) (below : asked < 65536) :
    Upstream (NID.ofNat 1) (NID.ofNat 2) :=
  { id := 0
    idBelow := by decide
    flags := (0, 0)
    success := rfl
    name := letterName
    questionClass := asked
    questionBelow := below
    answerClass := asked
    answerBelow := below
    ttl := [0, 0, 0, 60]
    length_ttl := rfl
    nidText := digitNid 49
    length_nidText := rfl
    nid_eq := by decide +kernel
    separator := 44
    nidrText := digitNid 50
    length_nidrText := rfl
    nidr_eq := by decide +kernel
    nsFields := [192, 12, 0, 2, 0, 1, 0, 0, 0, 60]
    length_nsFields := rfl
    nsData := [1, 0]
    nsData_le := by decide }

theorem classResponse_fits (asked : Nat) (below : asked < 65536) :
    (classResponse asked below).Fits typeA := by
  have name : (classResponse asked below).name = letterName := rfl
  have nsData : (classResponse asked below).nsData = [1, 0] := rfl
  refine ⟨?_, ?_⟩
  · rw [Upstream.length_encode, name, nsData]
    decide
  · rw [name]
    decide

def letterBuffer : DnsBuffer :=
  (Buffer.zero bufferLength).receive (letterQuery 102)

theorem letterBuffer_named :
    DnsBuffer.queryName letterBuffer = some letterName.bytes := by
  decide +kernel

theorem letterBuffer_id : letterBuffer.slice 0 2 = htons 0 := by
  decide +kernel

/-- A response of the class of the Internet. -/
theorem answers_agree_internet : ∃ fresh cached first second,
    buildDnsResponse ((Buffer.zero bufferLength).receive
      (classResponse 1 (by decide)).encode) (dnsNid32 (NID.ofNat 1))
        (NID.ofNat 1) typeA = some fresh ∧
    buildDnsResponseWithFqdnTable letterBuffer (dnsNid32 (NID.ofNat 1))
      (NID.ofNat 1) typeA = some cached ∧
    answerOf (sentOn (classResponse 1 (by decide)).encode fresh) = some first ∧
    answerOf cached.bytes = some second ∧ SameAnswer first second := by
  obtain ⟨fresh, cached, first, second, _, _, built, written, read, readBack,
    _, _, same⟩ := answers_agree_iff (classResponse 1 (by decide))
      (Buffer.zero bufferLength) (.inl rfl) (classResponse_fits 1 (by decide))
      letterBuffer_named letterBuffer_id
  exact ⟨fresh, cached, first, second, built, written, read, readBack,
    same.mpr ⟨rfl, rfl⟩⟩

/-- A name asked for in another class, which the table answers as one of the
Internet. -/
theorem not_answersAgree : ¬ AnswersAgree := by
  intro agree
  have below : 3 < 65536 := by decide
  obtain ⟨fresh, cached, first, second, built, written, read, readBack,
    same⟩ := agree _ _ (classResponse 3 below) (Buffer.zero bufferLength)
      letterBuffer typeA (.inl rfl) (classResponse_fits 3 below)
      letterBuffer_named letterBuffer_id
  obtain ⟨fresh', _, built', read'⟩ := fresh_answer (classResponse 3 below)
    (Buffer.zero bufferLength) (.inl rfl) (classResponse_fits 3 below)
  obtain ⟨cached', _, written', readBack'⟩ := cached_answer
    (classResponse 3 below) letterBuffer_named letterBuffer_id (.inl rfl)
  cases built.symm.trans built'
  cases written.symm.trans written'
  cases read.symm.trans read'
  cases readBack.symm.trans readBack'
  cases ((sameAnswer_iff _).mp same).1

end NodeIdentity
