import NodeIdentity.DnsHandler

/-!
# Layout of the messages of the DNS handler

Where the fields of a message lie once the name in its question is known, and
which of them each function reads and writes.  All offsets before the data of
the answer lie inside the array, since the name has fewer than 256 bytes.
-/

namespace NodeIdentity

open NodeIdentity.Library

/-- The offset of the type in a question for a name of this length. -/
def questionAt (name : List UInt8) : Nat := 13 + name.length

theorem length_htons (word : Nat) : (htons word).length = 2 := rfl

theorem word16_htons {word : Nat} (below : word < 65536) :
    Buffer.word16 (htons word) = word := by
  simp only [Buffer.word16, htons, List.getD_cons_zero, List.getD_cons_succ,
    UInt8.toNat_ofNat']
  omega

namespace DnsBuffer

variable {buf next : DnsBuffer} {name : List UInt8}

theorem queryName_eq_some_iff :
    queryName buf = some name ↔
      0 ∉ name ∧ name.length < nameLen ∧
        Buffer.slice buf dnshdrLen (name.length + 1) = name ++ [0] := by
  simp only [queryName, Option.bind_eq_bind, Option.bind_eq_some_iff,
    Buffer.cstring_eq_some_iff, Option.ite_none_right_eq_some,
    Option.some.injEq]
  constructor
  · rintro ⟨_, ⟨proper, _, whole⟩, short, rfl⟩
    exact ⟨proper, short, whole⟩
  · rintro ⟨proper, short, whole⟩
    refine ⟨name, ⟨proper, ?_, whole⟩, short, rfl⟩
    rw [nameLen] at short
    rw [dnshdrLen, bufferLength]
    omega

/-- The question behind the name lies inside the array, with room for an
address in the answer. -/
theorem questionAt_le (named : queryName buf = some name) :
    questionAt name ≤ 268 := by
  have short := (queryName_eq_some_iff.mp named).2.1
  rw [nameLen] at short
  rw [questionAt]
  omega

theorem queryName_of_write (named : queryName buf = some name) {offset : Nat}
    {data : List UInt8} (written : Buffer.write buf offset data = some next)
    (behind : questionAt name ≤ offset) : queryName next = some name := by
  obtain ⟨proper, short, whole⟩ := queryName_eq_some_iff.mp named
  refine queryName_eq_some_iff.mpr ⟨proper, short, ?_⟩
  rw [questionAt] at behind
  rw [Buffer.slice_of_write_apart written
    (.inl (by rw [dnshdrLen]; omega)), whole]

theorem read16_question {buf : DnsBuffer} {name : List UInt8}
    (named : queryName buf = some name) :
    buf.read16 (1 + dnshdrLen + name.length) =
      some (Buffer.word16 (buf.slice (questionAt name) 2)) := by
  have inside := questionAt_le named
  apply Buffer.read16_eq_some_iff.mpr
  constructor
  · rw [questionAt] at inside
    rw [dnshdrLen, bufferLength]
    omega
  · rfl

end DnsBuffer

/-- The type asked for is replaced if it is the type of an address; nothing
else in the query changes. -/
theorem modifyDnsQuery_eq {buf : DnsBuffer} {name : List UInt8}
    (named : DnsBuffer.queryName buf = some name) :
    ∃ next, modifyDnsQuery buf =
        some (next, name, Buffer.word16 (buf.slice (questionAt name) 2)) ∧
      DnsBuffer.queryName next = some name ∧ next.slice 0 2 = buf.slice 0 2 := by
  have inside := DnsBuffer.questionAt_le named
  have read := DnsBuffer.read16_question named
  simp only [modifyDnsQuery, named, Option.bind_eq_bind, Option.bind_some, read]
  by_cases address : Buffer.word16 (buf.slice (questionAt name) 2) = typeA ∨
      Buffer.word16 (buf.slice (questionAt name) 2) = typeAAAA
  · obtain ⟨next, written⟩ := Buffer.write_isSome_iff.mpr
      (show questionAt name + (htons typeTXT).length ≤ bufferLength by
        rw [length_htons, bufferLength]
        omega)
    refine ⟨next, ?_, DnsBuffer.queryName_of_write named written le_rfl, ?_⟩
    · rw [if_pos address]
      have here : buf.write (1 + dnshdrLen + name.length) (htons typeTXT) =
          some next := written
      rw [here]
      rfl
    · exact Buffer.slice_of_write_apart written
        (.inl (by rw [questionAt]; omega))
  · exact ⟨buf, by rw [if_neg address]; rfl, named, rfl⟩

theorem modifyDnsQuery_of_other {buf : DnsBuffer} {name : List UInt8}
    (named : DnsBuffer.queryName buf = some name)
    (other : ¬ (Buffer.word16 (buf.slice (questionAt name) 2) = typeA ∨
      Buffer.word16 (buf.slice (questionAt name) 2) = typeAAAA)) :
    modifyDnsQuery buf =
      some (buf, name, Buffer.word16 (buf.slice (questionAt name) 2)) := by
  have read := DnsBuffer.read16_question named
  simp only [modifyDnsQuery, named, Option.bind_eq_bind, Option.bind_some,
    read, if_neg other]
  rfl

theorem modifyDnsQuery_isSome_iff {buf : DnsBuffer} :
    (modifyDnsQuery buf).isSome ↔ (DnsBuffer.queryName buf).isSome := by
  cases named : DnsBuffer.queryName buf with
  | none => simp [modifyDnsQuery, named]
  | some name =>
      obtain ⟨next, modified, _⟩ := modifyDnsQuery_eq named
      rw [modified]
      exact iff_of_true rfl rfl

/-- The data of the answer to a query for an address. -/
def addressData (nid32addr : NID32) (nidaddr : NID) (qType : Nat) :
    List UInt8 :=
  if qType = typeA then nid32addr.toList else nidaddr.toList

theorem length_addressData (nid32addr : NID32) (nidaddr : NID) (qType : Nat) :
    (addressData nid32addr nidaddr qType).length =
      if qType = typeA then 4 else 16 := by
  rw [addressData]
  split <;> simp

theorem length_addressData_le (nid32addr : NID32) (nidaddr : NID)
    (qType : Nat) : (addressData nid32addr nidaddr qType).length ≤ 16 := by
  rw [length_addressData]
  split <;> omega

theorem addressType_lt {qType : Nat}
    (address : qType = typeA ∨ qType = typeAAAA) : qType < 65536 := by
  rcases address with rfl | rfl
  · decide
  · decide

/-- The fields of a message which answers one question about `name` with one
record: what lies where. -/
structure AnswerLayout (buf : DnsBuffer) (id name : List UInt8)
    (qType questionClass answerClass : Nat) (data : List UInt8) : Prop where
  transaction : buf.slice 0 2 = id
  questions : buf.slice 4 2 = htons 1
  answers : buf.slice 6 2 = htons 1
  question : buf.slice 12 (name.length + 1) = name ++ [0]
  questionType : buf.slice (13 + name.length) 2 = htons qType
  classOfQuestion : buf.slice (13 + name.length + 2) 2 = htons questionClass
  owner : buf.slice (13 + name.length + 4) 2 = htons 49164
  answerType : buf.slice (13 + name.length + 6) 2 = htons qType
  classOfAnswer : buf.slice (13 + name.length + 8) 2 = htons answerClass
  dataLength : buf.slice (13 + name.length + 14) 2 = htons data.length
  answerData : buf.slice (13 + name.length + 16) data.length = data

/-- The whole message which is written for a name of the table: behind the
answer an authority without a name and without data, and then zeros. -/
structure TableLayout (buf : DnsBuffer) (id name : List UInt8) (qType : Nat)
    (data : List UInt8) : Prop extends
    AnswerLayout buf id name qType 1 1 data where
  header : buf.slice 0 12 =
    id ++ (htons 34176 ++ htons 1 ++ htons 1 ++ htons 1 ++ htons 0)
  timeToLive : buf.slice (13 + name.length + 10) 4 = htons 0 ++ htons 60
  nsName : buf.slice (13 + name.length + 16 + data.length) 1 = [0]
  nsFields : buf.slice (13 + name.length + 17 + data.length) 8 =
    htons 2 ++ htons 1 ++ htons 0 ++ htons 60
  cleared : ∀ place count, 13 + name.length + 25 + data.length ≤ place →
    place + count ≤ bufferLength →
      buf.slice place count = List.replicate count 0

/-- The header and the constant fields of the answer, in a cleared buffer.
They end before any field which depends on the type asked for is written. -/
theorem tableHeader_eq {transaction name : List UInt8}
    (idLength : transaction.length = 2) (short : name.length < nameLen) :
    ∃ b0 b1 b2 b3 b4 : DnsBuffer,
      (Buffer.zero bufferLength).write 0 (transaction ++ htons 34176 ++
        htons 1 ++ htons 1 ++ htons 1 ++ htons 0 ++ name) = some b0 ∧
      b0.write (13 + name.length + 2) (htons 1) = some b1 ∧
      b1.write (13 + name.length + 4) (htons 49164) = some b2 ∧
      b2.write (13 + name.length + 8) (htons 1) = some b3 ∧
      b3.write (13 + name.length + 10) (htons 0 ++ htons 60) = some b4 ∧
      b4.slice 0 12 = transaction ++
        (htons 34176 ++ htons 1 ++ htons 1 ++ htons 1 ++ htons 0) ∧
      b4.slice 12 (name.length + 1) = name ++ [0] ∧
      b4.slice (13 + name.length + 2) 2 = htons 1 ∧
      b4.slice (13 + name.length + 4) 2 = htons 49164 ∧
      b4.slice (13 + name.length + 8) 2 = htons 1 ∧
      b4.slice (13 + name.length + 10) 4 = htons 0 ++ htons 60 ∧
      ∀ place count, 13 + name.length + 14 ≤ place →
        place + count ≤ bufferLength →
          b4.slice place count = List.replicate count 0 := by
  rw [nameLen] at short
  generalize header : transaction ++ htons 34176 ++ htons 1 ++ htons 1 ++
    htons 1 ++ htons 0 ++ name = front
  have frontLength : front.length = 12 + name.length := by
    rw [← header]
    simp only [List.length_append, idLength, length_htons]
  obtain ⟨b0, w0, s0, f0⟩ := Buffer.exists_write (Buffer.zero bufferLength)
    (show 0 + front.length ≤ bufferLength by
      rw [bufferLength]
      omega)
  obtain ⟨b1, w1, s1, f1⟩ := Buffer.exists_write b0
    (show 13 + name.length + 2 + (htons 1).length ≤ bufferLength by
      rw [length_htons, bufferLength]
      omega)
  obtain ⟨b2, w2, s2, f2⟩ := Buffer.exists_write b1
    (show 13 + name.length + 4 + (htons 49164).length ≤ bufferLength by
      rw [length_htons, bufferLength]
      omega)
  obtain ⟨b3, w3, s3, f3⟩ := Buffer.exists_write b2
    (show 13 + name.length + 8 + (htons 1).length ≤ bufferLength by
      rw [length_htons, bufferLength]
      omega)
  obtain ⟨b4, w4, s4, f4⟩ := Buffer.exists_write b3
    (show 13 + name.length + 10 + (htons 0 ++ htons 60).length ≤
      bufferLength by
        rw [List.length_append, length_htons, length_htons, bufferLength]
        omega)
  simp only [length_htons, frontLength] at s0 s1 s2 s3
  simp only [List.length_append, length_htons, frontLength] at f0 f1 f2 f3 f4
  have inFront : ∀ place length, place + length ≤ 12 + name.length →
      b0.slice (0 + place) length = (front.drop place).take length := by
    intro place length inside
    rw [← Buffer.take_drop_slice b0 inside, s0]
  have zeros : ∀ place count, 12 + name.length ≤ place →
      place + count ≤ bufferLength →
        b0.slice place count = List.replicate count 0 := by
    intro place count behind inside
    rw [f0 _ _ (.inr (by omega)), Buffer.slice_zero inside]
  obtain ⟨x, y, rfl⟩ := List.length_eq_two.mp idLength
  subst header
  refine ⟨b0, b1, b2, b3, b4, w0, w1, w2, w3, w4, ?_, ?_, ?_, ?_, ?_, s4, ?_⟩
  · simp (disch := omega) only [f4, f3, f2, f1]
    exact inFront 0 12 (by omega)
  · have inName : b0.slice 12 name.length = name :=
      (inFront 12 name.length (by omega)).trans (by simp [htons])
    have last : b0.slice (12 + name.length) 1 = [0] :=
      zeros _ 1 le_rfl (by rw [bufferLength]; omega)
    rw [Buffer.slice_add]
    simp (disch := omega) only [f4, f3, f2, f1, last, inName]
  · simp (disch := omega) only [f4, f3, f2, s1]
  · simp (disch := omega) only [f4, f3, s2]
  · simp (disch := omega) only [f4, s3]
  · intro place count behind inside
    simp (disch := omega) only [f4, f3, f2, f1]
    exact zeros place count (by omega) inside

/-- The message written for a name of the table is never too long. -/
theorem buildDnsResponseWithFqdnTable_layout {buf : DnsBuffer}
    {name : List UInt8} (named : DnsBuffer.queryName buf = some name)
    (nid32addr : NID32) (nidaddr : NID) (qType : Nat) :
    ∃ next, buildDnsResponseWithFqdnTable buf nid32addr nidaddr qType =
        some next ∧
      (qType = typeA ∨ qType = typeAAAA →
        TableLayout next (buf.slice 0 2) name qType
          (addressData nid32addr nidaddr qType)) := by
  have short := (DnsBuffer.queryName_eq_some_iff.mp named).2.1
  have id : buf.read 0 2 = some (buf.slice 0 2) :=
    Buffer.read_eq_some_iff.mpr ⟨by decide, rfl⟩
  have idLength : (buf.slice 0 2).length = 2 :=
    Buffer.length_slice buf (by decide)
  generalize buf.slice 0 2 = transaction at id idLength
  have question : 1 + dnshdrLen + name.length = 13 + name.length := rfl
  obtain ⟨b0, b1, b2, b3, b4, w0, w1, w2, w3, w4, header, asked, questionClass,
    owner, answerClass, timeToLive, zeros⟩ := tableHeader_eq idLength short
  rw [nameLen] at short
  simp only [buildDnsResponseWithFqdnTable, id, named, Option.bind_eq_bind,
    Option.bind_some, question, w0, w1, w2, w3, w4]
  by_cases address : qType = typeA ∨ qType = typeAAAA
  · rw [if_pos address, ← addressData]
    have small := length_addressData_le nid32addr nidaddr qType
    generalize addressData nid32addr nidaddr qType = data at small
    have size : bufferLength = 512 := rfl
    obtain ⟨b5, w5, s5, f5⟩ := Buffer.exists_write b4
      (show 13 + name.length + (htons qType).length ≤ bufferLength by
        rw [length_htons]
        omega)
    obtain ⟨b6, w6, s6, f6⟩ := Buffer.exists_write b5
      (show 13 + name.length + 6 + (htons qType).length ≤ bufferLength by
        rw [length_htons]
        omega)
    obtain ⟨b7, w7, s7, f7⟩ := Buffer.exists_write b6
      (show 13 + name.length + 14 + (htons data.length ++ data).length ≤
        bufferLength by
          rw [List.length_append, length_htons]
          omega)
    obtain ⟨b8, w8, s8, f8⟩ := Buffer.exists_write b7
      (show 13 + name.length + 17 + data.length +
        (htons 2 ++ htons 1 ++ htons 0 ++ htons 60).length ≤ bufferLength by
          simp only [List.length_append, length_htons]
          omega)
    simp only [List.length_append, length_htons] at s5 s6 s7 s8 f5 f6 f7 f8
    have inData : ∀ place length, place + length ≤ 2 + data.length →
        b7.slice (13 + name.length + 14 + place) length =
          ((htons data.length ++ data).drop place).take length := by
      intro place length inside
      rw [← Buffer.take_drop_slice b7 inside, s7]
    have inHeader : ∀ place length, place + length ≤ 12 →
        b8.slice (0 + place) length = ((transaction ++ (htons 34176 ++
          htons 1 ++ htons 1 ++ htons 1 ++ htons 0)).drop place).take
            length := by
      intro place length inside
      simp (disch := omega) only [f8, f7, f6, f5]
      rw [← Buffer.take_drop_slice b4 inside, header]
    have behind : ∀ place count, 13 + name.length + 16 + data.length ≤ place →
        place + count ≤ 13 + name.length + 17 + data.length ∨
          13 + name.length + 25 + data.length ≤ place →
        place + count ≤ bufferLength →
          b8.slice place count = List.replicate count 0 := by
      intro place count after apart inside
      simp (disch := omega) only [f8, f7, f6, f5]
      exact zeros place count (by omega) inside
    obtain ⟨x, y, rfl⟩ := List.length_eq_two.mp idLength
    refine ⟨b8, ?_, fun _ => ?_⟩
    · simp only [w5, w6, w7, w8, Option.bind_some]
    · refine ⟨⟨?_, ?_, ?_, ?_, ?_, ?_, ?_, ?_, ?_, ?_, ?_⟩, ?_, ?_, ?_, ?_, ?_⟩
      · exact inHeader 0 2 (by omega)
      · exact inHeader 4 2 (by omega)
      · exact inHeader 6 2 (by omega)
      · simp (disch := omega) only [f8, f7, f6, f5, asked]
      · simp (disch := omega) only [f8, f7, f6, s5]
      · simp (disch := omega) only [f8, f7, f6, f5, questionClass]
      · simp (disch := omega) only [f8, f7, f6, f5, owner]
      · simp (disch := omega) only [f8, f7, s6]
      · simp (disch := omega) only [f8, f7, f6, f5, answerClass]
      · rw [f8 _ _ (by omega)]
        exact inData 0 2 (by omega)
      · rw [f8 _ _ (by omega)]
        exact (inData 2 data.length (by omega)).trans (by simp [htons])
      · exact inHeader 0 12 (by omega)
      · simp (disch := omega) only [f8, f7, f6, f5, timeToLive]
      · exact behind _ 1 le_rfl (.inl (by omega)) (by omega)
      · exact s8
      · intro place count after inside
        exact behind place count (by omega) (.inr after) inside
  · rw [if_neg address]
    exact ⟨b4, rfl, fun wrong => (address wrong).elim⟩

namespace DnsBuffer

/-- The length of the data of the answer. -/
def answerLength (buf : DnsBuffer) (name : List UInt8) : Nat :=
  Buffer.word16 (Buffer.slice buf (13 + name.length + 14) 2)

/-- The length of the data of the authority. -/
def nsLength (buf : DnsBuffer) (name : List UInt8) : Nat :=
  Buffer.word16
    (Buffer.slice buf (13 + name.length + 16 + answerLength buf name + 10) 2)

end DnsBuffer

/-- The length of the data in the answer which is sent on. -/
def sentLength (qType answerLength : Nat) : Nat :=
  if qType = typeA then 4 else if qType = typeAAAA then 16 else answerLength

/-- Both records lie inside the array, the data of the second one in an array
of names, and there is room for clearing such an array where the second one
comes to lie. -/
structure ResponseFits (buf : DnsBuffer) (name : List UInt8) (qType : Nat) :
    Prop where
  records : 13 + name.length + 28 + buf.answerLength name + buf.nsLength name ≤
    bufferLength
  short : buf.nsLength name ≤ nameLen
  room : Buffer.word16 (buf.slice (13 + name.length) 2) = typeTXT →
    buf.rcode = 0 →
    13 + name.length + 28 + sentLength qType (buf.answerLength name) + nameLen ≤
      bufferLength

/-- The answer becomes one of another type. -/
def editAnswer (question qType : Nat) (data : List UInt8) (buf : DnsBuffer) :
    Option DnsBuffer := do
  let buf ← buf.write (question + 6) (htons qType)
  let buf ← buf.write (question + 16) data
  buf.write (question + 14) (htons data.length)

/-- The authority comes to lie behind the answer. -/
def moveAuthority (question : Nat) (nsFields nsNs : List UInt8)
    (buf : DnsBuffer) : Option DnsBuffer := do
  let answerDataLength ← buf.read16 (question + 14)
  let buf ← buf.write (question + 16 + answerDataLength) nsFields
  let buf ← buf.write (question + 16 + answerDataLength + 12)
    (List.replicate nameLen 0)
  buf.write (question + 16 + answerDataLength + 12) nsNs

/-- What `build_dns_response` does after it has read the records. -/
def editResponse (question queryType qType : Nat)
    (data nsFields nsNs : List UInt8) (buf : DnsBuffer) : Option DnsBuffer := do
  let rcode := DnsBuffer.rcode buf
  let buf ←
    if queryType = typeTXT ∧ (qType = typeA ∨ qType = typeAAAA) then
      buf.write question (htons qType)
    else some buf
  if queryType = typeTXT ∧ rcode = 0 then
    let buf ←
      if qType = typeA ∨ qType = typeAAAA then
        editAnswer question qType data buf
      else some buf
    moveAuthority question nsFields nsNs buf
  else some buf

theorem buildDnsResponse_eq {buf : DnsBuffer} {name : List UInt8}
    (named : DnsBuffer.queryName buf = some name) (nid32addr : NID32)
    (nidaddr : NID) (qType : Nat) :
    buildDnsResponse buf nid32addr nidaddr qType =
      (buf.read16 (13 + name.length)).bind fun queryType =>
      (buf.read16 (13 + name.length + 14)).bind fun answerDataLength =>
      (buf.read (13 + name.length + 16 + answerDataLength) 12).bind
        fun nsFields =>
      (buf.read16 (13 + name.length + 16 + answerDataLength + 10)).bind
        fun nsDataLength =>
      (buf.read (13 + name.length + 16 + answerDataLength + 12)
        nsDataLength).bind fun nsNs =>
      if nameLen < nsDataLength then none
      else editResponse (13 + name.length) queryType qType
        (addressData nid32addr nidaddr qType) nsFields nsNs buf := by
  unfold buildDnsResponse
  rw [named, Option.bind_eq_bind, Option.bind_some]
  -- The reads are the same on both sides, one by one.
  apply Option.bind_congr
  intro queryType _
  apply Option.bind_congr
  intro answerDataLength _
  apply Option.bind_congr
  intro nsFields _
  apply Option.bind_congr
  intro nsDataLength _
  apply Option.bind_congr
  intro nsNs _
  have question : 1 + dnshdrLen + name.length = 13 + name.length := rfl
  by_cases long : nameLen < nsDataLength
  · simp only [if_pos long]
    rfl
  · simp only [if_neg long]
    by_cases text : queryType = typeTXT
    · by_cases success : buf.rcode = 0
      · by_cases a : qType = typeA
        · have other : typeA ≠ typeAAAA := by decide
          subst a
          simp only [editResponse, editAnswer, moveAuthority, addressData,
            text, success, other, true_and, true_or, if_true, if_false,
            Vector.length_toList, Option.bind_eq_bind, Option.bind_assoc,
            Option.bind_some, question]
        · by_cases aaaa : qType = typeAAAA
          · have other : typeAAAA ≠ typeA := by decide
            subst aaaa
            simp only [editResponse, editAnswer, moveAuthority, addressData,
              text, success, other, true_and, false_or, if_true, if_false,
              Vector.length_toList, Option.bind_eq_bind, Option.bind_assoc,
              Option.bind_some, question]
          · simp only [editResponse, moveAuthority, text, success, a, aaaa,
              or_self, and_false, if_false, if_true, true_and,
              Option.bind_eq_bind, Option.bind_some, question]
      · simp only [editResponse, success, and_false, if_false,
          Option.bind_eq_bind, Option.pure_def]
        rfl
    · simp only [editResponse, text, false_and, if_false]
      rfl

/-- The new answer: its type, the length of its data and the data.  The
question, and class and time to live of the answer, stay. -/
theorem editAnswer_eq (buf : DnsBuffer) {question : Nat} (qType : Nat)
    {data : List UInt8} (fits : question + 16 + data.length ≤ bufferLength) :
    ∃ next, editAnswer question qType data buf = some next ∧
      next.slice (question + 6) 2 = htons qType ∧
      next.slice (question + 14) 2 = htons data.length ∧
      next.slice (question + 16) data.length = data ∧
      ∀ place count, place + count ≤ question + 6 ∨
          question + 8 ≤ place ∧ place + count ≤ question + 14 ∨
          question + 16 + data.length ≤ place →
        next.slice place count = buf.slice place count := by
  obtain ⟨b1, w1, type, kept1⟩ := Buffer.exists_write buf
    (show question + 6 + (htons qType).length ≤ bufferLength by
      rw [length_htons]
      omega)
  obtain ⟨b2, w2, address, kept2⟩ := Buffer.exists_write b1 fits
  obtain ⟨b3, w3, length, kept3⟩ := Buffer.exists_write b2
    (show question + 14 + (htons data.length).length ≤ bufferLength by
      rw [length_htons]
      omega)
  rw [length_htons] at type length kept1 kept3
  refine ⟨b3, ?_, ?_, length, ?_, ?_⟩
  · simp only [editAnswer, w1, w2, w3, Option.bind_eq_bind, Option.bind_some]
  · rw [kept3 _ _ (.inl (by omega)), kept2 _ _ (.inl (by omega)), type]
  · rw [kept3 _ _ (.inr (by omega)), address]
  · intro place count outside
    rw [kept3 _ _ (by omega), kept2 _ _ (by omega), kept1 _ _ (by omega)]

theorem moveAuthority_isSome_iff {buf : DnsBuffer} {question : Nat}
    {nsFields nsNs : List UInt8} (inside : question + 16 ≤ bufferLength)
    (fields : nsFields.length = 12) (short : nsNs.length ≤ nameLen) :
    (∃ next, moveAuthority question nsFields nsNs buf = some next) ↔
      question + 28 + Buffer.word16 (buf.slice (question + 14) 2) + nameLen ≤
        bufferLength := by
  have read : buf.read16 (question + 14) =
      some (Buffer.word16 (buf.slice (question + 14) 2)) :=
    Buffer.read16_eq_some_iff.mpr ⟨by omega, rfl⟩
  generalize Buffer.word16 (buf.slice (question + 14) 2) = length at read
  simp only [moveAuthority, read, Option.bind_eq_bind, Option.bind_some]
  constructor
  · rintro ⟨next, moved⟩
    obtain ⟨b1, _, moved⟩ := Option.bind_eq_some_iff.mp moved
    obtain ⟨b2, cleared, _⟩ := Option.bind_eq_some_iff.mp moved
    have fits := Buffer.fits_of_write cleared
    rw [List.length_replicate] at fits
    omega
  · intro fits
    obtain ⟨b1, w1, _⟩ := Buffer.exists_write buf
      (show question + 16 + length + nsFields.length ≤ bufferLength by omega)
    obtain ⟨b2, w2, _⟩ := Buffer.exists_write b1
      (show question + 16 + length + 12 +
        (List.replicate nameLen (0 : UInt8)).length ≤ bufferLength by
          rw [List.length_replicate]
          omega)
    obtain ⟨b3, w3, _⟩ := Buffer.exists_write b2
      (show question + 16 + length + 12 + nsNs.length ≤ bufferLength by
        omega)
    exact ⟨b3, by simp only [w1, w2, w3, Option.bind_some]⟩

/-- The authority at its new place `ns`, zeros as far as an array of names goes,
and around them what was there before. -/
structure AuthorityMoved (buf next : DnsBuffer) (ns : Nat)
    (nsFields nsNs : List UInt8) : Prop where
  front : ∀ place count, place + count ≤ ns →
    next.slice place count = buf.slice place count
  fields : next.slice ns nsFields.length = nsFields
  data : next.slice (ns + 12) nsNs.length = nsNs
  cleared : ∀ place count, ns + 12 + nsNs.length ≤ place →
    place + count ≤ ns + 12 + nameLen →
      next.slice place count = List.replicate count 0
  behind : ∀ place count, ns + 12 + nameLen ≤ place →
    next.slice place count = buf.slice place count

theorem moveAuthority_moved {buf next : DnsBuffer} {question : Nat}
    {nsFields nsNs : List UInt8} (fields : nsFields.length = 12)
    (short : nsNs.length ≤ nameLen)
    (moved : moveAuthority question nsFields nsNs buf = some next) :
    AuthorityMoved buf next
      (question + 16 + Buffer.word16 (buf.slice (question + 14) 2))
      nsFields nsNs := by
  obtain ⟨length, read, moved⟩ := Option.bind_eq_some_iff.mp moved
  obtain ⟨_, rfl⟩ := Buffer.read16_eq_some_iff.mp read
  generalize Buffer.word16 (buf.slice (question + 14) 2) = length at moved
  obtain ⟨b1, w1, moved⟩ := Option.bind_eq_some_iff.mp moved
  obtain ⟨b2, w2, w3⟩ := Option.bind_eq_some_iff.mp moved
  have zeros := Buffer.slice_of_write w2
  have apart2 : ∀ {place count}, place + count ≤ question + 16 + length + 12 ∨
      question + 16 + length + 12 + nameLen ≤ place →
        b2.slice place count = b1.slice place count := by
    intro place count apart
    apply Buffer.slice_of_write_apart w2
    rwa [List.length_replicate]
  exact
    { front := by
        intro place count before
        rw [Buffer.slice_of_write_apart w3 (.inl (by omega)),
          apart2 (.inl (by omega)),
          Buffer.slice_of_write_apart w1 (.inl before)]
      fields := by
        rw [Buffer.slice_of_write_apart w3 (.inl (by omega)),
          apart2 (.inl (by omega)), Buffer.slice_of_write w1]
      data := Buffer.slice_of_write w3
      cleared := by
        intro place count after inside
        rw [Buffer.slice_of_write_apart w3 (.inr after)]
        rw [List.length_replicate] at zeros
        obtain ⟨skip, rfl⟩ := Nat.exists_eq_add_of_le
          (show question + 16 + length + 12 ≤ place by omega)
        rw [← Buffer.take_drop_slice b2 (show skip + count ≤ nameLen by omega),
          zeros, List.drop_replicate, List.take_replicate,
          Nat.min_eq_left (by omega)]
      behind := by
        intro place count after
        rw [Buffer.slice_of_write_apart w3 (.inr (by omega)),
          apart2 (.inr after),
          Buffer.slice_of_write_apart w1 (.inr (by omega))] }

theorem AuthorityMoved.byte {buf edited next : DnsBuffer} {ns place length : Nat}
    (moved : AuthorityMoved edited next ns (buf.slice place 12)
      (buf.slice (place + 12) length))
    (inside : place + 12 + length ≤ bufferLength) {index : Nat}
    (short : index < 12 + length) :
    next.slice (ns + index) 1 = buf.slice (place + index) 1 := by
  by_cases field : index < 12
  · have fields := moved.fields
    rw [Buffer.length_slice buf (by omega)] at fields
    rw [← Buffer.take_drop_slice next (show index + 1 ≤ 12 by omega), fields,
      Buffer.take_drop_slice buf (by omega)]
  · obtain ⟨index, rfl⟩ := Nat.exists_eq_add_of_le (not_lt.mp field)
    have data := moved.data
    rw [Buffer.length_slice buf (by omega)] at data
    rw [← Nat.add_assoc, ← Nat.add_assoc,
      ← Buffer.take_drop_slice next (show index + 1 ≤ length by omega), data,
      Buffer.take_drop_slice buf (by omega)]

/-- Two buffers with the same front keep it, as long as what moves into it has
come from it. -/
theorem AuthorityMoved.take_eq
    {buf buf' edited edited' next next' : DnsBuffer}
    {ns place length length' count : Nat}
    (moved : AuthorityMoved edited next ns (buf.slice place 12)
      (buf.slice (place + 12) length))
    (moved' : AuthorityMoved edited' next' ns (buf'.slice place 12)
      (buf'.slice (place + 12) length'))
    (inside : place + 12 + length ≤ bufferLength)
    (inside' : place + 12 + length' ≤ bufferLength)
    (same : buf.bytes.take count = buf'.bytes.take count)
    (lengths : ns + 12 < count → length = length')
    (source : ∀ index < 12 + length, ns + index < count →
      place + index < count)
    (around : ∀ index < count, index < ns ∨ ns + 12 + nameLen ≤ index →
      edited.slice index 1 = edited'.slice index 1) :
    next.bytes.take count = next'.bytes.take count := by
  apply Buffer.take_eq_of_slices
  intro index below
  by_cases before : index < ns
  · rw [moved.front _ _ before, moved'.front _ _ before]
    exact around index below (.inl before)
  · obtain ⟨index, rfl⟩ := Nat.exists_eq_add_of_le (not_lt.mp before)
    by_cases field : index < 12
    · rw [moved.byte inside (by omega), moved'.byte inside' (by omega)]
      exact Buffer.slice_of_take_eq same (source index (by omega) below)
    · obtain rfl := lengths (by omega)
      by_cases data : index < 12 + length
      · rw [moved.byte inside data, moved'.byte inside' data]
        exact Buffer.slice_of_take_eq same (source index data below)
      · by_cases cleared : index < 12 + nameLen
        · have read := Buffer.length_slice buf inside
          have read' := Buffer.length_slice buf' inside
          rw [moved.cleared _ _ (by omega) (by omega),
            moved'.cleared _ _ (by omega) (by omega)]
        · rw [moved.behind _ _ (by omega), moved'.behind _ _ (by omega)]
          exact around _ below (.inr (by omega))

theorem sentLength_eq (nid32addr : NID32) (nidaddr : NID) {qType : Nat}
    (address : qType = typeA ∨ qType = typeAAAA) (answerLength : Nat) :
    sentLength qType answerLength =
      (addressData nid32addr nidaddr qType).length := by
  rw [length_addressData, sentLength]
  rcases address with rfl | rfl
  · rfl
  · rfl

/-- The buffer once question and answer are those to the query for an address;
for a query of another type they stay. -/
structure AnswerEdited (buf edited : DnsBuffer) (question qType : Nat)
    (data : List UInt8) : Prop where
  length : Buffer.word16 (edited.slice (question + 14) 2) =
    sentLength qType (Buffer.word16 (buf.slice (question + 14) 2))
  questionType : qType = typeA ∨ qType = typeAAAA →
    edited.slice question 2 = htons qType
  answerType : qType = typeA ∨ qType = typeAAAA →
    edited.slice (question + 6) 2 = htons qType
  dataLength : qType = typeA ∨ qType = typeAAAA →
    edited.slice (question + 14) 2 = htons data.length
  answerData : qType = typeA ∨ qType = typeAAAA →
    edited.slice (question + 16) data.length = data
  kept : ∀ place count, place + count ≤ question ∨
      question + 2 ≤ place ∧ place + count ≤ question + 6 ∨
      question + 8 ≤ place ∧ place + count ≤ question + 14 ∨
      question + 16 + data.length ≤ place →
    edited.slice place count = buf.slice place count
  other : ¬ (qType = typeA ∨ qType = typeAAAA) → edited = buf

/-- Up to the end of the new answer the edited buffer depends on what was in
front of the old one's data alone. -/
theorem AnswerEdited.front_eq {buf buf' edited edited' : DnsBuffer}
    {question qType limit : Nat} {data : List UInt8}
    (answer : AnswerEdited buf edited question qType data)
    (answer' : AnswerEdited buf' edited' question qType data)
    (address : qType = typeA ∨ qType = typeAAAA)
    (same : buf.bytes.take limit = buf'.bytes.take limit)
    (inside : question + 16 ≤ limit) :
    edited.bytes.take (question + 16 + data.length) =
      edited'.bytes.take (question + 16 + data.length) := by
  have kept : ∀ place count, place + count ≤ question ∨
      question + 2 ≤ place ∧ place + count ≤ question + 6 ∨
      question + 8 ≤ place ∧ place + count ≤ question + 14 →
        edited.slice place count = edited'.slice place count := by
    intro place count outside
    rw [answer.kept _ _ (by omega), answer'.kept _ _ (by omega)]
    exact Buffer.slice_of_take_eq same (by omega)
  have type := (answer.questionType address).trans
    (answer'.questionType address).symm
  have answerType := (answer.answerType address).trans
    (answer'.answerType address).symm
  have length := (answer.dataLength address).trans
    (answer'.dataLength address).symm
  have filled := (answer.answerData address).trans
    (answer'.answerData address).symm
  have add : ∀ {place first second : Nat} (next : Nat), place + first = next →
      edited.slice place first = edited'.slice place first →
        edited.slice next second = edited'.slice next second →
          edited.slice place (first + second) =
            edited'.slice place (first + second) := by
    rintro place first second _ rfl here behind
    rw [Buffer.slice_add, Buffer.slice_add, here, behind]
  have whole := add question (Nat.zero_add question)
    (kept 0 question (.inl (by omega)))
    (add (question + 2) rfl type
      (add (question + 6) rfl (kept (question + 2) 4 (by omega))
        (add (question + 8) rfl answerType
          (add (question + 14) rfl (kept (question + 8) 6 (by omega))
            (add (question + 16) rfl length filled)))))
  have total : question + (2 + (4 + (2 + (6 + (2 + data.length))))) =
      question + 16 + data.length := by omega
  rw [total] at whole
  exact whole

theorem editResponse_eq {buf : DnsBuffer} {question : Nat}
    (nid32addr : NID32) (nidaddr : NID) (qType : Nat)
    (nsFields nsNs : List UInt8) (inside : question + 32 ≤ bufferLength)
    (success : buf.rcode = 0) :
    ∃ edited : DnsBuffer,
      editResponse question typeTXT qType (addressData nid32addr nidaddr qType)
          nsFields nsNs buf = moveAuthority question nsFields nsNs edited ∧
      AnswerEdited buf edited question qType
        (addressData nid32addr nidaddr qType) := by
  by_cases address : qType = typeA ∨ qType = typeAAAA
  · have sent := sentLength_eq nid32addr nidaddr address
    have small := length_addressData_le nid32addr nidaddr qType
    generalize addressData nid32addr nidaddr qType = data at sent small
    obtain ⟨b1, w1, type, kept1⟩ := Buffer.exists_write buf
      (show question + (htons qType).length ≤ bufferLength by
        rw [length_htons]
        omega)
    obtain ⟨b2, edited, answerType, length, answer, kept2⟩ :=
      editAnswer_eq b1 qType (show question + 16 + data.length ≤ bufferLength by
        omega)
    rw [length_htons] at type kept1
    refine ⟨b2, ?_, ?_, fun _ => ?_, fun _ => answerType, fun _ => length,
      fun _ => answer, ?_, fun wrong => (wrong address).elim⟩
    · simp only [editResponse, success, address, w1, edited, true_and, if_true,
        Option.bind_eq_bind, Option.bind_some]
    · rw [length, word16_htons (by omega), sent]
    · rw [kept2 _ _ (.inl (by omega)), type]
    · intro place count outside
      rw [kept2 _ _ (by omega), kept1 _ _ (by omega)]
  · refine ⟨buf, ?_, ?_, ?_, ?_, ?_, ?_, fun _ _ _ => rfl, fun _ => rfl⟩
    · simp only [editResponse, success, address, and_false, and_true, if_false,
        if_true, Option.bind_eq_bind, Option.bind_some]
    · rw [not_or] at address
      rw [sentLength, if_neg address.1, if_neg address.2]
    all_goals
      intro wrong
      exact (address wrong).elim

theorem editResponse_of_other {buf : DnsBuffer} {question queryType qType : Nat}
    {data nsFields nsNs : List UInt8} (inside : question + 32 ≤ bufferLength)
    (other : ¬ (queryType = typeTXT ∧ buf.rcode = 0)) :
    ∃ next, editResponse question queryType qType data nsFields nsNs buf =
      some next := by
  obtain ⟨b1, w1, _⟩ := Buffer.exists_write buf
    (show question + (htons qType).length ≤ bufferLength by
      rw [length_htons]
      omega)
  simp only [editResponse, if_neg other, Option.bind_eq_bind]
  split
  · exact ⟨b1, by rw [w1, Option.bind_some]⟩
  · exact ⟨buf, by rw [Option.bind_some]⟩

section Response

variable {buf : DnsBuffer} {name : List UInt8} {qType : Nat}

theorem buildDnsResponse_eq_edit
    (named : DnsBuffer.queryName buf = some name) (nid32addr : NID32)
    (nidaddr : NID)
    (records : 13 + name.length + 28 + buf.answerLength name +
      buf.nsLength name ≤ bufferLength)
    (short : buf.nsLength name ≤ nameLen) :
    buildDnsResponse buf nid32addr nidaddr qType =
      editResponse (13 + name.length)
        (Buffer.word16 (buf.slice (13 + name.length) 2)) qType
        (addressData nid32addr nidaddr qType)
        (buf.slice (13 + name.length + 16 + buf.answerLength name) 12)
        (buf.slice (13 + name.length + 16 + buf.answerLength name + 12)
          (buf.nsLength name)) buf := by
  have queryType : buf.read16 (13 + name.length) =
      some (Buffer.word16 (buf.slice (13 + name.length) 2)) :=
    Buffer.read16_eq_some_iff.mpr ⟨by omega, rfl⟩
  have answerLength : buf.read16 (13 + name.length + 14) =
      some (buf.answerLength name) :=
    Buffer.read16_eq_some_iff.mpr ⟨by omega, rfl⟩
  have nsFields : buf.read (13 + name.length + 16 + buf.answerLength name) 12 =
      some (buf.slice (13 + name.length + 16 + buf.answerLength name) 12) :=
    Buffer.read_eq_some_iff.mpr ⟨by omega, rfl⟩
  have nsLength :
      buf.read16 (13 + name.length + 16 + buf.answerLength name + 10) =
        some (buf.nsLength name) :=
    Buffer.read16_eq_some_iff.mpr ⟨by omega, rfl⟩
  have nsNs : buf.read (13 + name.length + 16 + buf.answerLength name + 12)
        (buf.nsLength name) =
      some (buf.slice (13 + name.length + 16 + buf.answerLength name + 12)
        (buf.nsLength name)) :=
    Buffer.read_eq_some_iff.mpr ⟨by omega, rfl⟩
  rw [buildDnsResponse_eq named]
  simp only [queryType, answerLength, nsFields, nsLength, nsNs,
    Option.bind_some]
  rw [if_neg (by omega)]

theorem buildDnsResponse_isSome_iff
    (named : DnsBuffer.queryName buf = some name) (nid32addr : NID32)
    (nidaddr : NID) :
    (∃ next, buildDnsResponse buf nid32addr nidaddr qType = some next) ↔
      ResponseFits buf name qType := by
  have inside : 13 + name.length + 32 ≤ bufferLength := by
    have question := DnsBuffer.questionAt_le named
    rw [questionAt] at question
    rw [bufferLength]
    omega
  by_cases readable : 13 + name.length + 28 + buf.answerLength name +
      buf.nsLength name ≤ bufferLength ∧ buf.nsLength name ≤ nameLen
  · obtain ⟨records, short⟩ := readable
    rw [buildDnsResponse_eq_edit named nid32addr nidaddr records short]
    have nsFields : (buf.slice
        (13 + name.length + 16 + buf.answerLength name) 12).length = 12 :=
      Buffer.length_slice _ (by omega)
    have nsNs : (buf.slice (13 + name.length + 16 + buf.answerLength name + 12)
        (buf.nsLength name)).length = buf.nsLength name :=
      Buffer.length_slice _ (by omega)
    generalize buf.slice (13 + name.length + 16 + buf.answerLength name) 12 =
      fields at nsFields
    generalize buf.slice (13 + name.length + 16 + buf.answerLength name + 12)
      (buf.nsLength name) = ns at nsNs
    by_cases text : Buffer.word16 (buf.slice (13 + name.length) 2) = typeTXT ∧
        buf.rcode = 0
    · obtain ⟨edited, equal, answer⟩ := editResponse_eq nid32addr nidaddr qType
        fields ns inside text.2
      rw [text.1, equal,
        moveAuthority_isSome_iff (by omega) nsFields (nsNs.trans_le short),
        answer.length]
      constructor
      · intro room
        exact ⟨records, short, fun _ _ => room⟩
      · intro fits
        exact fits.room text.1 text.2
    · refine iff_of_true (editResponse_of_other inside text) ⟨records, short, ?_⟩
      intro queryType success
      exact (text ⟨queryType, success⟩).elim
  · refine iff_of_false ?_ fun fits => readable ⟨fits.records, fits.short⟩
    rintro ⟨next, built⟩
    simp only [buildDnsResponse_eq named, Option.bind_eq_some_iff,
      Buffer.read16_eq_some_iff, Buffer.read_eq_some_iff] at built
    obtain ⟨_, _, _, ⟨_, rfl⟩, _, _, _, ⟨_, rfl⟩, _, ⟨records, _⟩, built⟩ :=
      built
    split at built
    · cases built
    · next short => exact readable ⟨by
        rw [DnsBuffer.nsLength, DnsBuffer.answerLength]
        omega, not_lt.mp short⟩

theorem buildDnsResponse_of_other {next : DnsBuffer}
    (named : DnsBuffer.queryName buf = some name) (nid32addr : NID32)
    (nidaddr : NID)
    (other : Buffer.word16 (buf.slice (13 + name.length) 2) ≠ typeTXT)
    (built : buildDnsResponse buf nid32addr nidaddr qType = some next) :
    next = buf := by
  have fits := (buildDnsResponse_isSome_iff named nid32addr nidaddr).mp
    ⟨next, built⟩
  rw [buildDnsResponse_eq_edit named nid32addr nidaddr fits.records
    fits.short] at built
  simp only [editResponse, other, false_and, if_false, Option.bind_eq_bind,
    Option.bind_some, Option.some.injEq] at built
  exact built.symm

/-- A text is replaced in two steps: the answer is edited, and the authority
moves behind it. -/
theorem buildDnsResponse_edited {next : DnsBuffer}
    (named : DnsBuffer.queryName buf = some name) (nid32addr : NID32)
    (nidaddr : NID) (success : buf.rcode = 0)
    (queryType : Buffer.word16 (buf.slice (13 + name.length) 2) = typeTXT)
    (built : buildDnsResponse buf nid32addr nidaddr qType = some next) :
    ∃ edited, AnswerEdited buf edited (13 + name.length) qType
        (addressData nid32addr nidaddr qType) ∧
      AuthorityMoved edited next
        (13 + name.length + 16 + sentLength qType (buf.answerLength name))
        (buf.slice (13 + name.length + 16 + buf.answerLength name) 12)
        (buf.slice (13 + name.length + 16 + buf.answerLength name + 12)
          (buf.nsLength name)) := by
  have fits := (buildDnsResponse_isSome_iff named nid32addr nidaddr).mp
    ⟨next, built⟩
  have records := fits.records
  have inside : 13 + name.length + 32 ≤ bufferLength := by
    have question := DnsBuffer.questionAt_le named
    rw [questionAt] at question
    rw [bufferLength]
    omega
  have nsFields : (buf.slice
      (13 + name.length + 16 + buf.answerLength name) 12).length = 12 :=
    Buffer.length_slice _ (by omega)
  have nsNs : (buf.slice (13 + name.length + 16 + buf.answerLength name + 12)
      (buf.nsLength name)).length ≤ nameLen := by
    rw [Buffer.length_slice _ (by omega)]
    exact fits.short
  rw [buildDnsResponse_eq_edit named nid32addr nidaddr records fits.short,
    queryType] at built
  obtain ⟨edited, equal, answer⟩ := editResponse_eq nid32addr nidaddr qType
    (buf.slice (13 + name.length + 16 + buf.answerLength name) 12)
    (buf.slice (13 + name.length + 16 + buf.answerLength name + 12)
      (buf.nsLength name)) inside success
  rw [equal] at built
  have moved := moveAuthority_moved nsFields nsNs built
  rw [answer.length] at moved
  exact ⟨edited, answer, moved⟩

theorem buildDnsResponse_layout
    (named : DnsBuffer.queryName buf = some name) (nid32addr : NID32)
    (nidaddr : NID) (fits : ResponseFits buf name qType)
    (address : qType = typeA ∨ qType = typeAAAA) (success : buf.rcode = 0)
    (queryType : buf.slice (13 + name.length) 2 = htons typeTXT)
    (questions : buf.slice 4 2 = htons 1) (answers : buf.slice 6 2 = htons 1)
    {questionClass answerClass : Nat}
    (classOfQuestion : buf.slice (13 + name.length + 2) 2 =
      htons questionClass)
    (owner : buf.slice (13 + name.length + 4) 2 = htons 49164)
    (classOfAnswer : buf.slice (13 + name.length + 8) 2 = htons answerClass) :
    ∃ next, buildDnsResponse buf nid32addr nidaddr qType = some next ∧
      AnswerLayout next (buf.slice 0 2) name qType questionClass answerClass
        (addressData nid32addr nidaddr qType) := by
  obtain ⟨next, built⟩ :=
    (buildDnsResponse_isSome_iff named nid32addr nidaddr).mpr fits
  refine ⟨next, built, ?_⟩
  obtain ⟨edited, answer, moved⟩ := buildDnsResponse_edited named nid32addr
    nidaddr success (by rw [queryType, word16_htons (by decide)]) built
  have front := moved.front
  rw [sentLength_eq nid32addr nidaddr address] at front
  obtain ⟨proper, short, whole⟩ := DnsBuffer.queryName_eq_some_iff.mp named
  exact
    { transaction := by
        rw [front _ _ (by omega), answer.kept _ _ (by omega)]
      questions := by
        rw [front _ _ (by omega), answer.kept _ _ (by omega), questions]
      answers := by
        rw [front _ _ (by omega), answer.kept _ _ (by omega), answers]
      question := by
        rw [front _ _ (by omega), answer.kept _ _ (by omega)]
        exact whole
      questionType := by
        rw [front _ _ (by omega), answer.questionType address]
      classOfQuestion := by
        rw [front _ _ (by omega), answer.kept _ _ (by omega), classOfQuestion]
      owner := by
        rw [front _ _ (by omega), answer.kept _ _ (by omega), owner]
      answerType := by
        rw [front _ _ (by omega), answer.answerType address]
      classOfAnswer := by
        rw [front _ _ (by omega), answer.kept _ _ (by omega), classOfAnswer]
      dataLength := by
        rw [front _ _ (by omega), answer.dataLength address]
      answerData := by
        rw [front _ _ (by omega), answer.answerData address] }

end Response

end NodeIdentity
