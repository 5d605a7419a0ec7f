import NodeIdentity.Library.DnsWire
import NodeIdentity.Library.WireFormat

/-!
# Messages of the domain name system

The grammar of a whole message.  A name is read as it is written: its labels,
and the pointer it ends with, if there is one.
-/

namespace NodeIdentity.Library.DnsWire

/-- Labels, which end with an empty one or with a pointer into the message. -/
structure WireName where
  labels : Name
  target : Option Nat
  deriving DecidableEq

namespace WireName

structure Valid (name : WireName) : Prop where
  proper : ∀ label ∈ name.labels, ProperLabel label
  inReach : ∀ target ∈ name.target, target < 16384

def encodeEnd : Option Nat → List UInt8
  | none => [0]
  | some target => word (49152 + target)

def encode (name : WireName) : List UInt8 :=
  encodeLabels name.labels ++ encodeEnd name.target

/-- Every label takes a byte at least, so the number of bytes is fuel
enough. -/
def parseLabels : Nat → List UInt8 → Option (WireName × List UInt8)
  | 0, _ => none
  | _ + 1, [] => none
  | fuel + 1, length :: bytes =>
      if length = 0 then some (⟨[], none⟩, bytes)
      else if length < 64 then
        if length.toNat ≤ bytes.length then
          (parseLabels fuel (bytes.drop length.toNat)).map fun rest =>
            (⟨bytes.take length.toNat :: rest.1.labels, rest.1.target⟩, rest.2)
        else none
      else if 192 ≤ length then
        bytes.head?.map fun low =>
          (⟨[], some ((length.toNat - 192) * 256 + low.toNat)⟩, bytes.tail)
      else none

theorem encode_cons (label : List UInt8) (labels : Name)
    (target : Option Nat) :
    encode ⟨label :: labels, target⟩ =
      UInt8.ofNat label.length :: (label ++ encode ⟨labels, target⟩) := by
  simp [encode, encodeLabels]

theorem encode_none (labels : Name) :
    encode ⟨labels, none⟩ = encodeLabels labels ++ [0] :=
  rfl

theorem encode_pointer (target : Nat) :
    encode ⟨[], some target⟩ = word (49152 + target) :=
  rfl

theorem word_pointer {high : UInt8} (marked : 192 ≤ high.toNat) (low : UInt8) :
    word (49152 + ((high.toNat - 192) * 256 + low.toNat)) = [high, low] := by
  have whole : 49152 + ((high.toNat - 192) * 256 + low.toNat) =
      high.toNat * 256 + low.toNat := by omega
  rw [whole]
  exact WireFormat.encode_word16 high low

theorem parseLabels_pointer {target : Nat} (below : target < 16384)
    (fuel : Nat) (rest : List UInt8) :
    parseLabels (fuel + 1) (word (49152 + target) ++ rest) =
      some (⟨[], some target⟩, rest) := by
  have high : (UInt8.ofNat ((49152 + target) / 256)).toNat =
      192 + target / 256 := by
    rw [UInt8.toNat_ofNat']
    omega
  have low : (UInt8.ofNat (49152 + target)).toNat = target % 256 := by
    rw [UInt8.toNat_ofNat']
    omega
  have nonzero : UInt8.ofNat ((49152 + target) / 256) ≠ 0 := by
    intro zero
    rw [zero] at high
    have large : 0 = 192 + target / 256 := high
    omega
  have above : ¬ UInt8.ofNat ((49152 + target) / 256) < 64 := by
    rw [UInt8.lt_iff_toNat_lt, high]
    have sixtyFour : (64 : UInt8).toNat = 64 := rfl
    omega
  have marked : 192 ≤ UInt8.ofNat ((49152 + target) / 256) := by
    rw [UInt8.le_iff_toNat_le, high]
    have bound : (192 : UInt8).toNat = 192 := rfl
    omega
  have whole : (192 + target / 256 - 192) * 256 + target % 256 = target := by
    omega
  simp only [word, List.cons_append, List.nil_append, parseLabels,
    if_neg nonzero, if_neg above, if_pos marked, List.head?_cons,
    List.tail_cons, Option.map_some, high, low, whole]

theorem parseLabels_sound {fuel : Nat} {bytes rest : List UInt8}
    {name : WireName} (parsed : parseLabels fuel bytes = some (name, rest)) :
    name.Valid ∧ bytes = name.encode ++ rest := by
  induction fuel generalizing bytes name with
  | zero => cases parsed
  | succ fuel ih =>
      cases bytes with
      | nil => cases parsed
      | cons length bytes =>
          rw [parseLabels] at parsed
          split at parsed
          · next zero =>
              cases parsed
              subst zero
              refine ⟨⟨?_, ?_⟩, rfl⟩
              · intro label member
                cases member
              · intro target member
                cases member
          · next nonzero =>
              have positive : length.toNat ≠ 0 :=
                fun zero => nonzero (UInt8.toNat_inj.mp zero)
              split at parsed
              · next short =>
                  rw [UInt8.lt_iff_toNat_lt] at short
                  have below : length.toNat < 64 := short
                  split at parsed
                  · next inside =>
                      obtain ⟨⟨tail, left⟩, tailParsed, equal⟩ :=
                        Option.map_eq_some_iff.mp parsed
                      cases equal
                      obtain ⟨valid, whole⟩ := ih tailParsed
                      have count : (bytes.take length.toNat).length =
                          length.toNat := List.length_take_of_le inside
                      constructor
                      · refine ⟨List.forall_mem_cons.mpr ⟨?_, valid.proper⟩,
                          valid.inReach⟩
                        rw [ProperLabel, count]
                        omega
                      · rw [encode_cons, count, UInt8.ofNat_toNat,
                          List.cons_append, List.append_assoc]
                        exact congrArg (length :: ·)
                          ((List.take_append_drop _ _).symm.trans
                            (congrArg _ whole))
                  · cases parsed
              · split at parsed
                · next marked =>
                    rw [UInt8.le_iff_toNat_le] at marked
                    have above : 192 ≤ length.toNat := marked
                    have lengthBelow := length.toNat_lt
                    obtain ⟨low, first, equal⟩ :=
                      Option.map_eq_some_iff.mp parsed
                    cases equal
                    obtain ⟨left, rfl⟩ := List.head?_eq_some_iff.mp first
                    have lowBelow := low.toNat_lt
                    constructor
                    · refine ⟨fun label member => ?_, ?_⟩
                      · cases member
                      · rintro target ⟨⟩
                        omega
                    · rw [encode_pointer, word_pointer above]
                      rfl
                · cases parsed

theorem parseLabels_encode {name : WireName} (valid : name.Valid)
    {fuel : Nat} (enough : name.labels.length < fuel) (rest : List UInt8) :
    parseLabels fuel (name.encode ++ rest) = some (name, rest) := by
  obtain ⟨labels, target⟩ := name
  obtain ⟨proper, inReach⟩ := valid
  induction labels generalizing fuel with
  | nil =>
      obtain ⟨fuel, rfl⟩ := Nat.exists_eq_add_of_lt enough
      cases target with
      | none => rfl
      | some target =>
          rw [encode_pointer]
          exact parseLabels_pointer (inReach target rfl) _ rest
  | cons label labels ih =>
      obtain ⟨here, proper⟩ := List.forall_mem_cons.mp proper
      obtain ⟨positive, short⟩ := here
      cases fuel with
      | zero => cases enough
      | succ fuel =>
          have length : (UInt8.ofNat label.length).toNat = label.length := by
            rw [UInt8.toNat_ofNat']
            omega
          have nonzero : UInt8.ofNat label.length ≠ 0 := by
            intro zero
            rw [zero] at length
            exact positive.ne length
          have below : UInt8.ofNat label.length < 64 := by
            rw [UInt8.lt_iff_toNat_lt, length]
            exact short
          have tail := ih (show labels.length < fuel by simpa using enough)
            proper inReach
          have inside : label.length ≤
              (label ++ (encode ⟨labels, target⟩ ++ rest)).length := by
            rw [List.length_append]
            omega
          rw [encode_cons, List.cons_append, List.append_assoc, parseLabels,
            if_neg nonzero, if_pos below, length, if_pos inside,
            List.take_left, List.drop_left, tail, Option.map_some]

theorem length_labels_lt (name : WireName) (rest : List UInt8) :
    name.labels.length < (name.encode ++ rest).length := by
  have labels := length_encodeLabels name.labels
  have last : 0 < (encodeEnd name.target).length := by
    cases name.target with
    | none => exact Nat.one_pos
    | some target => exact Nat.two_pos
  rw [List.length_append, encode, List.length_append]
  omega

end WireName

def nameFormat : WireFormat WireName :=
  { Valid := WireName.Valid
    encode := WireName.encode
    parse := fun bytes => WireName.parseLabels bytes.length bytes
    parse_iff := by
      intro bytes name rest
      constructor
      · exact WireName.parseLabels_sound
      · rintro ⟨valid, rfl⟩
        exact WireName.parseLabels_encode valid (name.length_labels_lt rest)
          rest }

structure WireQuestion where
  name : WireName
  type : Nat
  qclass : Nat
  deriving DecidableEq

/-- The length of the data is written in front of them. -/
structure WireRecord where
  owner : WireName
  type : Nat
  rclass : Nat
  ttl : Nat
  data : List UInt8
  deriving DecidableEq

def questionFormat : WireFormat WireQuestion :=
  (nameFormat.pair (WireFormat.word16.pair WireFormat.word16)).imap
    (fun value => ⟨value.1, value.2.1, value.2.2⟩)
    (fun question => (question.name, question.type, question.qclass))
    (fun _ => rfl) (fun _ _ => rfl)

def recordFormat : WireFormat WireRecord :=
  (nameFormat.pair (WireFormat.word16.pair (WireFormat.word16.pair
    (WireFormat.word32.pair WireFormat.counted)))).imap
    (fun value =>
      ⟨value.1, value.2.1, value.2.2.1, value.2.2.2.1, value.2.2.2.2⟩)
    (fun record =>
      (record.owner, record.type, record.rclass, record.ttl, record.data))
    (fun _ => rfl) (fun _ _ => rfl)

/-- The numbers of records are written into the header. -/
structure WireMessage where
  id : Nat
  flags : Nat
  questions : List WireQuestion
  answers : List WireRecord
  authorities : List WireRecord
  additionals : List WireRecord
  deriving DecidableEq

namespace WireMessage

def Response (message : WireMessage) : Prop := message.flags.testBit 15

def rcode (message : WireMessage) : Nat := message.flags % 16

end WireMessage

structure WireHeader where
  id : Nat
  flags : Nat
  questions : Nat
  answers : Nat
  authorities : Nat
  additionals : Nat
  deriving DecidableEq

def headerFormat : WireFormat WireHeader :=
  (WireFormat.word16.pair (WireFormat.word16.pair (WireFormat.word16.pair
    (WireFormat.word16.pair (WireFormat.word16.pair
      WireFormat.word16))))).imap
    (fun value => ⟨value.1, value.2.1, value.2.2.1, value.2.2.2.1,
      value.2.2.2.2.1, value.2.2.2.2.2⟩)
    (fun header => (header.id, header.flags, header.questions, header.answers,
      header.authorities, header.additionals))
    (fun _ => rfl) (fun _ _ => rfl)

def messageFormat : WireFormat WireMessage :=
  (headerFormat.andThen fun header =>
    (questionFormat.many header.questions).pair
      ((recordFormat.many header.answers).pair
        ((recordFormat.many header.authorities).pair
          (recordFormat.many header.additionals)))).imap
    (fun value => ⟨value.1.id, value.1.flags, value.2.1, value.2.2.1,
      value.2.2.2.1, value.2.2.2.2⟩)
    (fun message =>
      (⟨message.id, message.flags, message.questions.length,
        message.answers.length, message.authorities.length,
        message.additionals.length⟩, message.questions, message.answers,
        message.authorities, message.additionals))
    (fun _ => rfl)
    (fun value valid => by
      obtain ⟨_, ⟨asked, _⟩, ⟨answered, _⟩, ⟨delegated, _⟩, added, _⟩ := valid
      rw [asked, answered, delegated, added])

/-- The first record behind the questions, whatever follows it. -/
def firstAnswer (message : List UInt8) : Option WireRecord := do
  let (header, rest) ← headerFormat.parse message
  let (_, rest) ← (questionFormat.many header.questions).parse rest
  if header.answers = 0 then none
  else
    let (record, _) ← recordFormat.parse rest
    return record

theorem firstAnswer_of_parse {bytes rest : List UInt8} {message : WireMessage}
    (parsed : messageFormat.parse bytes = some (message, rest)) :
    firstAnswer bytes = message.answers.head? := by
  simp only [messageFormat, WireFormat.imap, WireFormat.andThen,
    WireFormat.pair, WireFormat.many, Option.map_eq_some_iff,
    Option.bind_eq_some_iff] at parsed
  obtain ⟨_, ⟨header, headed, _, ⟨questions, asked, _,
    ⟨answers, answered, _, _, rfl⟩, rfl⟩, rfl⟩, same⟩ := parsed
  cases same
  have asks : (questionFormat.many header.1.questions).parse header.2 =
      some questions := asked
  simp only [firstAnswer, headed, asks, Option.bind_eq_bind, Option.bind_some]
  cases count : header.1.answers with
  | zero =>
      rw [count] at answered
      cases answered
      rfl
  | succ more =>
      rw [count] at answered
      obtain ⟨first, found, answered⟩ := Option.bind_eq_some_iff.mp answered
      obtain ⟨others, _, rfl⟩ := Option.map_eq_some_iff.mp answered
      rw [if_neg (Nat.succ_ne_zero more), found]
      rfl

theorem encode_question (question : WireQuestion) :
    questionFormat.encode question =
      question.name.encode ++ (word question.type ++ word question.qclass) :=
  rfl

theorem encode_record (record : WireRecord) :
    recordFormat.encode record = record.owner.encode ++ (word record.type ++
      (word record.rclass ++ (WireFormat.word32.encode record.ttl ++
        (word record.data.length ++ record.data)))) :=
  rfl

theorem encode_single (id flags : Nat) (question : WireQuestion)
    (answer authority : WireRecord) :
    messageFormat.encode ⟨id, flags, [question], [answer], [authority], []⟩ =
      word id ++ (word flags ++ (word 1 ++ (word 1 ++ (word 1 ++ (word 0 ++
        (questionFormat.encode question ++ (recordFormat.encode answer ++
          recordFormat.encode authority))))))) := by
  have encoded : messageFormat.encode
      ⟨id, flags, [question], [answer], [authority], []⟩ =
        (word id ++ (word flags ++ (word 1 ++ (word 1 ++ (word 1 ++ word 0))))) ++
          ([question].flatMap questionFormat.encode ++
            ([answer].flatMap recordFormat.encode ++
              ([authority].flatMap recordFormat.encode ++ []))) := rfl
  rw [encoded]
  simp only [List.flatMap_singleton, List.append_assoc, List.append_nil]

theorem questionFormat_valid_iff {question : WireQuestion} :
    questionFormat.Valid question ↔ question.name.Valid ∧
      question.type < 65536 ∧ question.qclass < 65536 :=
  Iff.rfl

theorem recordFormat_valid_iff {record : WireRecord} :
    recordFormat.Valid record ↔ record.owner.Valid ∧ record.type < 65536 ∧
      record.rclass < 65536 ∧ record.ttl < 4294967296 ∧
        record.data.length < 65536 := by
  rw [← WireFormat.word32_valid_iff, ← WireFormat.counted_valid_iff]
  rfl

theorem messageFormat_valid_iff {message : WireMessage} :
    messageFormat.Valid message ↔
      (message.id < 65536 ∧ message.flags < 65536 ∧
        message.questions.length < 65536 ∧ message.answers.length < 65536 ∧
        message.authorities.length < 65536 ∧
        message.additionals.length < 65536) ∧
      (∀ question ∈ message.questions, questionFormat.Valid question) ∧
      (∀ record ∈ message.answers, recordFormat.Valid record) ∧
      (∀ record ∈ message.authorities, recordFormat.Valid record) ∧
      ∀ record ∈ message.additionals, recordFormat.Valid record := by
  constructor
  · rintro ⟨header, ⟨_, asked⟩, ⟨_, answered⟩, ⟨_, delegated⟩, _, added⟩
    exact ⟨header, asked, answered, delegated, added⟩
  · rintro ⟨header, asked, answered, delegated, added⟩
    exact ⟨header, ⟨rfl, asked⟩, ⟨rfl, answered⟩, ⟨rfl, delegated⟩, rfl, added⟩

end NodeIdentity.Library.DnsWire
