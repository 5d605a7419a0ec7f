import Mathlib.Data.List.Infix
import Mathlib.Data.List.TakeDrop

/-!
# Reading messages of the domain name system

A name is a sequence of labels, each with its length in front, which ends with
an empty label or with a pointer to the rest of the name elsewhere in the
message.  What a reader finds at an offset depends on the bytes from there on,
so the lemmas speak about prefixes of the dropped message.
-/

namespace NodeIdentity.Library.DnsWire

abbrev Message := List UInt8

/-- The labels of a name, without the empty one at its end. -/
abbrev Name := List (List UInt8)

/-- A label has a length between one and sixty-three. -/
def ProperLabel (label : List UInt8) : Prop :=
  0 < label.length ∧ label.length < 64

def encodeLabels (labels : Name) : List UInt8 :=
  labels.flatMap fun label => UInt8.ofNat label.length :: label

/-- `count` bytes at `offset`. -/
def bytesAt (message : Message) (offset count : Nat) : Option (List UInt8) :=
  if count ≤ (message.drop offset).length then
    some ((message.drop offset).take count)
  else none

def word (value : Nat) : List UInt8 :=
  [UInt8.ofNat (value / 256), UInt8.ofNat value]

def wordAt (message : Message) (offset : Nat) : Option Nat := do
  let word ← bytesAt message offset 2
  return (word.getD 0 0).toNat * 256 + (word.getD 1 0).toNat

/-- The labels, and the offset behind the name.  Every step of a name without
a loop reads another byte of the message, so its length is fuel enough. -/
def labelsAt (message : Message) : Nat → Nat → Option (Name × Nat)
  | 0, _ => none
  | fuel + 1, offset => do
      let length ← message[offset]?
      if length = 0 then return ([], offset + 1)
      else if length < 64 then
        let label ← bytesAt message (offset + 1) length.toNat
        let (labels, next) ←
          labelsAt message fuel (offset + 1 + length.toNat)
        return (label :: labels, next)
      else if 192 ≤ length then
        let low ← message[offset + 1]?
        let (labels, _) ←
          labelsAt message fuel ((length.toNat - 192) * 256 + low.toNat)
        return (labels, offset + 2)
      else none

def nameAt (message : Message) (offset : Nat) : Option (Name × Nat) :=
  labelsAt message (message.length + 1) offset

structure Question where
  name : Name
  type : Nat
  qclass : Nat
  deriving DecidableEq

structure Record where
  owner : Name
  type : Nat
  rclass : Nat
  ttl : List UInt8
  length : Nat
  data : List UInt8
  deriving DecidableEq

def questionAt (message : Message) (offset : Nat) : Option (Question × Nat) := do
  let (name, next) ← nameAt message offset
  let type ← wordAt message next
  let qclass ← wordAt message (next + 2)
  return (⟨name, type, qclass⟩, next + 4)

def recordAt (message : Message) (offset : Nat) : Option (Record × Nat) := do
  let (owner, next) ← nameAt message offset
  let type ← wordAt message next
  let rclass ← wordAt message (next + 2)
  let ttl ← bytesAt message (next + 4) 4
  let length ← wordAt message (next + 8)
  let data ← bytesAt message (next + 10) length
  return (⟨owner, type, rclass, ttl, length, data⟩, next + 10 + length)

variable {message : Message} {offset : Nat}

theorem bytesAt_of_prefix {bytes : List UInt8}
    (found : bytes <+: message.drop offset) :
    bytesAt message offset bytes.length = some bytes := by
  obtain ⟨rest, whole⟩ := found
  rw [bytesAt, ← whole, if_pos (by simp), List.take_left]

theorem getElem?_of_prefix {byte : UInt8} {bytes : List UInt8}
    (found : byte :: bytes <+: message.drop offset) :
    message[offset]? = some byte := by
  obtain ⟨rest, whole⟩ := found
  rw [← List.head?_drop, ← whole]
  rfl

theorem prefix_append {first second : List UInt8}
    (found : first ++ second <+: message.drop offset) :
    first <+: message.drop offset ∧
      second <+: message.drop (offset + first.length) := by
  obtain ⟨rest, whole⟩ := found
  rw [List.append_assoc] at whole
  refine ⟨⟨second ++ rest, whole⟩, rest, ?_⟩
  rw [← List.drop_drop, ← whole, List.drop_left]

theorem wordAt_of_prefix {value : Nat} (below : value < 65536)
    (found : word value <+: message.drop offset) :
    wordAt message offset = some value := by
  have read := bytesAt_of_prefix found
  have length : (word value).length = 2 := rfl
  rw [length] at read
  rw [wordAt, read]
  simp only [word, Option.bind_eq_bind, Option.bind_some, Option.pure_def,
    Option.some.injEq, List.getD_cons_zero, List.getD_cons_succ,
    UInt8.toNat_ofNat']
  omega

theorem labelsAt_encodeLabels {labels : Name} {fuel : Nat}
    (proper : ∀ label ∈ labels, ProperLabel label)
    (found : encodeLabels labels ++ [0] <+: message.drop offset)
    (enough : labels.length < fuel) :
    labelsAt message fuel offset =
      some (labels, offset + (encodeLabels labels).length + 1) := by
  induction labels generalizing offset fuel with
  | nil =>
      obtain ⟨fuel, rfl⟩ := Nat.exists_eq_add_of_lt enough
      have last := getElem?_of_prefix found
      simp [labelsAt, last, encodeLabels]
  | cons label labels ih =>
      obtain ⟨positive, short⟩ := proper label List.mem_cons_self
      have whole : encodeLabels (label :: labels) ++ [0] =
          [UInt8.ofNat label.length] ++
            (label ++ (encodeLabels labels ++ [0])) := by
        simp [encodeLabels]
      rw [whole] at found
      obtain ⟨first, found⟩ := prefix_append found
      obtain ⟨here, found⟩ := prefix_append found
      have length : (UInt8.ofNat label.length).toNat = label.length := by
        rw [UInt8.toNat_ofNat']
        omega
      have nonzero : UInt8.ofNat label.length ≠ 0 := by
        intro zero
        rw [zero] at length
        exact positive.ne length
      have below : UInt8.ofNat label.length < 64 := by
        rw [UInt8.lt_iff_toNat_lt, length]
        exact short
      cases fuel with
      | zero => cases enough
      | succ fuel =>
          have rest := ih
            (fun label member => proper label (List.mem_cons_of_mem _ member))
            found (by simpa using enough)
          have read := bytesAt_of_prefix here
          rw [List.length_singleton] at read rest
          simp only [labelsAt, getElem?_of_prefix first, Option.bind_eq_bind,
            Option.bind_some, if_neg nonzero, if_pos below, length, read, rest]
          simp only [encodeLabels, List.flatMap_cons, List.length_append,
            List.length_cons, Option.pure_def, Option.some.injEq,
            Prod.mk.injEq, true_and]
          omega

theorem length_encodeLabels (labels : Name) :
    labels.length ≤ (encodeLabels labels).length := by
  induction labels with
  | nil => exact Nat.le_refl 0
  | cons label labels ih =>
      simp only [encodeLabels, List.flatMap_cons, List.length_append,
        List.length_cons] at ih ⊢
      omega

theorem labelsAt_append (more : List UInt8) (extra : Nat) {fuel : Nat}
    {result : Name × Nat} (found : labelsAt message fuel offset = some result) :
    labelsAt (message ++ more) (fuel + extra) offset = some result := by
  have byte : ∀ {index : Nat} {value : UInt8}, message[index]? = some value →
      (message ++ more)[index]? = some value := by
    intro index value here
    rw [List.getElem?_append_left (List.getElem?_eq_some_iff.mp here).1, here]
  have label : ∀ {index count : Nat} {value : List UInt8},
      bytesAt message index count = some value →
        bytesAt (message ++ more) index count = some value := by
    intro index count value here
    rw [bytesAt] at here
    split at here
    · next inside =>
        cases here
        have found : (message.drop index).take count <+:
            (message ++ more).drop index :=
          (List.take_prefix _ _).trans ((List.prefix_append _ _).drop index)
        have read := bytesAt_of_prefix found
        rwa [List.length_take_of_le inside] at read
    · cases here
  have longer : ∀ fuel, fuel + 1 + extra = fuel + extra + 1 := by
    intro fuel
    omega
  induction fuel generalizing offset result with
  | zero => cases found
  | succ fuel ih =>
      rw [labelsAt, Option.bind_eq_bind, Option.bind_eq_some_iff] at found
      obtain ⟨length, first, found⟩ := found
      rw [longer, labelsAt, byte first, Option.bind_eq_bind, Option.bind_some]
      split at found
      · next zero =>
          rw [if_pos zero]
          exact found
      · next nonzero =>
          rw [if_neg nonzero]
          split at found
          · next short =>
              rw [if_pos short]
              simp only [Option.bind_eq_bind, Option.bind_eq_some_iff] at found
              obtain ⟨bytes, here, rest, tail, found⟩ := found
              simp only [label here, ih tail, Option.bind_eq_bind,
                Option.bind_some]
              exact found
          · next long =>
              rw [if_neg long]
              split at found
              · next marked =>
                  rw [if_pos marked]
                  simp only [Option.bind_eq_bind, Option.bind_eq_some_iff]
                    at found
                  obtain ⟨low, second, rest, tail, found⟩ := found
                  simp only [byte second, ih tail, Option.bind_eq_bind,
                    Option.bind_some]
                  exact found
              · cases found

/-- A name which lies in front of some offset is found in every message with
the same bytes there. -/
theorem nameAt_of_take {limit : Nat} {result : Name × Nat}
    (found : nameAt (message.take limit) offset = some result) :
    nameAt message offset = some result := by
  have whole := labelsAt_append (message.drop limit)
    (message.length - (message.take limit).length) found
  rw [List.take_append_drop] at whole
  have fuel : (message.take limit).length + 1 +
      (message.length - (message.take limit).length) = message.length + 1 := by
    rw [List.length_take]
    omega
  rwa [fuel] at whole

theorem zero_notMem_encodeLabels {labels : Name}
    (proper : ∀ label ∈ labels, ProperLabel label)
    (noNul : ∀ label ∈ labels, 0 ∉ label) : 0 ∉ encodeLabels labels := by
  rw [encodeLabels, List.mem_flatMap]
  rintro ⟨label, member, here⟩
  rcases List.mem_cons.mp here with length | inLabel
  · obtain ⟨positive, short⟩ := proper label member
    have zero := congrArg UInt8.toNat length
    rw [UInt8.toNat_ofNat', UInt8.toNat_zero] at zero
    omega
  · exact noNul label member inLabel

theorem nameAt_encodeLabels {labels : Name}
    (proper : ∀ label ∈ labels, ProperLabel label)
    (found : encodeLabels labels ++ [0] <+: message.drop offset) :
    nameAt message offset =
      some (labels, offset + (encodeLabels labels).length + 1) := by
  apply labelsAt_encodeLabels proper found
  have short := found.length_le
  have count := length_encodeLabels labels
  rw [List.length_append, List.length_drop, List.length_singleton] at short
  omega

theorem nameAt_of_pointer {labels : Name} {high low : UInt8} {target : Nat}
    (proper : ∀ label ∈ labels, ProperLabel label)
    (pointer : [high, low] <+: message.drop offset) (marked : 192 ≤ high)
    (leads : (high.toNat - 192) * 256 + low.toNat = target)
    (found : encodeLabels labels ++ [0] <+: message.drop target) :
    nameAt message offset = some (labels, offset + 2) := by
  have short := found.length_le
  have count := length_encodeLabels labels
  rw [List.length_append, List.length_drop, List.length_singleton] at short
  have rest := labelsAt_encodeLabels proper found
    (show labels.length < message.length by omega)
  obtain ⟨first, second⟩ := prefix_append
    (show [high] ++ [low] <+: message.drop offset from pointer)
  have large : 192 ≤ high.toNat := UInt8.le_iff_toNat_le.mp marked
  have nonzero : high ≠ 0 := by
    rintro rfl
    cases large
  have above : ¬ high < 64 := by
    rw [UInt8.lt_iff_toNat_lt]
    exact not_lt.mpr (le_trans (by decide) large)
  rw [List.length_singleton] at second
  simp only [nameAt, labelsAt, getElem?_of_prefix first,
    getElem?_of_prefix second, Option.bind_eq_bind, Option.bind_some,
    if_neg nonzero, if_neg above, if_pos marked, leads, rest, Option.pure_def]

theorem questionAt_of_prefix {labels : Name} {type qclass : Nat}
    (proper : ∀ label ∈ labels, ProperLabel label)
    (typeBelow : type < 65536) (classBelow : qclass < 65536)
    (name : encodeLabels labels ++ [0] <+: message.drop offset)
    (typed : word type <+:
      message.drop (offset + (encodeLabels labels).length + 1))
    (classed : word qclass <+:
      message.drop (offset + (encodeLabels labels).length + 1 + 2)) :
    questionAt message offset = some (⟨labels, type, qclass⟩,
      offset + (encodeLabels labels).length + 1 + 4) := by
  simp only [questionAt, nameAt_encodeLabels proper name,
    wordAt_of_prefix typeBelow typed, wordAt_of_prefix classBelow classed,
    Option.bind_eq_bind, Option.bind_some, Option.pure_def]

theorem recordAt_of_prefix {owner : Name} {type rclass : Nat}
    {ttl data : List UInt8}
    (named : nameAt message offset = some (owner, offset + 2))
    (typeBelow : type < 65536) (classBelow : rclass < 65536)
    (short : data.length < 65536) (ttlLength : ttl.length = 4)
    (typed : word type <+: message.drop (offset + 2))
    (classed : word rclass <+: message.drop (offset + 2 + 2))
    (lives : ttl <+: message.drop (offset + 2 + 4))
    (length : word data.length <+: message.drop (offset + 2 + 8))
    (filled : data <+: message.drop (offset + 2 + 10)) :
    recordAt message offset = some
      (⟨owner, type, rclass, ttl, data.length, data⟩,
        offset + 2 + 10 + data.length) := by
  have livesRead := bytesAt_of_prefix lives
  rw [ttlLength] at livesRead
  simp only [recordAt, named, wordAt_of_prefix typeBelow typed,
    wordAt_of_prefix classBelow classed, livesRead,
    wordAt_of_prefix short length, bytesAt_of_prefix filled,
    Option.bind_eq_bind, Option.bind_some, Option.pure_def]

/-- A message with one question and one answer. -/
structure Answer where
  id : Nat
  question : Question
  record : Record
  deriving DecidableEq

def answerOf (message : Message) : Option Answer := do
  let id ← wordAt message 0
  let questions ← wordAt message 4
  let answers ← wordAt message 6
  if questions = 1 ∧ answers = 1 then
    let (question, next) ← questionAt message 12
    let (record, _) ← recordAt message next
    return ⟨id, question, record⟩
  else none

/-- The answers say the same, for whatever time. -/
structure SameAnswer (first second : Answer) : Prop where
  id : first.id = second.id
  question : first.question = second.question
  owner : first.record.owner = second.record.owner
  type : first.record.type = second.record.type
  rclass : first.record.rclass = second.record.rclass
  length : first.record.length = second.record.length
  data : first.record.data = second.record.data

end NodeIdentity.Library.DnsWire
