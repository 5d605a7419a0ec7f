import Mathlib.Data.List.Infix
import NodeIdentity.Library.FixedCodec

/-!
# Fixed-size byte buffers

A buffer keeps its size in its type.  Receiving a datagram overwrites a
prefix and leaves the rest as it was, which is how bytes of an earlier
datagram survive.  Reads and writes at an offset are checked: `none` stands
for an access outside the array, which C leaves undefined.
-/

namespace NodeIdentity.Library

/-- A byte array of `size` bytes. -/
structure Buffer (size : Nat) where
  bytes : List UInt8
  length_bytes : bytes.length = size
  deriving DecidableEq

namespace Buffer

variable {size : Nat}

def zero (size : Nat) : Buffer size :=
  ⟨List.replicate size 0, List.length_replicate⟩

/-- What `read` or `recvfrom` leaves: the datagram, cut at the size of the
array, over the front of the old content. -/
def receive (buffer : Buffer size) (datagram : List UInt8) : Buffer size :=
  { bytes := datagram.take size ++ buffer.bytes.drop (datagram.take size).length
    length_bytes := by
      simp only [List.length_append, List.length_take, List.length_drop,
        buffer.length_bytes]
      omega }

/-- The count `read` or `recvfrom` returns for a datagram. -/
def received (size : Nat) (datagram : List UInt8) : Nat :=
  min datagram.length size

/-- `count` bytes starting at `offset`, when they all lie in the array. -/
def read (buffer : Buffer size) (offset count : Nat) : Option (List UInt8) :=
  if offset + count ≤ size then some ((buffer.bytes.drop offset).take count)
  else none

/-- Store `data` at `offset`, when it all fits. -/
def write (buffer : Buffer size) (offset : Nat) (data : List UInt8) :
    Option (Buffer size) :=
  if fits : offset + data.length ≤ size then
    some
      { bytes := buffer.bytes.take offset ++
          (data ++ buffer.bytes.drop (offset + data.length))
        length_bytes := by
          simp only [List.length_append, List.length_take, List.length_drop,
            buffer.length_bytes]
          omega }
  else none

/-- The C string at `offset`: the bytes before the next NUL, which has to lie
inside the array. -/
def cstring (buffer : Buffer size) (offset : Nat) : Option (List UInt8) :=
  let tail := buffer.bytes.drop offset
  if 0 ∈ tail then some (tail.takeWhile (· ≠ 0)) else none

def read16 (buffer : Buffer size) (offset : Nat) : Option Nat := do
  let word ← buffer.read offset 2
  return (word.getD 0 0).toNat * 256 + (word.getD 1 0).toNat

@[simp] theorem bytes_receive (buffer : Buffer size) (datagram : List UInt8) :
    (buffer.receive datagram).bytes = datagram.take size ++
      buffer.bytes.drop (datagram.take size).length :=
  rfl

theorem bytes_receive_of_le (buffer : Buffer size) {datagram : List UInt8}
    (fits : datagram.length ≤ size) :
    (buffer.receive datagram).bytes =
      datagram ++ buffer.bytes.drop datagram.length := by
  rw [bytes_receive, List.take_of_length_le fits]

theorem take_received (buffer : Buffer size) (datagram : List UInt8) :
    (buffer.receive datagram).bytes.take (received size datagram) =
      datagram.take size := by
  have count : received size datagram = (datagram.take size).length := by
    rw [received, List.length_take, Nat.min_comm]
  rw [bytes_receive, count, List.take_left]

theorem receive_take (buffer : Buffer size) (datagram : List UInt8) :
    buffer.receive (datagram.take size) = buffer.receive datagram := by
  simp only [receive, List.take_take, Nat.min_self]

theorem received_take (size : Nat) (datagram : List UInt8) :
    received size (datagram.take size) = received size datagram := by
  rw [received, received, List.length_take]
  omega

theorem getElem?_receive (buffer : Buffer size) {datagram : List UInt8}
    {index : Nat} (inDatagram : index < datagram.length)
    (inBuffer : index < size) :
    (buffer.receive datagram).bytes[index]? = datagram[index]? := by
  have inPrefix : index < (datagram.take size).length := by
    rw [List.length_take]
    omega
  rw [bytes_receive, List.getElem?_append_left inPrefix,
    List.getElem?_take_of_lt inBuffer]

theorem getElem?_receive_of_le (buffer : Buffer size) {datagram : List UInt8}
    (fits : datagram.length ≤ size) {index : Nat}
    (behind : datagram.length ≤ index) :
    (buffer.receive datagram).bytes[index]? = buffer.bytes[index]? := by
  rw [bytes_receive_of_le buffer fits, List.getElem?_append_right behind,
    List.getElem?_drop, Nat.add_sub_cancel' behind]

/-- A record that fits is read back from the buffer which received it, also
when what follows the record is cut. -/
theorem decode_receive {α : Type*} (codec : FixedCodec α)
    (fits : codec.width ≤ size) (buffer : Buffer size) (value : α)
    (rest : List UInt8) :
    codec.decode (buffer.receive (codec.encode value ++ rest)).bytes =
      value := by
  have whole : (codec.encode value).take size = codec.encode value :=
    List.take_of_length_le ((codec.length_encode value).trans_le fits)
  rw [bytes_receive, List.take_append, whole, List.append_assoc]
  exact codec.decode_append value _

theorem decode_drop_receive {α : Type*} {codec : FixedCodec α}
    (prefixed : codec.Prefixed) {offset : Nat}
    (fits : offset + codec.width ≤ size) (buffer : Buffer size)
    {datagram : List UInt8} (whole : offset + codec.width ≤ datagram.length) :
    codec.decode ((buffer.receive datagram).bytes.drop offset) =
      codec.decode (datagram.drop offset) := by
  have inside : offset + codec.width ≤ (datagram.take size).length := by
    rw [List.length_take]
    exact le_min fits whole
  rw [← prefixed, List.take_drop, bytes_receive,
    List.take_append_of_le_length inside, List.take_take,
    Nat.min_eq_left fits, ← List.take_drop, prefixed]

theorem decode_receive_of_prefixed {α : Type*} {codec : FixedCodec α}
    (prefixed : codec.Prefixed) (fits : codec.width ≤ size)
    (buffer : Buffer size) {datagram : List UInt8}
    (whole : codec.width ≤ datagram.length) :
    codec.decode (buffer.receive datagram).bytes = codec.decode datagram := by
  have start : ∀ {bound}, codec.width ≤ bound → 0 + codec.width ≤ bound := by
    intro bound below
    rwa [Nat.zero_add]
  simpa only [List.drop_zero] using
    decode_drop_receive prefixed (start fits) buffer (start whole)

def overlay (offset : Nat) (data bytes : List UInt8) : List UInt8 :=
  bytes.take offset ++ (data ++ bytes.drop (offset + data.length))

theorem take_overlay_congr {bytes other : List UInt8} {count : Nat}
    (front : bytes.take count = other.take count) {offset : Nat}
    {data : List UInt8} (fits : offset ≤ bytes.length)
    (fits' : offset ≤ other.length) :
    (overlay offset data bytes).take count =
      (overlay offset data other).take count := by
  have head : (bytes.take offset).take count =
      (other.take offset).take count := by
    rw [List.take_take, Nat.min_comm, ← List.take_take, front, List.take_take,
      Nat.min_comm, ← List.take_take]
  have tail : ∀ (offset : Nat), (bytes.drop offset).take (count - offset) =
      (other.drop offset).take (count - offset) := by
    intro offset
    rw [← List.drop_take, ← List.drop_take, front]
  rw [overlay, overlay, List.take_append, List.take_append, head,
    List.take_append, List.take_append, List.length_take, List.length_take,
    Nat.min_eq_left fits, Nat.min_eq_left fits', Nat.sub_sub, tail]

theorem take_overlay {offset count : Nat} (before : count ≤ offset)
    {data bytes : List UInt8} (fits : offset ≤ bytes.length) :
    (overlay offset data bytes).take count = bytes.take count := by
  have inside : count ≤ (bytes.take offset).length := by
    rw [List.length_take]
    omega
  rw [overlay, List.take_append_of_le_length inside, List.take_take,
    Nat.min_eq_left before]

theorem length_overlay {offset : Nat} {data bytes : List UInt8}
    (fits : offset + data.length ≤ bytes.length) :
    (overlay offset data bytes).length = bytes.length := by
  simp only [overlay, List.length_append, List.length_take, List.length_drop]
  omega

/-- `count` bytes at `offset`, as far as the array has them. -/
def slice (buffer : Buffer size) (offset count : Nat) : List UInt8 :=
  (buffer.bytes.drop offset).take count

def word16 (bytes : List UInt8) : Nat :=
  (bytes.getD 0 0).toNat * 256 + (bytes.getD 1 0).toNat

theorem length_slice (buffer : Buffer size) {offset count : Nat}
    (fits : offset + count ≤ size) :
    (buffer.slice offset count).length = count := by
  rw [slice, List.length_take, List.length_drop, buffer.length_bytes]
  omega

theorem read_eq_some_iff {buffer : Buffer size} {offset count : Nat}
    {data : List UInt8} :
    buffer.read offset count = some data ↔
      offset + count ≤ size ∧ data = buffer.slice offset count := by
  rw [read, slice]
  split
  · next fits =>
      simp only [Option.some.injEq, fits, true_and]
      exact eq_comm
  · next outside => simp [outside]

theorem read16_eq_some_iff {buffer : Buffer size} {offset value : Nat} :
    buffer.read16 offset = some value ↔
      offset + 2 ≤ size ∧ value = word16 (buffer.slice offset 2) := by
  simp only [read16, Option.bind_eq_bind, Option.bind_eq_some_iff,
    read_eq_some_iff, Option.pure_def, Option.some.injEq]
  constructor
  · rintro ⟨_, ⟨fits, rfl⟩, rfl⟩
    exact ⟨fits, rfl⟩
  · rintro ⟨fits, rfl⟩
    exact ⟨_, ⟨fits, rfl⟩, rfl⟩

theorem write_isSome_iff {buffer : Buffer size} {offset : Nat}
    {data : List UInt8} :
    (∃ next, buffer.write offset data = some next) ↔
      offset + data.length ≤ size := by
  rw [write]
  split
  · next fits => exact iff_of_true ⟨_, rfl⟩ fits
  · next outside => exact iff_of_false (fun ⟨_, written⟩ => nomatch written) outside

theorem bytes_of_write {buffer next : Buffer size} {offset : Nat}
    {data : List UInt8} (written : buffer.write offset data = some next) :
    next.bytes = buffer.bytes.take offset ++
      (data ++ buffer.bytes.drop (offset + data.length)) := by
  rw [write] at written
  split at written
  · cases written
    rfl
  · cases written

theorem fits_of_write {buffer next : Buffer size} {offset : Nat}
    {data : List UInt8} (written : buffer.write offset data = some next) :
    offset + data.length ≤ size :=
  write_isSome_iff.mp ⟨next, written⟩

theorem slice_of_write {buffer next : Buffer size} {offset : Nat}
    {data : List UInt8} (written : buffer.write offset data = some next) :
    next.slice offset data.length = data := by
  have fits := fits_of_write written
  have front : (buffer.bytes.take offset).length = offset := by
    rw [List.length_take, buffer.length_bytes]
    omega
  rw [slice, bytes_of_write written, List.drop_append_of_le_length front.ge,
    List.drop_of_length_le front.le, List.nil_append, List.take_left]

theorem slice_of_write_apart {buffer next : Buffer size} {offset : Nat}
    {data : List UInt8} (written : buffer.write offset data = some next)
    {place count : Nat}
    (apart : place + count ≤ offset ∨ offset + data.length ≤ place) :
    next.slice place count = buffer.slice place count := by
  have fits := fits_of_write written
  have front : (buffer.bytes.take offset).length = offset := by
    rw [List.length_take, buffer.length_bytes]
    omega
  rw [slice, slice, bytes_of_write written]
  rcases apart with before | behind
  · rw [List.drop_append_of_le_length (by omega),
      List.take_append_of_le_length (by
        rw [List.length_drop, front]
        omega),
      List.drop_take, List.take_take, Nat.min_eq_left (by omega)]
  · rw [← List.append_assoc, List.drop_append]
    have skipped : (buffer.bytes.take offset ++ data).length =
        offset + data.length := by
      rw [List.length_append, front]
    rw [List.drop_of_length_le (by omega), List.nil_append, skipped,
      List.drop_drop]
    congr 2
    omega

theorem exists_write (buffer : Buffer size) {offset : Nat} {data : List UInt8}
    (fits : offset + data.length ≤ size) :
    ∃ next, buffer.write offset data = some next ∧
      next.slice offset data.length = data ∧
      ∀ place count, place + count ≤ offset ∨ offset + data.length ≤ place →
        next.slice place count = buffer.slice place count := by
  obtain ⟨next, written⟩ := write_isSome_iff.mpr fits
  refine ⟨next, written, slice_of_write written, ?_⟩
  intro place count apart
  exact slice_of_write_apart written apart

/-- The bytes at `offset` begin with those of the slice, and with no others of
that length. -/
theorem slice_eq_iff_prefix {buffer : Buffer size} {offset : Nat}
    {data : List UInt8} :
    buffer.slice offset data.length = data ↔
      data <+: buffer.bytes.drop offset := by
  rw [slice, List.prefix_iff_eq_take]
  exact eq_comm

theorem slice_prefix {buffer : Buffer size}
    {first second : List UInt8} {offset : Nat} (next : Nat)
    (ends : offset + first.length = next)
    (found : first ++ second <+: buffer.bytes.drop offset) :
    buffer.slice offset first.length = first ∧
      second <+: buffer.bytes.drop next := by
  obtain ⟨rest, whole⟩ := found
  rw [List.append_assoc] at whole
  constructor
  · exact slice_eq_iff_prefix.mpr ⟨_, whole⟩
  · refine ⟨rest, ?_⟩
    rw [← ends, ← List.drop_drop, ← whole, List.drop_left]

theorem slice_add (buffer : Buffer size) (offset first second : Nat) :
    buffer.slice offset (first + second) =
      buffer.slice offset first ++ buffer.slice (offset + first) second := by
  rw [slice, slice, slice, List.take_add, List.drop_drop]

theorem slice_append {buffer : Buffer size} {offset : Nat}
    {first second : List UInt8} (next : Nat)
    (place : offset + first.length = next)
    (here : buffer.slice offset first.length = first)
    (behind : buffer.slice next second.length = second) :
    buffer.slice offset (first ++ second).length = first ++ second := by
  rw [List.length_append, slice_add, here, place, behind]

theorem bytes_eq_append {buffer : Buffer size} {front back : List UInt8}
    (here : buffer.slice 0 front.length = front)
    (behind : buffer.slice front.length (size - front.length) = back) :
    buffer.bytes = front ++ back := by
  have rest : buffer.bytes.drop front.length = back := by
    rw [← behind, slice, List.take_of_length_le]
    rw [List.length_drop, buffer.length_bytes]
  rw [← rest]
  exact (List.take_append_drop front.length buffer.bytes).symm.trans
    (congrArg (· ++ _) here)

theorem slice_zero {offset count : Nat} (fits : offset + count ≤ size) :
    (zero size).slice offset count = List.replicate count 0 := by
  rw [slice, zero, List.drop_replicate, List.take_replicate,
    Nat.min_eq_left (by omega)]

theorem take_drop_slice (buffer : Buffer size) {offset count place length : Nat}
    (inside : place + length ≤ count) :
    ((buffer.slice offset count).drop place).take length =
      buffer.slice (offset + place) length := by
  rw [slice, slice, List.drop_take, List.take_take, List.drop_drop,
    Nat.min_eq_left (by omega)]

theorem ext {first second : Buffer size} (same : first.bytes = second.bytes) :
    first = second := by
  cases first
  cases second
  cases same
  rfl

theorem slice_one_eq_iff {first second : Buffer size} {place place' : Nat} :
    first.slice place 1 = second.slice place' 1 ↔
      first.bytes[place]? = second.bytes[place']? := by
  rw [slice, slice, List.take_one, List.take_one, List.head?_drop,
    List.head?_drop]
  generalize first.bytes[place]? = left
  generalize second.bytes[place']? = right
  cases left with
  | none =>
      cases right with
      | none => simp
      | some byte => simp
  | some byte =>
      cases right with
      | none => simp
      | some other => simp

theorem take_eq_of_slices {first second : Buffer size} {count : Nat}
    (same : ∀ place < count, first.slice place 1 = second.slice place 1) :
    first.bytes.take count = second.bytes.take count := by
  apply List.ext_getElem?
  intro place
  rw [List.getElem?_take, List.getElem?_take]
  split
  · next below => exact slice_one_eq_iff.mp (same place below)
  · rfl

theorem slice_of_take_eq {first second : Buffer size} {count : Nat}
    (same : first.bytes.take count = second.bytes.take count)
    {place length : Nat} (inside : place + length ≤ count) :
    first.slice place length = second.slice place length := by
  have here := congrArg (fun front => (front.drop place).take length) same
  have cut : min length (count - place) = length := by omega
  rw [slice, slice]
  simpa only [List.drop_take, List.take_take, cut] using here

theorem prefix_receive (buffer : Buffer size) {datagram field : List UInt8}
    {offset : Nat} (found : field <+: datagram.drop offset)
    (inside : offset + field.length ≤ size) :
    field <+: (buffer.receive datagram).bytes.drop offset := by
  have cut : field <+: (datagram.take size).drop offset := by
    rw [List.drop_take]
    apply List.prefix_take_iff.mpr
    exact ⟨found, by omega⟩
  rw [bytes_receive]
  exact cut.trans ((List.prefix_append _ _).drop offset)

theorem take_receive (buffer : Buffer size) {datagram : List UInt8}
    (fits : datagram.length ≤ size) :
    (buffer.receive datagram).bytes.take datagram.length = datagram := by
  rw [bytes_receive_of_le buffer fits, List.take_left]

theorem receive_of_take {buffer : Buffer size} {datagram : List UInt8}
    (front : buffer.bytes.take datagram.length = datagram) :
    buffer.receive datagram = buffer := by
  have fits : datagram.length ≤ size := by
    rw [← buffer.length_bytes]
    have length := congrArg List.length front
    rw [List.length_take] at length
    omega
  have same : (buffer.receive datagram).bytes = buffer.bytes := by
    rw [bytes_receive_of_le buffer fits]
    exact (congrArg (· ++ _) front.symm).trans (List.take_append_drop _ _)
  exact ext same

private theorem takeWhile_eq_iff {tail name : List UInt8} :
    (0 ∈ tail ∧ tail.takeWhile (· ≠ 0) = name) ↔
      0 ∉ name ∧ tail.take (name.length + 1) = name ++ [0] := by
  induction tail generalizing name with
  | nil => simp
  | cons byte tail ih =>
      by_cases zero : byte = 0
      · subst zero
        cases name with
        | nil => simp
        | cons first name =>
            simp only [List.mem_cons, true_or, ne_eq, decide_not,
              List.takeWhile_cons, decide_true, Bool.not_true,
              Bool.false_eq_true, if_false, true_and, List.length_cons,
              List.take_succ_cons, List.cons_append, List.cons.injEq]
            constructor
            · intro empty
              cases empty
            · rintro ⟨proper, first, _⟩
              exact (proper (.inl first)).elim
      · cases name with
        | nil => simp [zero]
        | cons first name =>
            simp only [List.mem_cons, Ne.symm zero, false_or, ne_eq, decide_not,
              List.takeWhile_cons, zero, decide_false, Bool.not_false, if_true,
              List.cons.injEq, List.length_cons, List.take_succ_cons,
              List.cons_append] at ih ⊢
            constructor
            · rintro ⟨inside, rfl, same⟩
              obtain ⟨proper, front⟩ := ih.mp ⟨inside, same⟩
              exact ⟨not_or.mpr ⟨Ne.symm zero, proper⟩, rfl, front⟩
            · rintro ⟨proper, rfl, front⟩
              obtain ⟨inside, same⟩ := ih.mpr ⟨(not_or.mp proper).2, front⟩
              exact ⟨inside, rfl, same⟩

/-- The string at `offset` is the slice up to the NUL behind it. -/
theorem cstring_eq_some_iff {buffer : Buffer size} {offset : Nat}
    {name : List UInt8} :
    buffer.cstring offset = some name ↔
      0 ∉ name ∧ offset + name.length + 1 ≤ size ∧
        buffer.slice offset (name.length + 1) = name ++ [0] := by
  have split : buffer.cstring offset = some name ↔
      0 ∈ buffer.bytes.drop offset ∧
        (buffer.bytes.drop offset).takeWhile (· ≠ 0) = name := by
    rw [cstring]
    split
    · next terminated => simp [terminated]
    · next endless => simp [endless]
  rw [split, takeWhile_eq_iff, slice]
  constructor
  · rintro ⟨proper, whole⟩
    refine ⟨proper, ?_, whole⟩
    have length := congrArg List.length whole
    simp only [List.length_take, List.length_drop, buffer.length_bytes,
      List.length_append, List.length_singleton] at length
    omega
  · rintro ⟨proper, _, whole⟩
    exact ⟨proper, whole⟩

/-- A string and the NULs behind it, read into a cleared array: the string
comes out if there is room for a NUL, and has no end otherwise. -/
theorem cstring_receive_zero {text : List UInt8} (proper : 0 ∉ text)
    {count : Nat} (positive : 0 < count) :
    ((zero size).receive (text ++ List.replicate count 0)).cstring 0 =
      if text.length < size then some text else none := by
  split
  · next room =>
      apply cstring_eq_some_iff.mpr
      refine ⟨proper, by omega, ?_⟩
      obtain ⟨count, rfl⟩ := Nat.exists_eq_add_of_lt positive
      have front : text ++ [0] <+:
          text ++ List.replicate (0 + count + 1) (0 : UInt8) := by
        rw [List.replicate_succ]
        exact ⟨_, List.append_assoc text [0] _⟩
      rw [← List.length_singleton (a := (0 : UInt8)), ← List.length_append]
      apply slice_eq_iff_prefix.mpr
      rw [List.drop_zero, bytes_receive]
      apply List.IsPrefix.trans _ (List.prefix_append _ _)
      apply List.prefix_take_iff.mpr
      refine ⟨front, ?_⟩
      rw [List.length_append, List.length_singleton]
      exact room
  · next full =>
      have cut : (text ++ List.replicate count (0 : UInt8)).take size =
          text.take size :=
        List.take_append_of_le_length (by omega)
      have filled : (text.take size).length = size := by
        rw [List.length_take]
        omega
      have bytes : ((zero size).receive
          (text ++ List.replicate count 0)).bytes = text.take size := by
        rw [bytes_receive, cut, filled,
          List.drop_of_length_le (zero size).length_bytes.le, List.append_nil]
      rw [cstring, bytes, List.drop_zero]
      exact if_neg fun terminated => proper (List.mem_of_mem_take terminated)

end Buffer

end NodeIdentity.Library
