import Mathlib.Data.List.Basic
import Mathlib.Tactic.Linarith

/-!
# Fixed-width binary formats

A record of a C program has one width, and reading it back from a longer
buffer only looks at that prefix.  A codec packages both directions with the
two laws that matter: the width of what is written, and that a written value
is read back whatever follows it.  Formats of records are assembled from
formats of fields by `pair` and `imap`.
-/

namespace NodeIdentity.Library

universe u v

structure FixedCodec (α : Type u) where
  width : Nat
  encode : α → List UInt8
  decode : List UInt8 → α
  length_encode : ∀ value, (encode value).length = width
  decode_append : ∀ value rest, decode (encode value ++ rest) = value

namespace FixedCodec

variable {α : Type u} {β : Type v}

theorem decode_encode (codec : FixedCodec α) (value : α) :
    codec.decode (codec.encode value) = value := by
  simpa using codec.decode_append value []

def bytes (n : Nat) : FixedCodec (Vector UInt8 n) :=
  { width := n
    encode := Vector.toList
    decode := fun input => Vector.ofFn fun index => input.getD index 0
    length_encode := by simp
    decode_append := by
      intro value rest
      ext index below
      have inValue : index < value.toList.length := by simpa using below
      simp [List.getElem?_append_left inValue, below] }

theorem encode_decode_bytes {n : Nat} {input : List UInt8}
    (length : input.length = n) :
    (bytes n).encode ((bytes n).decode input) = input := by
  apply List.ext_getElem
  · simp [bytes, length]
  · intro index _ inInput
    simp [bytes, inInput]

/-- Reading looks at the bytes of the format and at none behind them. -/
def Prefixed (codec : FixedCodec α) : Prop :=
  ∀ input, codec.decode (input.take codec.width) = codec.decode input

/-- Writing what has been read gives the bytes it was read from. -/
def Faithful (codec : FixedCodec α) : Prop :=
  ∀ input, codec.width ≤ input.length →
    codec.encode (codec.decode input) = input.take codec.width

theorem Prefixed.decode_congr {codec : FixedCodec α} (prefixed : codec.Prefixed)
    {bytes other : List UInt8} {offset : Nat}
    (front : bytes.take (offset + codec.width) =
      other.take (offset + codec.width)) :
    codec.decode (bytes.drop offset) = codec.decode (other.drop offset) := by
  rw [← prefixed (bytes.drop offset), ← prefixed (other.drop offset),
    List.take_drop, List.take_drop, front]

theorem Faithful.decode_eq_iff {codec : FixedCodec α}
    (faithful : codec.Faithful) (prefixed : codec.Prefixed)
    {input : List UInt8} (long : codec.width ≤ input.length) {value : α} :
    codec.decode input = value ↔
      input.take codec.width = codec.encode value := by
  constructor
  · intro read
    rw [← read, faithful input long]
  · intro front
    rw [← prefixed, front, codec.decode_encode]

theorem bytes_prefixed (n : Nat) : (bytes n).Prefixed := by
  intro input
  ext index below
  simp [bytes]

theorem bytes_faithful (n : Nat) : (bytes n).Faithful := by
  intro input long
  have cut := bytes_prefixed n input
  have width : (bytes n).width = n := rfl
  rw [← cut, width]
  apply encode_decode_bytes
  rw [List.length_take]
  exact Nat.min_eq_left long

theorem toList_decode_bytes {n : Nat} {input : List UInt8}
    (long : n ≤ input.length) :
    ((bytes n).decode input).toList = input.take n :=
  bytes_faithful n input long

def uint32le : FixedCodec UInt32 :=
  { width := 4
    encode := fun word =>
      [UInt8.ofNat word.toNat, UInt8.ofNat (word.toNat / 256),
        UInt8.ofNat (word.toNat / 65536), UInt8.ofNat (word.toNat / 16777216)]
    decode := fun input =>
      UInt32.ofNat ((input.getD 0 0).toNat + 256 * (input.getD 1 0).toNat +
        65536 * (input.getD 2 0).toNat + 16777216 * (input.getD 3 0).toNat)
    length_encode := fun _ => rfl
    decode_append := by
      intro word rest
      have below := word.toNat_lt
      apply UInt32.toNat_inj.mp
      simp
      omega }

theorem uint32le_prefixed : uint32le.Prefixed := by
  intro input
  simp [uint32le, List.getElem?_take_of_lt]

theorem uint32le_faithful : uint32le.Faithful := by
  intro input long
  have width : uint32le.width = 4 := rfl
  rw [width] at long ⊢
  match input, long with
  | first :: second :: third :: fourth :: rest, _ =>
      have firstBelow := first.toNat_lt
      have secondBelow := second.toNat_lt
      have thirdBelow := third.toNat_lt
      have fourthBelow := fourth.toNat_lt
      simp only [uint32le, List.getD_cons_zero, List.getD_cons_succ,
        List.take_succ_cons, List.take_zero, List.cons.injEq,
        ← UInt8.toNat_inj, and_true]
      generalize first.toNat = a at *
      generalize second.toNat = b at *
      generalize third.toNat = c at *
      generalize fourth.toNat = d at *
      have whole : (UInt32.ofNat
          (a + 256 * b + 65536 * c + 16777216 * d)).toNat =
          a + 256 * b + 65536 * c + 16777216 * d :=
        UInt32.toNat_ofNat_of_lt' (by
          rw [UInt32.size]
          omega)
      rw [whole]
      simp only [UInt8.toNat_ofNat']
      omega

def pair (first : FixedCodec α) (second : FixedCodec β) :
    FixedCodec (α × β) :=
  { width := first.width + second.width
    encode := fun value => first.encode value.1 ++ second.encode value.2
    decode := fun input =>
      (first.decode input, second.decode (input.drop first.width))
    length_encode := by
      simp [first.length_encode, second.length_encode]
    decode_append := by
      intro value rest
      have skip : (first.encode value.1 ++
          (second.encode value.2 ++ rest)).drop first.width =
            second.encode value.2 ++ rest := by
        rw [← first.length_encode value.1, List.drop_left]
      rw [List.append_assoc, skip, first.decode_append, second.decode_append] }

def imap (codec : FixedCodec α) (read : α → β) (write : β → α)
    (read_write : ∀ value, read (write value) = value) : FixedCodec β :=
  { width := codec.width
    encode := fun value => codec.encode (write value)
    decode := fun input => read (codec.decode input)
    length_encode := fun value => codec.length_encode (write value)
    decode_append := fun value rest => by
      rw [codec.decode_append, read_write] }

theorem Faithful.pair {first : FixedCodec α} {second : FixedCodec β}
    (firstFaithful : first.Faithful) (secondFaithful : second.Faithful) :
    (first.pair second).Faithful := by
  intro input long
  have width : (first.pair second).width = first.width + second.width := rfl
  rw [width] at long ⊢
  have behind : second.width ≤ (input.drop first.width).length := by
    rw [List.length_drop]
    omega
  rw [List.take_add, ← firstFaithful input (by omega),
    ← secondFaithful _ behind]
  rfl

theorem Faithful.imap {codec : FixedCodec α} (faithful : codec.Faithful)
    {read : α → β} {write : β → α}
    {read_write : ∀ value, read (write value) = value}
    (write_read : ∀ value, write (read value) = value) :
    (codec.imap read write read_write).Faithful := by
  intro input long
  have same : (codec.imap read write read_write).encode
      ((codec.imap read write read_write).decode input) =
        codec.encode (write (read (codec.decode input))) := rfl
  rw [same, write_read]
  exact faithful input long

theorem Prefixed.pair {first : FixedCodec α} {second : FixedCodec β}
    (firstPrefixed : first.Prefixed) (secondPrefixed : second.Prefixed) :
    (first.pair second).Prefixed := by
  intro input
  have width : (first.pair second).width = first.width + second.width := rfl
  have front : first.decode (input.take (first.width + second.width)) =
      first.decode input := by
    rw [← firstPrefixed, List.take_take, Nat.min_eq_left (Nat.le_add_right _ _),
      firstPrefixed]
  have behind : second.decode
      ((input.take (first.width + second.width)).drop first.width) =
        second.decode (input.drop first.width) := by
    rw [List.drop_take, Nat.add_sub_cancel_left, secondPrefixed]
  rw [width]
  exact Prod.ext front behind

theorem Prefixed.imap {codec : FixedCodec α} (prefixed : codec.Prefixed)
    {read : α → β} {write : β → α}
    {read_write : ∀ value, read (write value) = value} :
    (codec.imap read write read_write).Prefixed :=
  fun input => congrArg read (prefixed input)

end FixedCodec

end NodeIdentity.Library
