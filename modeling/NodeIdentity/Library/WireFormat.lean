import Mathlib.Data.List.Basic
import Mathlib.Tactic.Linarith

/-!
# Formats of messages

A format writes a value in front of some bytes and takes it from there again.
Its one law says that it takes exactly the valid values, each as it is written,
so a message has one reading and a value one form.  Formats are assembled: one
after another, as often as a number read before says, or read as another type.
-/

namespace NodeIdentity.Library

universe u v

structure WireFormat (α : Type u) where
  Valid : α → Prop
  encode : α → List UInt8
  parse : List UInt8 → Option (α × List UInt8)
  parse_iff : ∀ bytes value rest, parse bytes = some (value, rest) ↔
    Valid value ∧ bytes = encode value ++ rest

namespace WireFormat

variable {α : Type u} {β : Type v}

theorem parse_encode (format : WireFormat α) {value : α}
    (valid : format.Valid value) (rest : List UInt8) :
    format.parse (format.encode value ++ rest) = some (value, rest) :=
  (format.parse_iff _ _ _).mpr ⟨valid, rfl⟩

def word16 : WireFormat Nat :=
  { Valid := fun value => value < 65536
    encode := fun value => [UInt8.ofNat (value / 256), UInt8.ofNat value]
    parse := fun bytes =>
      match bytes with
      | high :: low :: rest => some (high.toNat * 256 + low.toNat, rest)
      | _ => none
    parse_iff := by
      intro bytes value rest
      constructor
      · intro parsed
        split at parsed
        · next high low left =>
            cases parsed
            have highBelow := high.toNat_lt
            have lowBelow := low.toNat_lt
            refine ⟨by omega, ?_⟩
            have first : UInt8.ofNat ((high.toNat * 256 + low.toNat) / 256) =
                high := by
              apply UInt8.toNat_inj.mp
              rw [UInt8.toNat_ofNat']
              omega
            have second : UInt8.ofNat (high.toNat * 256 + low.toNat) = low := by
              apply UInt8.toNat_inj.mp
              rw [UInt8.toNat_ofNat']
              omega
            rw [first, second]
            rfl
        · cases parsed
      · rintro ⟨below, rfl⟩
        simp only [List.cons_append, List.nil_append, UInt8.toNat_ofNat',
          Option.some.injEq, Prod.mk.injEq, and_true]
        omega }

theorem encode_word16 (high low : UInt8) :
    word16.encode (high.toNat * 256 + low.toNat) = [high, low] := by
  have parsed : word16.parse [high, low] =
      some (high.toNat * 256 + low.toNat, []) := rfl
  obtain ⟨_, whole⟩ := (word16.parse_iff _ _ _).mp parsed
  rw [List.append_nil] at whole
  exact whole.symm

def bytes (count : Nat) : WireFormat (List UInt8) :=
  { Valid := fun value => value.length = count
    encode := id
    parse := fun bytes =>
      if count ≤ bytes.length then some (bytes.take count, bytes.drop count)
      else none
    parse_iff := by
      intro bytes value rest
      constructor
      · intro parsed
        split at parsed
        · next inside =>
            cases parsed
            exact ⟨List.length_take_of_le inside,
              (List.take_append_drop count bytes).symm⟩
        · cases parsed
      · rintro ⟨rfl, rfl⟩
        simp }

/-- One format after another, which may depend on the value of the first. -/
def andThen (first : WireFormat α) (second : α → WireFormat β) :
    WireFormat (α × β) :=
  { Valid := fun value =>
      first.Valid value.1 ∧ (second value.1).Valid value.2
    encode := fun value =>
      first.encode value.1 ++ (second value.1).encode value.2
    parse := fun bytes =>
      (first.parse bytes).bind fun front =>
        ((second front.1).parse front.2).map fun back =>
          ((front.1, back.1), back.2)
    parse_iff := by
      intro bytes value rest
      simp only [Option.bind_eq_some_iff, Option.map_eq_some_iff]
      constructor
      · rintro ⟨⟨front, middle⟩, firstParsed, ⟨back, left⟩, parsed, equal⟩
        cases equal
        obtain ⟨frontValid, rfl⟩ := (first.parse_iff _ _ _).mp firstParsed
        obtain ⟨backValid, rfl⟩ := ((second front).parse_iff _ _ _).mp parsed
        exact ⟨⟨frontValid, backValid⟩, (List.append_assoc _ _ _).symm⟩
      · rintro ⟨⟨frontValid, backValid⟩, rfl⟩
        rw [List.append_assoc]
        exact ⟨_, first.parse_encode frontValid _, _,
          (second value.1).parse_encode backValid rest, rfl⟩ }

def pair (first : WireFormat α) (second : WireFormat β) : WireFormat (α × β) :=
  first.andThen fun _ => second

def imap (format : WireFormat α) (read : α → β) (write : β → α)
    (read_write : ∀ value, read (write value) = value)
    (write_read : ∀ value, format.Valid value → write (read value) = value) :
    WireFormat β :=
  { Valid := fun value => format.Valid (write value)
    encode := fun value => format.encode (write value)
    parse := fun bytes =>
      (format.parse bytes).map fun front => (read front.1, front.2)
    parse_iff := by
      intro bytes value rest
      simp only [Option.map_eq_some_iff]
      constructor
      · rintro ⟨⟨front, left⟩, parsed, equal⟩
        cases equal
        obtain ⟨valid, rfl⟩ := (format.parse_iff _ _ _).mp parsed
        rw [write_read front valid]
        exact ⟨valid, rfl⟩
      · rintro ⟨valid, rfl⟩
        refine ⟨_, format.parse_encode valid rest, ?_⟩
        rw [read_write] }

def counted : WireFormat (List UInt8) :=
  (word16.andThen bytes).imap Prod.snd (fun data => (data.length, data))
    (fun _ => rfl) (fun value valid => by
      have length : value.2.length = value.1 := valid.2
      rw [length])

def word32 : WireFormat Nat :=
  (word16.pair word16).imap (fun halves => halves.1 * 65536 + halves.2)
    (fun value => (value / 65536, value % 65536))
    (fun value => by
      dsimp only
      omega)
    (fun halves valid => by
      have low : halves.2 < 65536 := valid.2
      ext
      · dsimp only
        omega
      · dsimp only
        omega)

theorem counted_valid_iff {data : List UInt8} :
    counted.Valid data ↔ data.length < 65536 :=
  and_iff_left rfl

theorem word32_valid_iff {value : Nat} :
    word32.Valid value ↔ value < 4294967296 := by
  constructor
  · intro valid
    have high : value / 65536 < 65536 := valid.1
    omega
  · intro below
    have high : value / 65536 < 65536 := by omega
    exact ⟨high, Nat.mod_lt _ (by decide)⟩

def parseMany (item : WireFormat α) :
    Nat → List UInt8 → Option (List α × List UInt8)
  | 0, bytes => some ([], bytes)
  | count + 1, bytes =>
      (item.parse bytes).bind fun front =>
        (parseMany item count front.2).map fun back =>
          (front.1 :: back.1, back.2)

theorem parseMany_iff (item : WireFormat α) {count : Nat} {bytes : List UInt8}
    {values : List α} {rest : List UInt8} :
    item.parseMany count bytes = some (values, rest) ↔
      (values.length = count ∧ ∀ value ∈ values, item.Valid value) ∧
        bytes = values.flatMap item.encode ++ rest := by
  induction count generalizing bytes values with
  | zero =>
      constructor
      · intro parsed
        cases parsed
        refine ⟨⟨rfl, ?_⟩, rfl⟩
        intro value member
        cases member
      · rintro ⟨⟨empty, _⟩, rfl⟩
        rw [List.length_eq_zero_iff.mp empty]
        rfl
  | succ count ih =>
      simp only [parseMany, Option.bind_eq_some_iff, Option.map_eq_some_iff]
      constructor
      · rintro ⟨⟨front, middle⟩, first, ⟨back, left⟩, parsed, equal⟩
        cases equal
        obtain ⟨frontValid, rfl⟩ := (item.parse_iff _ _ _).mp first
        obtain ⟨⟨length, backValid⟩, rfl⟩ := ih.mp parsed
        refine ⟨⟨congrArg (· + 1) length, ?_⟩, ?_⟩
        · exact List.forall_mem_cons.mpr ⟨frontValid, backValid⟩
        · rw [List.flatMap_cons, List.append_assoc]
      · rintro ⟨⟨length, valid⟩, rfl⟩
        cases values with
        | nil => cases length
        | cons front back =>
            obtain ⟨frontValid, backValid⟩ := List.forall_mem_cons.mp valid
            rw [List.flatMap_cons, List.append_assoc]
            exact ⟨_, item.parse_encode frontValid _, _,
              ih.mpr ⟨⟨Nat.succ.inj length, backValid⟩, rfl⟩, rfl⟩

def many (item : WireFormat α) (count : Nat) : WireFormat (List α) :=
  { Valid := fun values =>
      values.length = count ∧ ∀ value ∈ values, item.Valid value
    encode := fun values => values.flatMap item.encode
    parse := item.parseMany count
    parse_iff := fun _ _ _ => item.parseMany_iff }

end WireFormat

end NodeIdentity.Library
