import Mathlib.Data.Vector.Basic
import Mathlib.Tactic.IntervalCases

/-!
# Byte order of a machine

A word of 32 bits lies in memory as four bytes, and which comes first depends
on the machine.  Loading and storing are inverse under either order, so a word
converted from network order is stored as the bytes of the network.
-/

namespace NodeIdentity.Library

inductive ByteOrder where
  | little
  | big
  deriving DecidableEq

namespace ByteOrder

/-- The weight, as a power of 256, of the byte at an index. -/
def weight : ByteOrder → Nat → Nat
  | little, index => index
  | big, index => 3 - index

/-- The four bytes of a word, in the order they have in memory. -/
def bytes (order : ByteOrder) (word : UInt32) : Vector UInt8 4 :=
  Vector.ofFn fun index =>
    UInt8.ofNat (word.toNat / 256 ^ order.weight index.val)

def number : ByteOrder → Vector UInt8 4 → Nat
  | little, memory =>
      memory.toList.foldr (fun byte number => byte.toNat + 256 * number) 0
  | big, memory =>
      memory.toList.foldl (fun number byte => byte.toNat + 256 * number) 0

def load (order : ByteOrder) (memory : Vector UInt8 4) : UInt32 :=
  UInt32.ofNat (order.number memory)

/-- `ntohl`: the bytes of the word are read as the network writes them. -/
def ntohl (order : ByteOrder) (word : UInt32) : UInt32 :=
  big.load (order.bytes word)

def wordOf (number : Nat) : Option UInt32 :=
  if number < 2 ^ 32 then some (UInt32.ofNat number) else none

theorem wordOf_eq {number : Nat} (fits : number < 2 ^ 32) :
    wordOf number = some (UInt32.ofNat number) :=
  if_pos fits

theorem exists_toList (memory : Vector UInt8 4) :
    ∃ first second third fourth, memory.toList = [first, second, third, fourth] :=
  List.length_eq_four.mp memory.length_toList

theorem toList_bytes (order : ByteOrder) (word : UInt32) :
    (order.bytes word).toList = (List.range 4).map fun index =>
      UInt8.ofNat (word.toNat / 256 ^ order.weight index) := by
  rw [bytes, Vector.toList_ofFn]
  rfl

theorem number_lt (order : ByteOrder) (memory : Vector UInt8 4) :
    order.number memory < 2 ^ 32 := by
  obtain ⟨first, second, third, fourth, bytes⟩ := exists_toList memory
  have small := first.toNat_lt
  have small₂ := second.toNat_lt
  have small₃ := third.toNat_lt
  have small₄ := fourth.toNat_lt
  cases order with
  | little =>
      rw [number, bytes]
      simp only [List.foldr_cons, List.foldr_nil]
      omega
  | big =>
      rw [number, bytes]
      simp only [List.foldl_cons, List.foldl_nil]
      omega

theorem bytes_load (order : ByteOrder) (memory : Vector UInt8 4) :
    order.bytes (order.load memory) = memory := by
  obtain ⟨first, second, third, fourth, bytes⟩ := exists_toList memory
  have small := first.toNat_lt
  have small₂ := second.toNat_lt
  have small₃ := third.toNat_lt
  have small₄ := fourth.toNat_lt
  have fits : (order.load memory).toNat = order.number memory :=
    UInt32.toNat_ofNat_of_lt' (order.number_lt memory)
  apply Vector.toList_inj.mp
  rw [toList_bytes, fits, bytes]
  cases order with
  | little =>
      rw [number, bytes]
      simp [List.range_succ, weight, ← UInt8.toNat_inj]
      omega
  | big =>
      rw [number, bytes]
      simp [List.range_succ, weight, ← UInt8.toNat_inj]
      omega

theorem bytes_little (word : UInt32) :
    little.bytes word = (big.bytes word).reverse := by
  apply Vector.ext
  intro index below
  rw [Vector.getElem_reverse, bytes, bytes, Vector.getElem_ofFn,
    Vector.getElem_ofFn]
  have mirrored : 3 - (4 - 1 - index) = index := by omega
  simp only [weight, mirrored]

/-- Whatever the machine, a word converted from network order lies in memory
as the network writes it. -/
theorem bytes_ntohl (order : ByteOrder) (word : UInt32) :
    order.bytes (order.ntohl word) = big.bytes word := by
  cases order with
  | little =>
      rw [ntohl, bytes_little, bytes_load, bytes_little, Vector.reverse_reverse]
  | big => rw [ntohl, bytes_load]

end ByteOrder

end NodeIdentity.Library
