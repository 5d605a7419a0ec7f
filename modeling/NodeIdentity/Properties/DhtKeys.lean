import NodeIdentity.DhtThreads
import NodeIdentity.Library.ShiftXor

/-!
# Keys in the DHT

A key is a hash of 32 bits, and no two NIDs may share one if a core gateway is
to find the locator of another.  The hash is a shift-xor fold: it keeps the
parities of 31 diagonals of the text, so texts which agree in these collide.
-/

namespace NodeIdentity

open NodeIdentity.Library

def backwards (text : List UInt8) : List Nat :=
  text.reverse.map UInt8.toNat

/-- Some diagonal of the last 31 characters has an odd number of bits in one
text and an even number in the other. -/
def DiagonalsDiffer (first second : List UInt8) : Prop :=
  ∃ k < 31, diagonal (backwards first) k ≠ diagonal (backwards second) k

instance (first second : List UInt8) : Decidable (DiagonalsDiffer first second) :=
  inferInstanceAs (Decidable (∃ k < 31, _))

/-- The key published for one NID is the one asked for with the other exactly
if they are the same NID. -/
def KeySeparates (config : Configuration) (nid : NID) : Prop :=
  (threadDhtUpdate config).key = (dhtGetArgs nid).key ↔ config.nid = nid

theorem toBitVec_hashLoop (characters : List UInt32) :
    (hashLoop characters).toBitVec =
      shiftXor (characters.map UInt32.toBitVec) := by
  induction characters using List.reverseRecOn with
  | nil => rfl
  | append_singleton characters character ih =>
      rw [hashLoop, List.foldl_concat, ← hashLoop, List.map_append,
        List.map_singleton, shiftXor_snoc, ← ih]
      rfl

theorem signedChar_toNat {character : UInt8} (ascii : character.toNat < 128) :
    (signedChar character).toNat = character.toNat := by
  have small : character < 128 := UInt8.lt_iff_toNat_lt.mpr ascii
  rw [signedChar, if_pos small]
  exact UInt8.toNat_toUInt32 character

theorem hashNid_eq_iff {first second : List UInt8}
    (ascii : ∀ character ∈ first ++ second, character.toNat < 128) :
    hashNid first = hashNid second ↔ ¬ DiagonalsDiffer first second := by
  have words : ∀ text : List UInt8,
      (∀ character ∈ text, character.toNat < 128) →
      ((text.map signedChar).map UInt32.toBitVec).reverse.map BitVec.toNat =
        backwards text := by
    intro text small
    rw [backwards, List.map_map, ← List.map_reverse, List.map_map]
    apply List.map_congr_left
    intro character member
    exact signedChar_toNat (small character (List.mem_reverse.mp member))
  have left := words first fun character member =>
    ascii character (List.mem_append_left second member)
  have right := words second fun character member =>
    ascii character (List.mem_append_right first member)
  rw [← UInt32.toBitVec_inj, hashNid, hashNid, toBitVec_hashLoop,
    toBitVec_hashLoop, shiftXor_eq_iff, left, right]
  simp only [DiagonalsDiffer, not_exists, not_and, not_not]
  constructor
  · intro same k inside
    exact same k (Nat.succ_lt_succ inside)
  · intro same k inside
    exact same k (Nat.lt_of_succ_lt_succ inside)

/-- A key separates two NIDs exactly if a diagonal of their texts does. -/
theorem keySeparates_iff (config : Configuration) (nid : NID) :
    KeySeparates config nid ↔
      config.nid = nid ∨
        DiagonalsDiffer (inetNtop6 config.nid) (inetNtop6 nid) := by
  have ascii : ∀ character ∈ inetNtop6 config.nid ++ inetNtop6 nid,
      character.toNat < 128 := by
    intro character member
    rcases List.mem_append.mp member with own | other
    · exact ((addressText_inetNtop6 config.nid).chars character own).toNat_lt
    · exact ((addressText_inetNtop6 nid).chars character other).toNat_lt
  have keys : (threadDhtUpdate config).key = (dhtGetArgs nid).key ↔
      ¬ DiagonalsDiffer (inetNtop6 config.nid) (inetNtop6 nid) :=
    bambooKey_eq_iff.trans (hashNid_eq_iff ascii)
  rw [KeySeparates, keys]
  constructor
  · intro separates
    by_cases differ : DiagonalsDiffer (inetNtop6 config.nid) (inetNtop6 nid)
    · exact .inr differ
    · exact .inl (separates.mp differ)
  · rintro (rfl | differ)
    · simp [DiagonalsDiffer]
    · refine iff_of_false (fun same => same differ) ?_
      rintro rfl
      simp [DiagonalsDiffer] at differ

section Example

/-- `3ffe::110` and `3ffe::102`: moving a bit up in one character and down in
the next keeps its diagonal. -/
theorem not_keySeparates : ¬ ∀ config nid, KeySeparates config nid := by
  intro separates
  have same : hashNid (inetNtop6 (NID.ofNat (0x3ffe * 2 ^ 112 + 0x110))) =
      hashNid (inetNtop6 (NID.ofNat (0x3ffe * 2 ^ 112 + 0x102))) := by
    decide +kernel
  have collide := (separates
    (.sample .core (NID.ofNat (0x3ffe * 2 ^ 112 + 0x110)))
    (NID.ofNat (0x3ffe * 2 ^ 112 + 0x102))).mp (bambooKey_eq_iff.mpr same)
  revert collide
  decide +kernel

end Example

end NodeIdentity
