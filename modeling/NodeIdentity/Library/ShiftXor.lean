import Mathlib.Data.List.Induction

/-!
# Shift-xor folds

A checksum which takes in one word after the other, by an exclusive or and a
shift to the left.  Each bit of the result is the parity of one diagonal of the
words: bit zero of the last one, bit one of the one before, and so on.  What
would be shifted out is lost, so only as many words count as there are bits.
-/

namespace NodeIdentity.Library

variable {width : Nat}

def shiftXor (words : List (BitVec width)) : BitVec width :=
  words.foldl (fun sum word => (sum ^^^ word) <<< 1) 0

/-- The parity of bit `k` of the first word, bit `k - 1` of the second, ... -/
def diagonal : List Nat → Nat → Bool
  | [], _ => false
  | word :: _, 0 => word.testBit 0
  | word :: words, k + 1 => word.testBit (k + 1) ^^ diagonal words k

theorem shiftXor_snoc (words : List (BitVec width)) (word : BitVec width) :
    shiftXor (words ++ [word]) = (shiftXor words ^^^ word) <<< 1 := by
  rw [shiftXor, List.foldl_append]
  rfl

theorem getLsbD_zero_shiftXor (words : List (BitVec width)) :
    (shiftXor words).getLsbD 0 = false := by
  induction words using List.reverseRecOn with
  | nil => simp [shiftXor]
  | append_singleton words word _ =>
      rw [shiftXor_snoc]
      simp

theorem getLsbD_succ_shiftXor (words : List (BitVec width)) {k : Nat}
    (inside : k + 1 < width) :
    (shiftXor words).getLsbD (k + 1) =
      diagonal (words.reverse.map BitVec.toNat) k := by
  induction words using List.reverseRecOn generalizing k with
  | nil => simp [shiftXor, diagonal]
  | append_singleton words word ih =>
      have shifted : (shiftXor (words ++ [word])).getLsbD (k + 1) =
          ((shiftXor words).getLsbD k ^^ word.getLsbD k) := by
        rw [shiftXor_snoc]
        simp only [BitVec.getLsbD_shiftLeft, BitVec.getLsbD_xor, inside,
          decide_true, Nat.add_sub_cancel, Bool.true_and]
        simp
      have order : (words ++ [word]).reverse.map BitVec.toNat =
          word.toNat :: words.reverse.map BitVec.toNat := by simp
      rw [shifted, order]
      cases k with
      | zero =>
          rw [getLsbD_zero_shiftXor, Bool.false_xor]
          rfl
      | succ k =>
          rw [ih (Nat.lt_of_succ_lt inside), Bool.xor_comm]
          rfl

theorem shiftXor_eq_iff {left right : List (BitVec width)} :
    shiftXor left = shiftXor right ↔
      ∀ k, k + 1 < width →
        diagonal (left.reverse.map BitVec.toNat) k =
          diagonal (right.reverse.map BitVec.toNat) k := by
  constructor
  · intro same k inside
    rw [← getLsbD_succ_shiftXor left inside, same,
      getLsbD_succ_shiftXor right inside]
  · intro same
    apply BitVec.eq_of_getLsbD_eq
    intro index inside
    cases index with
    | zero => rw [getLsbD_zero_shiftXor, getLsbD_zero_shiftXor]
    | succ k =>
        rw [getLsbD_succ_shiftXor left inside, getLsbD_succ_shiftXor right inside]
        exact same k inside

end NodeIdentity.Library
