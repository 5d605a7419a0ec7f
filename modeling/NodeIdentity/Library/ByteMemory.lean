import Mathlib.Data.List.Basic

/-!
# Bytes in a piece of memory

Reading and writing some bytes at an index; `none` is an access outside.
-/

namespace NodeIdentity.Library

def readAt (memory : List UInt8) (offset count : Nat) : Option (List UInt8) :=
  if offset + count ≤ memory.length then
    some ((memory.drop offset).take count)
  else none

def writeAt (memory : List UInt8) (offset : Nat) (data : List UInt8) :
    Option (List UInt8) :=
  if offset + data.length ≤ memory.length then
    some (memory.take offset ++ data ++ memory.drop (offset + data.length))
  else none

/-- Blocks of some size from an offset on, until the length is reached. -/
def readBlocks (memory : List UInt8) (size offset length : Nat) :
    Option (List (List UInt8)) :=
  (List.range' offset ((length - offset + (size - 1)) / size) size).mapM
    fun place => readAt memory place size

theorem readAt_eq {memory : List UInt8} {offset count : Nat}
    (room : offset + count ≤ memory.length) :
    readAt memory offset count = some ((memory.drop offset).take count) :=
  if_pos room

theorem readAt_eq_none_iff {memory : List UInt8} {offset count : Nat} :
    readAt memory offset count = none ↔ memory.length < offset + count := by
  rw [← Nat.not_le, readAt]
  split
  case isTrue room =>
    exact ⟨fun found => (nomatch found), fun outside => (outside room).elim⟩
  case isFalse outside => exact ⟨fun _ => outside, fun _ => rfl⟩

theorem readAt_isSome_iff {memory : List UInt8} {offset count : Nat} :
    (readAt memory offset count).isSome ↔ offset + count ≤ memory.length := by
  rw [← Option.ne_none_iff_isSome, ne_eq, readAt_eq_none_iff, Nat.not_lt]

theorem readRange_isSome_iff {memory : List UInt8} {offset size count : Nat} :
    ((List.range' offset count size).mapM
        fun place => readAt memory place size).isSome ↔
      count = 0 ∨ offset + size * count ≤ memory.length := by
  induction count generalizing offset with
  | zero => simp
  | succ count ih =>
      have both : ((List.range' offset (count + 1) size).mapM
          fun place => readAt memory place size).isSome ↔
          (readAt memory offset size).isSome ∧
            ((List.range' (offset + size) count size).mapM
              fun place => readAt memory place size).isSome := by
        rw [List.range'_succ, List.mapM_cons]
        cases readAt memory offset size with
        | none => simp
        | some block =>
            cases (List.range' (offset + size) count size).mapM
              fun place => readAt memory place size <;> simp
      rw [both, ih, readAt_isSome_iff, Nat.mul_succ]
      rcases Nat.eq_zero_or_pos count with rfl | more
      · simp
      · have first : size ≤ size * count := Nat.le_mul_of_pos_right size more
        omega

/-- A length rounded up to blocks is at most one more if it is a number of
blocks, or one less than that. -/
theorem roundUp_le_succ_iff {size length : Nat} (positive : 0 < size) :
    size * ((length + (size - 1)) / size) ≤ length + 1 ↔
      size ∣ length ∨ size ∣ length + 1 := by
  have split := Nat.div_add_mod (length + (size - 1)) size
  have rest := Nat.mod_lt (length + (size - 1)) positive
  generalize (length + (size - 1)) / size = count at split ⊢
  generalize (length + (size - 1)) % size = left at split rest
  constructor
  · intro small
    have near : size * count = length ∨ size * count = length + 1 := by omega
    rcases near with same | more
    · exact .inl ⟨count, same.symm⟩
    · exact .inr ⟨count, more.symm⟩
  · rintro (⟨blocks, rfl⟩ | ⟨blocks, more⟩)
    · have below : size * count < size * (blocks + 1) := by
        rw [Nat.mul_succ]
        omega
      have least := Nat.lt_succ_iff.mp (Nat.lt_of_mul_lt_mul_left below)
      exact Nat.le_succ_of_le (Nat.mul_le_mul_left size least)
    · have below : size * count < size * (blocks + 1) := by
        rw [Nat.mul_succ]
        omega
      have least := Nat.lt_succ_iff.mp (Nat.lt_of_mul_lt_mul_left below)
      exact more ▸ Nat.mul_le_mul_left size least

/-- The memory of some bytes, which there are, has one byte behind them or is
as long as a number of blocks. -/
def Tailed (size length : Nat) (memory : List UInt8) : Prop :=
  memory.length = length + 1 ∨ memory.length = length ∧ size ∣ length

theorem Tailed.roundUp_iff {memory : List UInt8} {size length : Nat}
    (tailed : Tailed size length memory) (positive : 0 < size) :
    size * ((length + (size - 1)) / size) ≤ memory.length ↔
      size ∣ length ∨ size ∣ length + 1 := by
  rcases tailed with more | ⟨same, whole⟩
  · rw [more, roundUp_le_succ_iff positive]
  · obtain ⟨blocks, rfl⟩ := whole
    have count : (size * blocks + (size - 1)) / size = blocks := by
      rw [Nat.mul_add_div positive, Nat.div_eq_of_lt (by omega), Nat.add_zero]
    rw [same, count]
    exact iff_of_true (Nat.le_refl _) (.inl ⟨blocks, rfl⟩)

theorem Tailed.readBlocks_iff {memory : List UInt8} {size length : Nat}
    (tailed : Tailed size length memory) (positive : 0 < size) :
    (readBlocks memory size 0 length).isSome ↔
      size ∣ length ∨ size ∣ length + 1 := by
  rw [readBlocks, readRange_isSome_iff, Nat.sub_zero, Nat.zero_add,
    tailed.roundUp_iff positive]
  apply or_iff_right_of_imp
  intro nothing
  have small := Nat.div_eq_zero_iff.mp nothing
  have empty : length = 0 := by omega
  exact .inl (empty ▸ Nat.dvd_zero size)

theorem Tailed.listed_iff {memory : List UInt8} {size length : Nat}
    (tailed : Tailed size length memory) (positive : 0 < size)
    (more : 0 < length) :
    (readAt memory 0 size).isSome ∧
        (readBlocks memory size size length).isSome ↔
      size ∣ length ∨ size ∣ length + 1 := by
  rw [← tailed.roundUp_iff positive, readBlocks, readRange_isSome_iff,
    readAt_isSome_iff, Nat.zero_add]
  rcases Nat.lt_or_ge size length with longer | single
  · have counted : (length + (size - 1)) / size =
        (length - size + (size - 1)) / size + 1 := by
      rw [← Nat.add_div_right _ positive]
      congr 1
      omega
    have some_more : 0 < (length - size + (size - 1)) / size :=
      Nat.div_pos (by omega) positive
    rw [counted, Nat.mul_succ]
    have first : size ≤ size * ((length - size + (size - 1)) / size) :=
      Nat.le_mul_of_pos_right size some_more
    omega
  · have one : (length + (size - 1)) / size = 1 := by
      rw [Nat.div_eq_iff positive]
      omega
    have none_more : (length - size + (size - 1)) / size = 0 :=
      Nat.div_eq_of_lt (by omega)
    rw [one, none_more]
    simp

theorem readAt_append (front back : List UInt8) (offset count : Nat) :
    readAt (front ++ back) (front.length + offset) count =
      readAt back offset count := by
  rw [readAt, readAt, List.length_append, Nat.add_assoc,
    List.drop_append, List.drop_eq_nil_of_le (Nat.le_add_right _ _),
    List.nil_append, Nat.add_sub_cancel_left]
  simp only [Nat.add_le_add_iff_left]

theorem readAt_eq_some_iff {memory bytes : List UInt8} {offset count : Nat} :
    readAt memory offset count = some bytes ↔
      offset + count ≤ memory.length ∧ bytes.length = count ∧
        bytes <+: memory.drop offset := by
  rw [readAt]
  split
  case isTrue room =>
    rw [Option.some.injEq, and_iff_right room]
    constructor
    · rintro rfl
      refine ⟨?_, List.take_prefix _ _⟩
      rw [List.length_take, List.length_drop]
      omega
    · rintro ⟨rfl, first⟩
      exact (List.prefix_iff_eq_take.mp first).symm
  case isFalse outside =>
    exact ⟨fun found => (nomatch found), fun both => (outside both.1).elim⟩

theorem writeAt_append {data old : List UInt8}
    (length : data.length = old.length) (front back : List UInt8) :
    writeAt (front ++ (old ++ back)) front.length data =
      some (front ++ (data ++ back)) := by
  have room :
      front.length + data.length ≤ (front ++ (old ++ back)).length := by
    rw [List.length_append, List.length_append]
    omega
  have behind : front.length + data.length = (front ++ old).length := by
    rw [List.length_append, length]
  rw [writeAt, if_pos room, List.take_left, behind, ← List.append_assoc front,
    List.drop_left, List.append_assoc]

theorem writeAt_eq {memory data : List UInt8} {offset : Nat}
    (room : offset + data.length ≤ memory.length) :
    writeAt memory offset data = some (memory.take offset ++ data ++
      memory.drop (offset + data.length)) :=
  if_pos room

theorem length_of_writeAt {memory data written : List UInt8} {offset : Nat}
    (done : writeAt memory offset data = some written) :
    written.length = memory.length := by
  rw [writeAt] at done
  split at done
  case isFalse => exact nomatch done
  rename_i room
  cases done
  rw [List.length_append, List.length_append, List.length_take,
    List.length_drop]
  omega

theorem readAt_behind {memory data written : List UInt8} {offset place : Nat}
    (done : writeAt memory offset data = some written)
    (behind : offset + data.length ≤ place) (count : Nat) :
    readAt written place count = readAt memory place count := by
  have length := length_of_writeAt done
  rw [writeAt] at done
  split at done
  case isFalse => exact nomatch done
  rename_i room
  cases done
  have front : (memory.take offset ++ data).length = offset + data.length := by
    rw [List.length_append, List.length_take]
    omega
  have same : (memory.take offset ++ data ++
      memory.drop (offset + data.length)).drop place = memory.drop place := by
    rw [List.drop_append, front,
      List.drop_eq_nil_of_le (Nat.le_trans (Nat.le_of_eq front) behind),
      List.nil_append, List.drop_drop, Nat.add_sub_cancel' behind]
  rw [readAt, readAt, length, same]

end NodeIdentity.Library
