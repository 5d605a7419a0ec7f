import NodeIdentity.Library.ByteOrder

/-!
# Sums in ones' complement

The 16-bit words of a list of bytes are added, and what is carried out of the
sum is added to it again.  The result is the sum modulo 65535, with 65535 for
the zero of a sum which is not zero, so that the sum of a list with its
complement is all ones.  A change of one byte shows in the sum, and the other
byte order gives the same bytes.
-/

namespace NodeIdentity.Library

namespace ByteOrder

def half : ByteOrder → UInt8 → UInt8 → Nat
  | little, first, second => first.toNat + 256 * second.toNat
  | big, first, second => 256 * first.toNat + second.toNat

/-- The two bytes of a number below 65536, in the order they have in memory. -/
def halves : ByteOrder → Nat → List UInt8
  | little, number => [UInt8.ofNat number, UInt8.ofNat (number / 256)]
  | big, number => [UInt8.ofNat (number / 256), UInt8.ofNat number]

@[simp] theorem length_halves (order : ByteOrder) (number : Nat) :
    (order.halves number).length = 2 := by
  cases order <;> rfl

theorem half_lt (order : ByteOrder) (first second : UInt8) :
    order.half first second < 65536 := by
  have below := first.toNat_lt
  have below₂ := second.toNat_lt
  cases order with
  | little =>
      rw [half]
      omega
  | big =>
      rw [half]
      omega

end ByteOrder

/-- The sum of the words; a last byte without a partner counts as a word. -/
def sumWords (order : ByteOrder) : List UInt8 → Nat
  | [] => 0
  | [last] => last.toNat
  | first :: second :: rest => order.half first second + sumWords order rest

def foldCarries (sum : Nat) : Nat :=
  let once := sum / 65536 + sum % 65536
  (once + once / 65536) % 65536

section Carries

variable {sum other : Nat}

theorem foldCarries_lt (sum : Nat) : foldCarries sum < 65536 :=
  Nat.mod_lt _ (by decide)

theorem foldCarries_eq (small : sum < 65536 * 65535) :
    foldCarries sum = sum / 65536 + sum % 65536 ∧
        sum / 65536 + sum % 65536 < 65536 ∨
      foldCarries sum + 65535 = sum / 65536 + sum % 65536 ∧
        65536 ≤ sum / 65536 + sum % 65536 := by
  have once : foldCarries sum = (sum / 65536 + sum % 65536 +
      (sum / 65536 + sum % 65536) / 65536) % 65536 := rfl
  have bound : sum / 65536 + sum % 65536 < 131071 := by omega
  generalize sum / 65536 + sum % 65536 = folded at once bound
  rw [once]
  rcases Nat.lt_or_ge folded 65536 with none | carry
  · left
    rw [Nat.div_eq_of_lt none, Nat.add_zero, Nat.mod_eq_of_lt none]
    exact ⟨rfl, none⟩
  · right
    have one : folded / 65536 = 1 := by omega
    rw [one]
    omega

theorem foldCarries_mod (small : sum < 65536 * 65535) :
    foldCarries sum % 65535 = sum % 65535 := by
  rcases foldCarries_eq small with ⟨folded, _⟩ | ⟨folded, _⟩ <;> omega

/-- The result is zero only if there is nothing to add. -/
theorem foldCarries_eq_zero_iff (small : sum < 65536 * 65535) :
    foldCarries sum = 0 ↔ sum = 0 := by
  rcases foldCarries_eq small with ⟨folded, _⟩ | ⟨folded, _⟩ <;> omega

theorem foldCarries_eq_ones_iff (small : sum < 65536 * 65535) :
    foldCarries sum = 65535 ↔ sum ≠ 0 ∧ sum % 65535 = 0 := by
  have same := foldCarries_mod small
  have zero := foldCarries_eq_zero_iff small
  have below := foldCarries_lt sum
  omega

end Carries

section Words

variable (order : ByteOrder)

theorem sumWords_append {front : List UInt8} (even : 2 ∣ front.length)
    (back : List UInt8) :
    sumWords order (front ++ back) = sumWords order front +
      sumWords order back := by
  induction front using sumWords.induct with
  | case1 => simp [sumWords]
  | case2 last => simp at even
  | case3 first second rest ih =>
      have shorter : 2 ∣ rest.length := by
        simp only [List.length_cons] at even
        omega
      simp only [List.cons_append, sumWords, ih shorter]
      omega

theorem sumWords_le (bytes : List UInt8) :
    sumWords order bytes ≤ 65535 * ((bytes.length + 1) / 2) := by
  induction bytes using sumWords.induct with
  | case1 => simp [sumWords]
  | case2 last =>
      have below := last.toNat_lt
      simp only [sumWords, List.length_singleton]
      omega
  | case3 first second rest ih =>
      have below := order.half_lt first second
      simp only [sumWords, List.length_cons]
      omega

theorem sumWords_lt {bytes : List UInt8} (fits : bytes.length < 65536) :
    sumWords order bytes < 65536 * 65535 := by
  have bound := sumWords_le order bytes
  omega

theorem sumWords_halves {number : Nat} (small : number < 65536) :
    sumWords order (order.halves number) = number := by
  cases order with
  | little =>
      simp [ByteOrder.halves, sumWords, ByteOrder.half]
      omega
  | big =>
      simp [ByteOrder.halves, sumWords, ByteOrder.half]
      omega

theorem sumWords_eq_zero_iff (bytes : List UInt8) :
    sumWords order bytes = 0 ↔ ∀ byte ∈ bytes, byte = 0 := by
  induction bytes using sumWords.induct with
  | case1 => simp [sumWords]
  | case2 last =>
      rw [List.forall_mem_singleton, ← UInt8.toNat_inj]
      exact Iff.rfl
  | case3 first second rest ih =>
      have zero : order.half first second = 0 ↔ first = 0 ∧ second = 0 := by
        rw [← UInt8.toNat_inj, ← UInt8.toNat_inj]
        cases order with
        | little =>
            simp only [ByteOrder.half, UInt8.toNat_zero]
            omega
        | big =>
            simp only [ByteOrder.half, UInt8.toNat_zero]
            omega
      simp only [sumWords, Nat.add_eq_zero_iff, zero, ih, List.forall_mem_cons,
        and_assoc]

def byteWeight (length index : Nat) : Nat :=
  match order with
  | .little => if index % 2 = 0 then 1 else 256
  | .big => if index % 2 = 0 ∧ index + 1 < length then 256 else 1

theorem sumWords_set {bytes : List UInt8} {index : Nat} {old : UInt8}
    (here : bytes[index]? = some old) (new : UInt8) :
    sumWords order (bytes.set index new) +
        byteWeight order bytes.length index * old.toNat =
      sumWords order bytes +
        byteWeight order bytes.length index * new.toNat := by
  induction bytes using sumWords.induct generalizing index with
  | case1 => simp at here
  | case2 last =>
      cases index with
      | zero =>
          cases Option.some.inj here
          cases order <;> simp [sumWords, byteWeight] <;> omega
      | succ index => simp at here
  | case3 first second rest ih =>
      match index with
      | 0 =>
          cases Option.some.inj here
          cases order <;>
            simp [sumWords, byteWeight, ByteOrder.half] <;> omega
      | 1 =>
          cases Option.some.inj here
          cases order <;>
            simp [sumWords, byteWeight, ByteOrder.half] <;> omega
      | index + 2 =>
          have there : rest[index]? = some old := here
          have moved := ih there
          have weight : byteWeight order (first :: second :: rest).length
              (index + 2) = byteWeight order rest.length index := by
            cases order with
            | little => simp only [byteWeight, Nat.add_mod_right]
            | big =>
                have inside : index + 2 + 1 < rest.length + 1 + 1 ↔
                    index + 1 < rest.length := by omega
                simp only [byteWeight, List.length_cons, Nat.add_mod_right,
                  inside]
          rw [weight]
          simp only [List.set_cons_succ, sumWords]
          omega

theorem sumWords_set_mod_ne {bytes : List UInt8} {index : Nat}
    {old new : UInt8} (here : bytes[index]? = some old)
    (different : new ≠ old) :
    sumWords order (bytes.set index new) % 65535 ≠
      sumWords order bytes % 65535 := by
  have moved := sumWords_set order here new
  have below := old.toNat_lt
  have below₂ := new.toNat_lt
  have apart : new.toNat ≠ old.toNat := fun same =>
    different (UInt8.toNat_inj.mp same)
  have weights : byteWeight order bytes.length index = 1 ∨
      byteWeight order bytes.length index = 256 := by
    cases order with
    | little =>
        rw [byteWeight]
        split
        · exact .inl rfl
        · exact .inr rfl
    | big =>
        rw [byteWeight]
        split
        · exact .inr rfl
        · exact .inl rfl
  rcases weights with weight | weight
  · rw [weight] at moved
    omega
  · rw [weight] at moved
    omega

/-- In the other byte order all words are turned around, and so is their sum
modulo 65535. -/
theorem sumWords_big_mod {bytes : List UInt8} (even : 2 ∣ bytes.length) :
    sumWords .big bytes % 65535 = 256 * sumWords .little bytes % 65535 := by
  induction bytes using sumWords.induct with
  | case1 => rfl
  | case2 last => simp at even
  | case3 first second rest ih =>
      have shorter : 2 ∣ rest.length := by
        simp only [List.length_cons] at even
        omega
      have before := ih shorter
      simp only [sumWords, ByteOrder.half]
      omega

end Words

end NodeIdentity.Library
