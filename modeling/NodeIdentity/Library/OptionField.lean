import NodeIdentity.Library.ByteMemory

/-!
# Options in a field of a message

A field holds options one behind the other: a code, the number of bytes and the
bytes.  The code `pad` stands alone, `stop` ends the list, and so does the end
of the field.  An option which begins in the field may reach beyond it.
-/

namespace NodeIdentity.Library

structure OptionFormat where
  pad : UInt8
  stop : UInt8
  /-- Where the field ends. -/
  limit : Nat
  apart : pad ≠ stop

namespace OptionFormat

variable (format : OptionFormat)

inductive Item where
  | pad
  | option (code : UInt8) (data : List UInt8)

def Item.content : Item → Option (UInt8 × List UInt8)
  | .pad => none
  | .option code data => some (code, data)

def Item.Valid : Item → Prop
  | .pad => True
  | .option code data =>
      code ≠ format.pad ∧ code ≠ format.stop ∧ data.length < 256

def encodeItem : Item → List UInt8
  | .pad => [format.pad]
  | .option code data => code :: UInt8.ofNat data.length :: data

def encode (items : List Item) : List UInt8 :=
  items.flatMap format.encodeItem

/-- The options from an index on, in at most `fuel` steps. -/
def scan (memory : List UInt8) :
    Nat → Nat → Option (List (UInt8 × List UInt8))
  | 0, _ => some []
  | fuel + 1, p =>
      if p < format.limit then
        memory[p]?.bind fun code =>
          if code = format.stop then some []
          else if code = format.pad then scan memory fuel (p + 1)
          else
            memory[p + 1]?.bind fun length =>
              (readAt memory (p + 2) length.toNat).bind fun data =>
                (scan memory fuel (p + 2 + length.toNat)).map
                  fun options => (code, data) :: options
      else some []

/-- What a list of options is which is written in memory. -/
structure Written (memory : List UInt8) (p : Nat) (items : List Item) :
    Prop where
  valid : ∀ item ∈ items, item.Valid format
  bytes : format.encode items <+: memory.drop p
  inside : ∀ front rest, items = front ++ rest → rest ≠ [] →
    p + (format.encode front).length < format.limit
  ends : format.limit ≤ p + (format.encode items).length ∨
    memory[p + (format.encode items).length]? = some format.stop

section Written

variable {format} {memory : List UInt8} {p : Nat} {item : Item}
  {items : List Item}

theorem written_nil : format.Written memory p [] ↔
    format.limit ≤ p ∨ memory[p]? = some format.stop := by
  constructor
  · intro written
    exact written.ends
  · intro ends
    exact {
      valid := fun _ absent => nomatch absent
      bytes := List.nil_prefix
      inside := fun front rest split more =>
        absurd (List.append_eq_nil_iff.mp split.symm).2 more
      ends := ends }

theorem prefix_append_drop {first second : List UInt8} :
    first ++ second <+: memory.drop p ↔
      first <+: memory.drop p ∧ second <+: memory.drop (p + first.length) := by
  rw [← List.drop_drop]
  constructor
  · rintro ⟨rest, whole⟩
    rw [← whole, List.append_assoc, List.drop_left]
    exact ⟨List.prefix_append _ _, List.prefix_append _ _⟩
  · rintro ⟨⟨rest, whole⟩, here⟩
    rw [← whole, List.drop_left] at here
    rw [← whole]
    exact (List.prefix_append_right_inj first).mpr here

theorem written_cons : format.Written memory p (item :: items) ↔
    p < format.limit ∧ item.Valid format ∧
      format.encodeItem item <+: memory.drop p ∧
      format.Written memory (p + (format.encodeItem item).length) items := by
  have head : ∀ others, format.encode (item :: others) =
      format.encodeItem item ++ format.encode others := fun _ => rfl
  have place : ∀ others, p + (format.encode (item :: others)).length =
      p + (format.encodeItem item).length + (format.encode others).length := by
    intro others
    rw [head, List.length_append, Nat.add_assoc]
  constructor
  · intro written
    obtain ⟨first, later⟩ :=
      prefix_append_drop.mp (head items ▸ written.bytes)
    refine ⟨?_, written.valid item List.mem_cons_self, first, ?_⟩
    · exact written.inside [] _ rfl (List.cons_ne_nil _ _)
    · exact {
        valid := fun other member =>
          written.valid other (List.mem_cons_of_mem _ member)
        bytes := later
        inside := by
          intro front rest split more
          rw [← place]
          exact written.inside (item :: front) rest (by rw [split]; rfl) more
        ends := by
          rw [← place]
          exact written.ends }
  · rintro ⟨begins, valid, first, written⟩
    exact {
      valid := List.forall_mem_cons.mpr ⟨valid, written.valid⟩
      bytes := head items ▸ prefix_append_drop.mpr ⟨first, written.bytes⟩
      inside := by
        intro front rest split more
        cases front with
        | nil => exact begins
        | cons other front =>
            obtain ⟨rfl, later⟩ := List.cons.inj split
            rw [place]
            exact written.inside front rest later more
      ends := by
        rw [place]
        exact written.ends }

end Written

section Scan

variable {format} {memory : List UInt8} {p fuel : Nat}
  {options : List (UInt8 × List UInt8)}

theorem scan_past (past : format.limit ≤ p) :
    format.scan memory fuel p = some [] := by
  cases fuel with
  | zero => rfl
  | succ fuel => rw [scan, if_neg (Nat.not_lt.mpr past)]

theorem scan_stop (here : memory[p]? = some format.stop) :
    format.scan memory fuel p = some [] := by
  cases fuel with
  | zero => rfl
  | succ fuel =>
      rw [scan, here, Option.bind_some, if_pos rfl, ite_self]

theorem scan_pad (inside : p < format.limit)
    (here : memory[p]? = some format.pad) :
    format.scan memory (fuel + 1) p = format.scan memory fuel (p + 1) := by
  rw [scan, if_pos inside, here, Option.bind_some, if_neg format.apart,
    if_pos rfl]

theorem scan_option (inside : p < format.limit) {code : UInt8}
    (proper : code ≠ format.pad ∧ code ≠ format.stop)
    (here : memory[p]? = some code) :
    format.scan memory (fuel + 1) p =
      memory[p + 1]?.bind fun length =>
        (readAt memory (p + 2) length.toNat).bind fun data =>
          (format.scan memory fuel (p + 2 + length.toNat)).map
            fun options => (code, data) :: options := by
  rw [scan, if_pos inside, here, Option.bind_some, if_neg proper.2,
    if_neg proper.1]

theorem cons_prefix_drop {byte : UInt8} {bytes : List UInt8} :
    byte :: bytes <+: memory.drop p ↔
      memory[p]? = some byte ∧ bytes <+: memory.drop (p + 1) := by
  rw [← List.head?_drop, ← List.tail_drop, List.cons_prefix_iff]
  cases memory.drop p with
  | nil => simp
  | cons first rest =>
      simp only [List.head?_cons, List.tail_cons, List.cons.injEq,
        Option.some.injEq]
      constructor
      · rintro ⟨_, ⟨rfl, rfl⟩, later⟩
        exact ⟨rfl, later⟩
      · rintro ⟨rfl, later⟩
        exact ⟨rest, ⟨rfl, rfl⟩, later⟩

theorem option_written {code : UInt8} {data : List UInt8} :
    format.encodeItem (.option code data) <+: memory.drop p ↔
      memory[p]? = some code ∧
        memory[p + 1]? = some (UInt8.ofNat data.length) ∧
        data <+: memory.drop (p + 2) := by
  rw [encodeItem, cons_prefix_drop, cons_prefix_drop]

theorem pad_written : format.encodeItem .pad <+: memory.drop p ↔
    memory[p]? = some format.pad := by
  rw [encodeItem, cons_prefix_drop, and_iff_left List.nil_prefix]

theorem toNat_length {data : List UInt8} (small : data.length < 256) :
    (UInt8.ofNat data.length).toNat = data.length := by
  rw [UInt8.toNat_ofNat']
  exact Nat.mod_eq_of_lt small

theorem Written.scan_eq {items : List Item}
    (written : format.Written memory p items)
    (enough : format.limit ≤ p + fuel) :
    format.scan memory fuel p = some (items.filterMap Item.content) := by
  induction items generalizing p fuel with
  | nil =>
      rcases written_nil.mp written with past | here
      · exact scan_past past
      · exact scan_stop here
  | cons item items ih =>
      obtain ⟨inside, valid, first, later⟩ := written_cons.mp written
      obtain ⟨fuel, rfl⟩ : ∃ less, fuel = less + 1 :=
        Nat.exists_eq_add_one.mpr (by omega)
      cases item with
      | pad =>
          have enough₂ : format.limit ≤ p + 1 + fuel := by omega
          rw [scan_pad inside (pad_written.mp first)]
          exact ih later enough₂
      | option code data =>
          obtain ⟨here, next, bytes⟩ := option_written.mp first
          have second : p + 1 < memory.length :=
            (List.getElem?_eq_some_iff.mp next).1
          have fits := bytes.length_le
          rw [List.length_drop] at fits
          have read : readAt memory (p + 2) data.length = some data := by
            apply readAt_eq_some_iff.mpr
            exact ⟨by omega, rfl, bytes⟩
          have place : p + (format.encodeItem (.option code data)).length =
              p + 2 + data.length := by
            simp only [encodeItem, List.length_cons]
            omega
          have enough₂ : format.limit ≤ p + 2 + data.length + fuel := by omega
          rw [place] at later
          rw [scan_option inside ⟨valid.1, valid.2.1⟩ here, next,
            Option.bind_some, toNat_length valid.2.2, read, Option.bind_some,
            ih later enough₂]
          rfl

theorem exists_written (enough : format.limit ≤ p + fuel)
    (found : format.scan memory fuel p = some options) :
    ∃ items, format.Written memory p items ∧
      items.filterMap Item.content = options := by
  induction fuel generalizing p options with
  | zero =>
      cases found
      exact ⟨[], written_nil.mpr (.inl enough), rfl⟩
  | succ fuel ih =>
      rcases Nat.lt_or_ge p format.limit with inside | past
      case inr =>
        rw [scan_past past] at found
        cases found
        exact ⟨[], written_nil.mpr (.inl past), rfl⟩
      obtain ⟨code, here, _⟩ := Option.bind_eq_some_iff.mp
        (by rwa [scan, if_pos inside] at found)
      rcases eq_or_ne code format.stop with rfl | proceeds
      · rw [scan_stop here] at found
        cases found
        exact ⟨[], written_nil.mpr (.inr here), rfl⟩
      rcases eq_or_ne code format.pad with rfl | proper
      · rw [scan_pad inside here] at found
        have enough₂ : format.limit ≤ p + 1 + fuel := by omega
        obtain ⟨items, written, same⟩ := ih enough₂ found
        refine ⟨.pad :: items, written_cons.mpr ?_, same⟩
        exact ⟨inside, trivial, pad_written.mpr here, written⟩
      · rw [scan_option inside ⟨proper, proceeds⟩ here] at found
        obtain ⟨length, next, behind⟩ := Option.bind_eq_some_iff.mp found
        obtain ⟨data, read, mapped⟩ := Option.bind_eq_some_iff.mp behind
        obtain ⟨others, rest, rfl⟩ := Option.map_eq_some_iff.mp mapped
        obtain ⟨_, counted, bytes⟩ := readAt_eq_some_iff.mp read
        have enough₂ : format.limit ≤ p + 2 + length.toNat + fuel := by omega
        obtain ⟨items, written, rfl⟩ := ih enough₂ rest
        have small : data.length < 256 := counted ▸ length.toNat_lt
        have same : UInt8.ofNat data.length = length := by
          rw [counted, UInt8.ofNat_toNat]
        have place : p + (format.encodeItem (.option code data)).length =
            p + 2 + length.toNat := by
          simp only [encodeItem, List.length_cons, counted]
          omega
        refine ⟨.option code data :: items, written_cons.mpr ?_, rfl⟩
        refine ⟨inside, ⟨proper, proceeds, small⟩, ?_, place ▸ written⟩
        exact option_written.mpr ⟨here, same ▸ next, bytes⟩

theorem scan_eq_some_iff (enough : format.limit ≤ p + fuel) :
    format.scan memory fuel p = some options ↔
      ∃ items, format.Written memory p items ∧
        items.filterMap Item.content = options := by
  constructor
  · exact exists_written enough
  · rintro ⟨items, written, rfl⟩
    exact written.scan_eq enough

theorem scan_isSome (room : format.limit + 256 ≤ memory.length) :
    (format.scan memory fuel p).isSome := by
  induction fuel generalizing p with
  | zero => rfl
  | succ fuel ih =>
      rcases Nat.lt_or_ge p format.limit with inside | past
      case inr =>
        rw [scan_past past]
        rfl
      have first : p < memory.length := by omega
      have second : p + 1 < memory.length := by omega
      have here := List.getElem?_eq_getElem first
      have next := List.getElem?_eq_getElem second
      generalize memory[p] = code at here
      generalize memory[p + 1] = length at next
      rcases eq_or_ne code format.stop with rfl | proceeds
      · rw [scan_stop here]
        rfl
      rcases eq_or_ne code format.pad with rfl | proper
      · rw [scan_pad inside here]
        exact ih
      · have below := length.toNat_lt
        have data : p + 2 + length.toNat ≤ memory.length := by omega
        rw [scan_option inside ⟨proper, proceeds⟩ here, next,
          Option.bind_some, readAt_eq data, Option.bind_some,
          Option.isSome_map]
        exact ih

end Scan

end OptionFormat

end NodeIdentity.Library
