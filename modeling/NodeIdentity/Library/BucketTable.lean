import NodeIdentity.Library.ChainedTable
import NodeIdentity.Library.History
import NodeIdentity.Library.LinkedList
import NodeIdentity.Library.Machine

/-!
# Chained hash tables in a heap

An array of pointers to lists of buckets, changed in place: a new bucket goes
to the head of its list, the data of a known key is replaced where it is, and a
bucket is unlinked at the head or behind another one.  The operations do on the
pointers what those of `ChainedTable` do on chains.  Lists of different slots
share no bucket, since a bucket has one key and the key has one slot.
-/

namespace NodeIdentity.Library

/-- The pointers, and the heap with the buckets. -/
structure BucketTable (κ α : Type) (size : Nat) where
  size_pos : 0 < size
  table : Vector Pointer size
  heap : Heap (κ × α)

namespace BucketTable

variable {κ α : Type} {size : Nat}

/-- What `calloc` leaves. -/
def construct (κ α : Type) (size : Nat) (size_pos : 0 < size) :
    BucketTable κ α size :=
  { size_pos := size_pos
    table := Vector.replicate size none
    heap := ∅ }

section Operations

variable [DecidableEq κ] (hash : κ → Nat) (key : κ) (t : BucketTable κ α size)

def slot : Fin size := ⟨hash key % size, Nat.mod_lt _ t.size_pos⟩

def bucketOf (pointer : Pointer) : Option Pointer :=
  search t.heap (fun bucket => key = bucket.1) t.heap.keys.card pointer

/-- The data a new key is stored with, or the data it replaces. -/
def insert (malloc : Allocator (κ × α)) (data : α) :
    Option (α × BucketTable κ α size) :=
  let val := t.slot hash key
  match t.table.get val with
  | none =>
      let ptr := malloc.address t.heap
      some (data,
        { t with
          table := t.table.set val (some ptr)
          heap := t.heap.insert ptr ⟨(key, data), none⟩ })
  | some head => do
      match ← t.bucketOf key (some head) with
      | some ptr =>
          let bucket ← t.heap.lookup ptr
          return (bucket.value.2,
            { t with
              heap := t.heap.insert ptr
                { bucket with value := (bucket.value.1, data) } })
      | none =>
          let ptr := malloc.address t.heap
          return (data,
            { t with
              table := t.table.set val (some ptr)
              heap := t.heap.insert ptr ⟨(key, data), some head⟩ })

def lookup : Option (Option α) :=
  match t.table.get (t.slot hash key) with
  | none => some none
  | some head => do
      match ← t.bucketOf key (some head) with
      | some ptr =>
          let bucket ← t.heap.lookup ptr
          return some bucket.value.2
      | none => return none

/-- A bucket behind another one is unlinked there, the first one in the
array. -/
def del : Option (Option α × BucketTable κ α size) :=
  let val := t.slot hash key
  match t.table.get val with
  | none => some (none, t)
  | some head => do
      match ← searchLast t.heap (fun bucket => key = bucket.1)
          t.heap.keys.card none (some head) with
      | (some last, some ptr) =>
          let bucket ← t.heap.lookup ptr
          let before ← t.heap.lookup last
          return (some bucket.value.2,
            { t with
              heap := (t.heap.insert last
                { before with next := bucket.next }).erase ptr })
      | (none, some ptr) =>
          let bucket ← t.heap.lookup ptr
          return (some bucket.value.2,
            { t with
              table := t.table.set val bucket.next
              heap := t.heap.erase ptr })
      | (_, none) => return (none, t)

end Operations

theorem get_set_self {table : Vector Pointer size} {slot : Fin size}
    (pointer : Pointer) (inside : slot.val < size) :
    (table.set slot pointer inside).get slot = pointer :=
  Vector.getElem_set_self inside

theorem get_set_of_ne {table : Vector Pointer size} {slot other : Fin size}
    (different : other ≠ slot) (pointer : Pointer)
    (inside : slot.val < size) :
    (table.set slot pointer inside).get other = table.get other :=
  Vector.getElem_set_ne inside other.isLt
    fun same => different (Fin.ext same.symm)

/-- In every slot the pointers lead along the chain of the abstract table. -/
structure Represents {hash : κ → Nat} (T : ChainedTable hash α)
    (t : BucketTable κ α size) : Prop where
  size_eq : T.size = size
  lists : ∀ slot : Fin size, ∃ cells,
    Segment t.heap (t.table.get slot) cells none ∧
      cells.map Prod.snd = T.chain slot

section Chains

variable [DecidableEq κ] {key : κ}

theorem first_or_absent (key : κ) (cells : List (Address × κ × α)) :
    (∀ cell ∈ cells, key ≠ cell.2.1) ∨
      ∃ before address data after,
        cells = before ++ (address, key, data) :: after ∧
          ∀ cell ∈ before, key ≠ cell.2.1 := by
  induction cells with
  | nil => exact .inl fun _ member => by cases member
  | cons cell cells ih =>
      obtain ⟨address, other, data⟩ := cell
      by_cases same : key = other
      · subst same
        exact .inr ⟨[], address, data, cells, rfl, fun _ member => by
          cases member⟩
      · rcases ih with absent | ⟨before, place, stored, after, rfl, others⟩
        · left
          intro cell member
          rcases List.mem_cons.mp member with rfl | later
          · exact same
          · exact absent cell later
        · right
          refine ⟨(address, other, data) :: before, place, stored, after, rfl,
            ?_⟩
          intro cell member
          rcases List.mem_cons.mp member with rfl | later
          · exact same
          · exact others cell later

theorem find_absent {cells : List (Address × κ × α)}
    (absent : ∀ cell ∈ cells, key ≠ cell.2.1) :
    Chain.find key (cells.map Prod.snd) = none := by
  apply Chain.find_eq_none_iff.mpr
  intro member
  obtain ⟨node, inChain, rfl⟩ := List.mem_map.mp member
  obtain ⟨cell, inCells, rfl⟩ := List.mem_map.mp inChain
  exact absent cell inCells rfl

variable {before after : Chain κ α} {data : α}

theorem find_split (others : ∀ node ∈ before, key ≠ node.1) :
    Chain.find key (before ++ (key, data) :: after) = some data := by
  induction before with
  | nil => exact if_pos rfl
  | cons node before ih =>
      rw [List.cons_append, Chain.find,
        if_neg (others node List.mem_cons_self)]
      exact ih fun node member => others node (List.mem_cons_of_mem _ member)

theorem overwrite_split (others : ∀ node ∈ before, key ≠ node.1) (new : α) :
    Chain.overwrite key new (before ++ (key, data) :: after) =
      before ++ (key, new) :: after := by
  induction before with
  | nil => exact if_pos rfl
  | cons node before ih =>
      rw [List.cons_append, Chain.overwrite,
        if_neg (others node List.mem_cons_self), List.cons_append]
      congr 1
      exact ih fun node member => others node (List.mem_cons_of_mem _ member)

theorem unlink_split (others : ∀ node ∈ before, key ≠ node.1) :
    Chain.unlink key (before ++ (key, data) :: after) = before ++ after := by
  induction before with
  | nil => exact if_pos rfl
  | cons node before ih =>
      rw [List.cons_append, Chain.unlink,
        if_neg (others node List.mem_cons_self), List.cons_append]
      congr 1
      exact ih fun node member => others node (List.mem_cons_of_mem _ member)

omit [DecidableEq κ] in
theorem nodes_ne {cells : List (Address × κ × α)}
    (others : ∀ cell ∈ cells, key ≠ cell.2.1) :
    ∀ node ∈ cells.map Prod.snd, key ≠ node.1 := by
  intro node member
  obtain ⟨cell, inCells, rfl⟩ := List.mem_map.mp member
  exact others cell inCells

theorem find_cells {before after : List (Address × κ × α)}
    {address : Address} (others : ∀ cell ∈ before, key ≠ cell.2.1) :
    Chain.find key
      ((before ++ (address, key, data) :: after).map Prod.snd) =
        some data := by
  rw [List.map_append, List.map_cons]
  exact find_split (nodes_ne others)

end Chains

section Refinement

variable {hash : κ → Nat} {T T' : ChainedTable hash α}
  {t t' : BucketTable κ α size}

theorem represents_construct (size_pos : 0 < size) :
    Represents (ChainedTable.empty hash α size size_pos)
      (construct κ α size size_pos) := by
  constructor
  · rfl
  · intro slot
    refine ⟨[], ?_, ?_⟩
    · have head : (construct κ α size size_pos).table.get slot = none :=
        Vector.getElem_replicate slot.isLt
      rw [head]
      exact .nil none
    · rw [ChainedTable.chain_empty]
      rfl

theorem Represents.values (represents : Represents T t) {slot : Fin size}
    {cells : List (Address × κ × α)}
    (segment : Segment t.heap (t.table.get slot) cells none) :
    cells.map Prod.snd = T.chain slot := by
  obtain ⟨known, same, values⟩ := represents.lists slot
  rwa [segment.unique same]

theorem Represents.apart (represents : Represents T t)
    {slot other : Fin size} (different : slot ≠ other)
    {cells rest : List (Address × κ × α)}
    (segment : Segment t.heap (t.table.get slot) cells none)
    (otherSegment : Segment t.heap (t.table.get other) rest none)
    {cell bucket : Address × κ × α} (member : cell ∈ cells)
    (otherMember : bucket ∈ rest) : cell.1 ≠ bucket.1 := by
  intro same
  obtain ⟨next, found⟩ := segment.lookup_of_mem member
  obtain ⟨otherNext, otherFound⟩ := otherSegment.lookup_of_mem otherMember
  rw [same, otherFound] at found
  have value : bucket.2 = cell.2 :=
    congrArg ListNode.value (Option.some.inj found)
  have here : cell.2 ∈ T.chain slot := by
    rw [← represents.values segment]
    exact List.mem_map_of_mem member
  have there : bucket.2 ∈ T.chain other := by
    rw [← represents.values otherSegment]
    exact List.mem_map_of_mem otherMember
  rw [value] at there
  apply different
  exact Fin.ext ((T.placed_chain here).symm.trans (T.placed_chain there))

/-- A new list in one slot makes a new chain there, if the buckets of the other
slots are left alone. -/
theorem Represents.update (represents : Represents T t) (slot : Fin size)
    (cells : List (Address × κ × α)) (size_eq : T'.size = T.size)
    (chain : T'.chain slot = cells.map Prod.snd)
    (segment : Segment t'.heap (t'.table.get slot) cells none)
    (chains : ∀ index, index ≠ slot.val → T'.chain index = T.chain index)
    (table : ∀ other : Fin size, other ≠ slot →
      t'.table.get other = t.table.get other)
    (kept : ∀ other : Fin size, other ≠ slot → ∀ rest,
      Segment t.heap (t.table.get other) rest none → ∀ cell ∈ rest,
        t'.heap.lookup cell.1 = t.heap.lookup cell.1) :
    Represents T' t' := by
  constructor
  · exact size_eq.trans represents.size_eq
  · intro other
    by_cases here : other = slot
    · subst here
      exact ⟨cells, segment, chain.symm⟩
    · obtain ⟨rest, otherSegment, values⟩ := represents.lists other
      refine ⟨rest, ?_, ?_⟩
      · rw [table other here]
        exact otherSegment.frame (kept other here rest otherSegment)
      · rw [values, chains other fun same => here (Fin.ext same)]

theorem Represents.slot_val (represents : Represents T t) (key : κ) :
    (t.slot hash key).val = hash key % T.size := by
  rw [represents.size_eq]
  rfl

variable [DecidableEq κ] {key : κ}

theorem Represents.list (represents : Represents T t) (key : κ) :
    ∃ cells, Segment t.heap (t.table.get (t.slot hash key)) cells none ∧
      cells.map Prod.snd = T.chain (hash key % T.size) ∧
      T.find key = Chain.find key (cells.map Prod.snd) := by
  obtain ⟨cells, segment, values⟩ := represents.lists (t.slot hash key)
  have slot := represents.slot_val key
  rw [slot] at values
  exact ⟨cells, segment, values, by rw [T.find_eq_chain, values]⟩

section List

variable {start : Pointer} {cells before after : List (Address × κ × α)}
  {address : Address} {data : α}

theorem bucketOf_absent (segment : Segment t.heap start cells none)
    (absent : ∀ cell ∈ cells, key ≠ cell.2.1) :
    t.bucketOf key start = some none := by
  have nowhere : (cells.find? fun cell => decide (key = cell.2.1)) = none := by
    apply List.find?_eq_none.mpr
    intro cell member
    simpa using absent cell member
  rw [bucketOf, search_eq segment _ segment.length_le, nowhere]
  rfl

theorem bucketOf_split
    (segment : Segment t.heap start (before ++ (address, key, data) :: after)
      none)
    (others : ∀ cell ∈ before, key ≠ cell.2.1) :
    t.bucketOf key start = some (some address) := by
  have first : ((before ++ (address, key, data) :: after).find?
      fun cell => decide (key = cell.2.1)) = some (address, key, data) := by
    apply List.find?_eq_some_iff_append.mpr
    refine ⟨by simp, before, after, rfl, ?_⟩
    intro cell member
    simpa using others cell member
  rw [bucketOf, search_eq segment _ segment.length_le, first]
  rfl

omit [DecidableEq κ] in
/-- The two parts of a list and the bucket between them, which neither of them
passes. -/
theorem exists_parts
    (segment : Segment t.heap start (before ++ (address, key, data) :: after)
      none) :
    ∃ next, t.heap.lookup address = some ⟨(key, data), next⟩ ∧
      Segment t.heap start before (some address) ∧
      Segment t.heap next after none ∧
      (∀ cell ∈ before, cell.1 ≠ address) ∧
      (∀ cell ∈ after, cell.1 ≠ address) := by
  have distinct := segment.nodup
  rw [List.map_append, List.map_cons, List.nodup_append] at distinct
  obtain ⟨_, behind, apart⟩ := distinct
  rw [List.nodup_cons] at behind
  obtain ⟨middle, front, rest⟩ := segment.split
  cases rest with
  | @cons _ _ next _ _ found tail =>
      refine ⟨next, found, front, tail, ?_, ?_⟩
      · intro cell member
        exact apart _ (List.mem_map_of_mem member) _ List.mem_cons_self
      · intro cell member same
        have again := List.mem_map_of_mem (f := Prod.fst) member
        rw [same] at again
        exact behind.1 again

end List

omit [DecidableEq κ] in
theorem cells_of_null {heap : Heap (κ × α)}
    {cells : List (Address × κ × α)} (segment : Segment heap none cells none) :
    cells = [] := by
  cases segment
  rfl

theorem Represents.lookup_eq (represents : Represents T t) (key : κ) :
    t.lookup hash key = some (T.find key) := by
  obtain ⟨cells, segment, _, found⟩ := represents.list key
  rw [found, lookup]
  cases head : t.table.get (t.slot hash key) with
  | none =>
      rw [head] at segment
      rw [cells_of_null segment]
      rfl
  | some pointer =>
      rw [head] at segment
      rcases first_or_absent key cells with
        absent | ⟨before, address, data, after, rfl, others⟩
      · simp only [bucketOf_absent segment absent, find_absent absent]
        rfl
      · obtain ⟨next, here, _⟩ := exists_parts segment
        simp only [bucketOf_split segment others, find_cells others, here,
          Option.bind_eq_bind, Option.bind_some]
        rfl

theorem Represents.push (represents : Represents T t) (key : κ)
    (malloc : Allocator (κ × α)) (data : α) (absent : T.find key = none) :
    Represents (T.insert key data)
      { t with
        table := t.table.set (t.slot hash key) (some (malloc.address t.heap))
        heap := t.heap.insert (malloc.address t.heap)
          ⟨(key, data), t.table.get (t.slot hash key)⟩ } := by
  obtain ⟨cells, segment, values, found⟩ := represents.list key
  have slot := represents.slot_val key
  have fresh := malloc.fresh t.heap
  apply represents.update (t.slot hash key)
    ((malloc.address t.heap, key, data) :: cells)
  · rfl
  · rw [slot, T.chain_insert, if_pos rfl, Chain.insert, ← values, ← found,
      absent]
    rfl
  · rw [get_set_self]
    apply Segment.cons
    · exact Finmap.lookup_insert _
    · exact segment.insert_fresh fresh _
  · intro index other
    rw [T.chain_insert, if_neg (slot ▸ other)]
  · intro other different
    exact get_set_of_ne different _ (Fin.isLt _)
  · intro other _ rest otherSegment cell member
    apply Finmap.lookup_insert_of_ne
    intro same
    exact fresh (same ▸ otherSegment.mem_heap member)

theorem Represents.overwrite (represents : Represents T t) {key : κ}
    {before after : List (Address × κ × α)} {address : Address} {old : α}
    (segment : Segment t.heap (t.table.get (t.slot hash key))
      (before ++ (address, key, old) :: after) none)
    (others : ∀ cell ∈ before, key ≠ cell.2.1) {next : Pointer}
    (found : t.heap.lookup address = some ⟨(key, old), next⟩) (data : α) :
    Represents (T.insert key data)
      { t with heap := t.heap.insert address ⟨(key, data), next⟩ } := by
  have slot := represents.slot_val key
  have values := represents.values segment
  obtain ⟨_, again, front, rest, outside, behind⟩ := exists_parts segment
  rw [found] at again
  cases again
  have here : (address, key, old) ∈ before ++ (address, key, old) :: after :=
    List.mem_append_right _ List.mem_cons_self
  have split : ∀ data : α, (before ++ (address, key, data) :: after).map
      Prod.snd = before.map Prod.snd ++ (key, data) :: after.map Prod.snd := by
    intro data
    rw [List.map_append, List.map_cons]
  have different := nodes_ne others
  apply represents.update (t.slot hash key)
    (before ++ (address, key, data) :: after)
  · rfl
  · rw [slot, T.chain_insert, if_pos rfl, ← slot, ← values, split, split,
      Chain.insert, find_split different]
    exact overwrite_split different data
  · apply Segment.append
    · apply front.frame
      intro cell member
      exact Finmap.lookup_insert_of_ne _ (outside cell member)
    · apply Segment.cons (Finmap.lookup_insert _)
      apply rest.frame
      intro cell member
      exact Finmap.lookup_insert_of_ne _ (behind cell member)
  · intro index other
    rw [T.chain_insert, if_neg (slot ▸ other)]
  · intro _ _
    rfl
  · intro other apart rest otherSegment cell member
    apply Finmap.lookup_insert_of_ne
    exact represents.apart apart otherSegment segment member here

/-- An insertion returns the data it replaces, or its own, and leaves what the
abstract insertion leaves. -/
theorem Represents.insert_eq (represents : Represents T t) (key : κ)
    (malloc : Allocator (κ × α)) (data : α) :
    ∃ t', t.insert hash key malloc data = some ((T.find key).getD data, t') ∧
      Represents (T.insert key data) t' := by
  obtain ⟨cells, segment, values, found⟩ := represents.list key
  have pushed := represents.push key malloc data
  rw [insert]
  cases head : t.table.get (t.slot hash key) with
  | none =>
      rw [head] at segment pushed
      rw [cells_of_null segment] at found
      have absent : T.find key = none := found
      rw [absent]
      exact ⟨_, rfl, pushed absent⟩
  | some pointer =>
      rcases first_or_absent key cells with
        absent | ⟨before, address, old, after, rfl, others⟩
      · have missing : T.find key = none := found.trans (find_absent absent)
        rw [head] at segment pushed
        simp only [bucketOf_absent segment absent, missing]
        exact ⟨_, rfl, pushed missing⟩
      · obtain ⟨next, here, _⟩ := exists_parts segment
        have stored : T.find key = some old := found.trans (find_cells others)
        have replaced := represents.overwrite segment others here data
        rw [head] at segment
        simp only [bucketOf_split segment others, stored, here,
          Option.bind_eq_bind, Option.bind_some]
        exact ⟨_, rfl, replaced⟩

/-- The list without one of its buckets, in a heap which has only changed in
that bucket and in the one in front of it. -/
theorem Represents.unlink (represents : Represents T t) {key : κ}
    {before after : List (Address × κ × α)} {address : Address} {old : α}
    (segment : Segment t.heap (t.table.get (t.slot hash key))
      (before ++ (address, key, old) :: after) none)
    (others : ∀ cell ∈ before, key ≠ cell.2.1)
    (linked : Segment t'.heap (t'.table.get (t.slot hash key))
      (before ++ after) none)
    (table : ∀ other : Fin size, other ≠ t.slot hash key →
      t'.table.get other = t.table.get other)
    (kept : ∀ place, (∀ cell ∈ before ++ (address, key, old) :: after,
      place ≠ cell.1) → t'.heap.lookup place = t.heap.lookup place) :
    Represents (T.erase key) t' := by
  have slot := represents.slot_val key
  have values := represents.values segment
  have different := nodes_ne others
  apply represents.update (t.slot hash key) (before ++ after)
  · rfl
  · rw [slot, T.chain_erase, if_pos rfl, ← slot, ← values, List.map_append,
      List.map_cons, List.map_append]
    exact unlink_split different
  · exact linked
  · intro index other
    rw [T.chain_erase, if_neg (slot ▸ other)]
  · exact table
  · intro other apart rest otherSegment cell member
    apply kept
    intro bucket inList
    exact represents.apart apart otherSegment segment member inList

theorem Represents.unlink_head (represents : Represents T t) {key : κ}
    {after : List (Address × κ × α)} {address : Address} {old : α}
    (segment : Segment t.heap (t.table.get (t.slot hash key))
      ((address, key, old) :: after) none) {next : Pointer}
    (found : t.heap.lookup address = some ⟨(key, old), next⟩) :
    Represents (T.erase key)
      { t with
        table := t.table.set (t.slot hash key) next
        heap := t.heap.erase address } := by
  rw [← List.nil_append ((address, key, old) :: after)] at segment
  obtain ⟨_, again, _, rest, _, behind⟩ := exists_parts segment
  rw [found] at again
  cases again
  apply represents.unlink segment
  · intro cell member
    cases member
  · rw [get_set_self, List.nil_append]
    apply rest.frame
    intro cell member
    exact Finmap.lookup_erase_ne (behind cell member)
  · intro other different
    exact get_set_of_ne different _ (Fin.isLt _)
  · intro place elsewhere
    apply Finmap.lookup_erase_ne
    exact elsewhere _ (List.mem_append_right _ List.mem_cons_self)

theorem Represents.unlink_behind (represents : Represents T t) {key : κ}
    {earlier after : List (Address × κ × α)} {last : Address × κ × α}
    {address : Address} {old : α}
    (segment : Segment t.heap (t.table.get (t.slot hash key))
      (earlier ++ last :: (address, key, old) :: after) none)
    (others : ∀ cell ∈ earlier ++ [last], key ≠ cell.2.1) {next : Pointer}
    (found : t.heap.lookup address = some ⟨(key, old), next⟩) :
    Represents (T.erase key)
      { t with
        heap := (t.heap.insert last.1 ⟨last.2, next⟩).erase address } := by
  obtain ⟨_, _, front, _, apart, apartBehind⟩ := exists_parts segment
  rw [List.append_cons] at segment
  obtain ⟨_, again, _, rest, outside, behind⟩ := exists_parts segment
  rw [found] at again
  cases again
  have lastOutside : last.1 ≠ address :=
    outside last (List.mem_append_right _ List.mem_cons_self)
  have kept : ∀ place, place ≠ last.1 → place ≠ address →
      ((t.heap.insert last.1 ⟨last.2, next⟩).erase address).lookup place =
        t.heap.lookup place := by
    intro place notLast notFreed
    rw [Finmap.lookup_erase_ne notFreed,
      Finmap.lookup_insert_of_ne _ notLast]
  apply represents.unlink segment others
  · rw [List.append_assoc]
    apply Segment.append
    · apply front.frame
      intro cell member
      exact kept _ (apart cell member)
        (outside cell (List.mem_append_left _ member))
    · apply Segment.cons
      · rw [Finmap.lookup_erase_ne lastOutside, Finmap.lookup_insert]
      · apply rest.frame
        intro cell member
        exact kept _ (apartBehind cell (List.mem_cons_of_mem _ member))
          (behind cell member)
  · intro _ _
    rfl
  · intro place elsewhere
    apply kept
    · exact elsewhere last
        (List.mem_append_left _ (List.mem_append_right _ List.mem_cons_self))
    · exact elsewhere _ (List.mem_append_right _ List.mem_cons_self)

theorem Represents.erase_absent (represents : Represents T t) {key : κ}
    (absent : T.find key = none) : Represents (T.erase key) t := by
  constructor
  · exact represents.size_eq
  · intro slot
    obtain ⟨cells, segment, values⟩ := represents.lists slot
    refine ⟨cells, segment, ?_⟩
    rw [T.chain_erase, ← values]
    split
    · next same =>
        rw [T.find_eq_chain, ← same, ← values] at absent
        exact (Chain.unlink_of_absent absent).symm
    · rfl

/-- A deletion returns the data of the key, and leaves what the abstract
deletion leaves. -/
theorem Represents.del_eq (represents : Represents T t) (key : κ) :
    ∃ t', t.del hash key = some (T.find key, t') ∧
      Represents (T.erase key) t' := by
  obtain ⟨cells, segment, values, found⟩ := represents.list key
  rw [del]
  cases head : t.table.get (t.slot hash key) with
  | none =>
      rw [head] at segment
      rw [cells_of_null segment] at found
      have absent : T.find key = none := found
      rw [absent]
      exact ⟨_, rfl, represents.erase_absent absent⟩
  | some pointer =>
      rcases first_or_absent key cells with
        absent | ⟨before, address, old, after, rfl, others⟩
      · have missing : T.find key = none := found.trans (find_absent absent)
        rw [head] at segment
        obtain ⟨last, walked⟩ := searchLast_eq_none segment
          (fun bucket => decide (key = bucket.1)) segment.length_le none
          fun cell member => by simpa using absent cell member
        simp only [walked, missing, Option.bind_eq_bind, Option.bind_some]
        exact ⟨_, rfl, represents.erase_absent missing⟩
      · obtain ⟨next, here, front, rest, outside, behind⟩ :=
          exists_parts segment
        have stored : T.find key = some old := found.trans (find_cells others)
        have walked := searchLast_eq (head ▸ segment)
          (fun bucket => decide (key = bucket.1)) segment.length_le none rfl
          (fun cell member => by simpa using others cell member) (by simp)
        rw [stored]
        rcases List.eq_nil_or_concat before with rfl | ⟨earlier, last, rfl⟩
        · rw [List.nil_append] at segment
          have unlinked := represents.unlink_head segment here
          simp only [List.getLast?_nil, Option.map_none, Option.none_or]
            at walked
          simp only [walked, here, Option.bind_eq_bind, Option.bind_some]
          exact ⟨_, rfl, unlinked⟩
        · rw [List.concat_eq_append] at segment others walked
          rw [List.append_assoc] at segment
          obtain ⟨linked, inFront, _⟩ := exists_parts segment
          have unlinked := represents.unlink_behind segment others here
          simp only [List.getLast?_append, List.getLast?_singleton,
            Option.some_or, Option.map_some] at walked
          simp only [walked, here, inFront, Option.bind_eq_bind,
            Option.bind_some]
          exact ⟨_, rfl, unlinked⟩

end Refinement

/-- The operations, an insertion with the allocator that serves it. -/
inductive Op (κ α : Type) where
  | insert (malloc : Allocator (κ × α)) (key : κ) (data : α)
  | lookup (key : κ)
  | del (key : κ)

namespace Op

def key : Op κ α → κ
  | insert _ key _ => key
  | lookup key => key
  | del key => key

variable [DecidableEq κ]

/-- What the operation makes of the data of a key, if it changes it. -/
def gives (key : κ) : Op κ α → Option (Option α)
  | insert _ other data => if key = other then some (some data) else none
  | lookup _ => none
  | del other => if key = other then some none else none

/-- The data of the last insertion which has not been deleted. -/
def stored (key : κ) (ops : List (Op κ α)) : Option α :=
  (lastOf (gives key) ops).join

def answer (ops : List (Op κ α)) : Op κ α → Option α
  | insert _ key data => some ((stored key ops).getD data)
  | lookup key => stored key ops
  | del key => stored key ops

theorem stored_snoc (key : κ) (ops : List (Op κ α)) (op : Op κ α) :
    stored key (ops ++ [op]) = ((op.gives key).or
      (lastOf (gives key) ops)).join := by
  rw [stored, lastOf_snoc]

theorem mem_of_stored {key : κ} {ops : List (Op κ α)} {data : α}
    (found : stored key ops = some data) : key ∈ ops.map Op.key := by
  obtain ⟨last, given, rfl⟩ : ∃ last, lastOf (gives key) ops = some last ∧
      last = some data := by
    simpa [stored, Option.join_eq_some_iff] using found
  obtain ⟨op, member, gave⟩ := exists_of_lastOf given
  apply List.mem_map.mpr
  refine ⟨op, member, ?_⟩
  cases op with
  | insert malloc other stored =>
      rw [gives] at gave
      split at gave
      · next same => exact same.symm
      · cases gave
  | lookup other => cases gave
  | del other =>
      rw [gives] at gave
      split at gave
      · next same => exact same.symm
      · cases gave

end Op

/-- The three functions of a copy of the table. -/
structure Operations (κ α : Type) (size : Nat) where
  insert : Allocator (κ × α) → κ → α → BucketTable κ α size →
    Option (α × BucketTable κ α size)
  lookup : κ → BucketTable κ α size → Option (Option α)
  del : κ → BucketTable κ α size → Option (Option α × BucketTable κ α size)

namespace Operations

def step (code : Operations κ α size) (t : BucketTable κ α size) :
    Op κ α → Option (BucketTable κ α size × Option α)
  | .insert malloc key data =>
      (code.insert malloc key data t).map fun (old, t) => (t, some old)
  | .lookup key => (code.lookup key t).map fun found => (t, found)
  | .del key => (code.del key t).map fun (found, t) => (t, found)

def machine (code : Operations κ α size) :
    Machine (BucketTable κ α size) (Op κ α) (Option α) :=
  { step := code.step }

end Operations

section Runs

variable [DecidableEq κ]

def operations (hash : κ → Nat) : Operations κ α size :=
  { insert := fun malloc key data t => t.insert hash key malloc data
    lookup := fun key t => t.lookup hash key
    del := fun key t => t.del hash key }

variable {hash : κ → Nat} {t : BucketTable κ α size}

def Holds (hash : κ → Nat) (t : BucketTable κ α size) (ops : List (Op κ α)) :
    Prop :=
  ∃ T : ChainedTable hash α, Represents T t ∧
    ∀ key, T.find key = Op.stored key ops

theorem Holds.lookup_eq {ops : List (Op κ α)} (holds : Holds hash t ops)
    (key : κ) : t.lookup hash key = some (Op.stored key ops) := by
  obtain ⟨T, represents, found⟩ := holds
  rw [represents.lookup_eq, found]

/-- Every operation comes to an end with its answer, and the table stands for
the longer history. -/
theorem Holds.step {ops : List (Op κ α)} (holds : Holds hash t ops)
    (op : Op κ α) :
    ∃ t', (operations hash).step t op = some (t', op.answer ops) ∧
      Holds hash t' (ops ++ [op]) := by
  obtain ⟨T, represents, found⟩ := holds
  cases op with
  | insert malloc key data =>
      obtain ⟨t', inserted, next⟩ := represents.insert_eq key malloc data
      refine ⟨t', ?_, T.insert key data, next, ?_⟩
      · simp only [Operations.step, operations, inserted, found]
        rfl
      · intro other
        rw [Op.stored_snoc, T.find_insert, Op.gives]
        by_cases same : other = key
        · rw [if_pos same, same, Function.update_self]
          rfl
        · rw [if_neg same, Function.update_of_ne same, found]
          rfl
  | lookup key =>
      refine ⟨t, ?_, T, represents, ?_⟩
      · simp only [Operations.step, operations, represents.lookup_eq, found]
        rfl
      · intro other
        rw [Op.stored_snoc, found]
        rfl
  | del key =>
      obtain ⟨t', deleted, next⟩ := represents.del_eq key
      refine ⟨t', ?_, T.erase key, next, ?_⟩
      · simp only [Operations.step, operations, deleted, found]
        rfl
      · intro other
        rw [Op.stored_snoc, T.find_erase, Op.gives]
        by_cases same : other = key
        · rw [if_pos same, same, Function.update_self]
          rfl
        · rw [if_neg same, Function.update_of_ne same, found]
          rfl

theorem holds_construct (size_pos : 0 < size) :
    Holds hash (construct κ α size size_pos) [] := by
  refine ⟨_, represents_construct size_pos, ?_⟩
  intro key
  rw [ChainedTable.find_empty]
  rfl

theorem holds_of_run {size_pos : 0 < size} {ops : List (Op κ α)}
    {outputs : List (Option α)}
    (run : (operations hash).machine.Run (construct κ α size size_pos) ops
      outputs t) : Holds hash t ops := by
  induction run with
  | nil => exact holds_construct size_pos
  | @snoc ops outputs state next op output _ stepped ih =>
      obtain ⟨t', known, holds⟩ := ih.step op
      have same : next = t' :=
        congrArg Prod.fst (Option.some.inj (stepped.symm.trans known))
      rw [same]
      exact holds

theorem exists_run (size_pos : 0 < size) (ops : List (Op κ α)) :
    ∃ outputs t, (operations hash).machine.Run (construct κ α size size_pos) ops
      outputs t := by
  induction ops using List.reverseRecOn with
  | nil => exact ⟨[], _, .nil⟩
  | append_singleton ops op ih =>
      obtain ⟨outputs, t, run⟩ := ih
      obtain ⟨t', stepped, _⟩ := (holds_of_run run).step op
      exact ⟨_, t', run.snoc stepped⟩

end Runs

/-- Every bucket is in the list of the slot its key hashes to, and no two
buckets of a list have one key. -/
def Placed (hash : κ → Nat) (t : BucketTable κ α size) : Prop :=
  ∀ slot : Fin size, ∃ cells, Segment t.heap (t.table.get slot) cells none ∧
    (∀ cell ∈ cells, hash cell.2.1 % size = slot) ∧
    (cells.map fun cell => cell.2.1).Nodup

theorem Represents.placed {hash : κ → Nat} {T : ChainedTable hash α}
    {t : BucketTable κ α size} (represents : Represents T t) :
    t.Placed hash := by
  intro slot
  obtain ⟨cells, segment, values⟩ := represents.lists slot
  have below : slot.val < T.size := by
    rw [represents.size_eq]
    exact slot.isLt
  refine ⟨cells, segment, ?_, ?_⟩
  · intro cell member
    have inChain : cell.2 ∈ T.chain slot := by
      rw [← values]
      exact List.mem_map_of_mem member
    have placed := T.placed_chain inChain
    rwa [represents.size_eq] at placed
  · have keys := T.nodup ⟨slot.val, below⟩
    rw [← T.chain_eq ⟨slot.val, below⟩, ← values, List.map_map] at keys
    exact keys

end BucketTable

end NodeIdentity.Library
