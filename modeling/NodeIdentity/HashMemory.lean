import NodeIdentity.Hash
import NodeIdentity.Inet
import NodeIdentity.Library.BucketTable

/-!
# Buckets and list nodes in memory

The functions of `hash.c`, `hash32.c` and `llist.c` on the pointers they work
with.  The data of a bucket is a pointer the table does not look behind; only
`hash_enumerate` reads what it leads to.  What `Hash` says of the tables is
what these functions compute.
-/

namespace NodeIdentity

open NodeIdentity.Library

namespace HashMemory

variable {δ : Type} {size : Nat}

def hashInsert (malloc : Allocator (NID × δ)) (nid : NID) (data : δ)
    (table : BucketTable NID δ size) : Option (δ × BucketTable NID δ size) :=
  table.insert (fun nid => (hash nid).toNat) nid malloc data

def hashLookup (nid : NID) (table : BucketTable NID δ size) :
    Option (Option δ) :=
  table.lookup (fun nid => (hash nid).toNat) nid

def hashDel (nid : NID) (table : BucketTable NID δ size) :
    Option (Option δ × BucketTable NID δ size) :=
  table.del (fun nid => (hash nid).toNat) nid

def hashInsert32 (malloc : Allocator (NID32 × δ)) (nid32 : NID32) (data : δ)
    (table : BucketTable NID32 δ size) :
    Option (δ × BucketTable NID32 δ size) :=
  table.insert (fun nid32 => (hash32 nid32).toNat) nid32 malloc data

def hashLookup32 (nid32 : NID32) (table : BucketTable NID32 δ size) :
    Option (Option δ) :=
  table.lookup (fun nid32 => (hash32 nid32).toNat) nid32

def hashDel32 (nid32 : NID32) (table : BucketTable NID32 δ size) :
    Option (Option δ × BucketTable NID32 δ size) :=
  table.del (fun nid32 => (hash32 nid32).toNat) nid32

def nidTable : BucketTable.Operations NID δ size :=
  ⟨hashInsert, hashLookup, hashDel⟩

def nid32Table : BucketTable.Operations NID32 δ size :=
  ⟨hashInsert32, hashLookup32, hashDel32⟩

theorem nidTable_eq : (nidTable : BucketTable.Operations NID δ size) =
    BucketTable.operations fun nid => (hash nid).toNat := rfl

theorem nid32Table_eq : (nid32Table : BucketTable.Operations NID32 δ size) =
    BucketTable.operations fun nid32 => (hash32 nid32).toNat := rfl

/-- How an addition to a list goes wrong: `calloc` returns NULL, the `int` which
counts the entries overflows, or a pointer leads out of the heap or round in a
circle. -/
inductive Fault where
  | outOfMemory
  | overflow
  | wild

instance : MonadLift Option (Except Fault) :=
  ⟨fun found => found.elim (.error .wild) .ok⟩

instance : LawfulMonadLift Option (Except Fault) where
  monadLift_pure _ := rfl
  monadLift_bind found _ := by cases found <;> rfl

@[simp] theorem liftM_some {α : Type} (value : α) :
    (liftM (some value) : Except Fault α) = .ok value := rfl

/-- Pointers have 32 bits, and blocks start at multiples of eight. -/
def Block (address : Address) : Prop := address < 2 ^ 32 ∧ 8 ∣ address

instance (address : Address) : Decidable (Block address) :=
  inferInstanceAs (Decidable (_ ∧ _))

/-- NULL unless there is a place for the block in memory. -/
def calloc {β : Type} (malloc : Allocator β) (heap : Heap β) :
    Except Fault Address :=
  if Block (malloc.address heap) then .ok (malloc.address heap)
  else .error .outOfMemory

/-- `ll_head` and the nodes behind it; `size` is an `int`. -/
structure LlHead where
  size : Int
  size_lt : size < 2 ^ 31
  next : Pointer
  heap : Heap (NID × List UInt8)

def initLl : LlHead := ⟨0, by decide, none, ∅⟩

def tail (heap : Heap (NID × List UInt8)) (head : Pointer) : Option Pointer :=
  lastNode heap heap.keys.card head

def addLl (malloc : Allocator (NID × List UInt8)) (nid : NID)
    (ip : List UInt8) (ll : LlHead) : Except Fault LlHead := do
  let node ← calloc malloc ll.heap
  let heap := ll.heap.insert node ⟨(nid, ip), none⟩
  if size_lt : ll.size + 1 < 2 ^ 31 then
    match ← (tail heap ll.next : Except Fault Pointer) with
    | some last =>
        let before ← heap.lookup last
        return ⟨ll.size + 1, size_lt, ll.next,
          heap.insert last { before with next := some node }⟩
    | none => return ⟨ll.size + 1, size_lt, some node, heap⟩
  else throw .overflow

/-- How `hash_enumerate` reads memory and the clock: what the data of an entry
points to, and the time at which its entry is looked at. -/
structure Reading (δ : Type) where
  deref : δ → ConnEntry
  time : NID → Nat

namespace Reading

/-- Static, or recent enough. -/
def lists (reading : Reading δ) (node : NID × δ) : Bool :=
  let ce := reading.deref node.2
  ce.tstamp + rvsUpdateTimeout > reading.time node.1 ∨ ce.tstamp = 0

def entry (reading : Reading δ) (node : NID × δ) : NID × List UInt8 :=
  (node.1, inetNtop4 (reading.deref node.2).ip)

end Reading

/-- The body of the inner loop. -/
def enumerateEntry (reading : Reading δ)
    (malloc : Allocator (NID × List UInt8)) (ll : LlHead) (node : NID × δ) :
    Except Fault LlHead :=
  if reading.lists node then
    addLl malloc node.1 (inetNtop4 (reading.deref node.2).ip) ll
  else .ok ll

/-- The loop over a chain, which is not entered for NULL. -/
def enumerateChain (reading : Reading δ)
    (malloc : Allocator (NID × List UInt8)) (table : BucketTable NID δ size)
    (ll : LlHead) : Pointer → Except Fault LlHead
  | none => .ok ll
  | some temp =>
      forEach table.heap (enumerateEntry reading malloc) table.heap.keys.card
        (some temp) ll

/-- The outer loop, with a counter as wide as `size_t`. -/
def enumerateFrom (reading : Reading δ)
    (malloc : Allocator (NID × List UInt8)) (table : BucketTable NID δ size) :
    Nat → UInt32 → LlHead → Except Fault LlHead
  | 0, _, _ => .error .wild
  | fuel + 1, i, ll =>
      if below : i.toNat < size then do
        let ll ← enumerateChain reading malloc table ll table.table[i.toNat]
        enumerateFrom reading malloc table fuel (i + 1) ll
      else .ok ll

def hashEnumerate (fuel : Nat) (reading : Reading δ)
    (malloc : Allocator (NID × List UInt8)) (table : BucketTable NID δ size)
    (ll : LlHead) : Except Fault LlHead :=
  enumerateFrom reading malloc table fuel 0 ll

/-- The list has these entries, in this order, and `size` of them.  Its nodes
are blocks of memory. -/
structure LlHead.Lists (ll : LlHead) (entries : List (NID × List UInt8)) :
    Prop where
  nodes : ∃ cells, Segment ll.heap ll.next cells none ∧
    cells.map Prod.snd = entries
  size : ll.size = entries.length
  blocks : ∀ address ∈ ll.heap, Block address

theorem initLl_lists : initLl.Lists [] := by
  refine ⟨⟨[], .nil none, rfl⟩, rfl, ?_⟩
  intro address member
  exact absurd member Finmap.notMem_empty

theorem card_le_of_blocks {β : Type} {heap : Heap β}
    (blocks : ∀ address ∈ heap, Block address) :
    heap.keys.card ≤ 2 ^ 29 := by
  have inside : heap.keys ⊆ (Finset.range (2 ^ 29)).image (8 * ·) := by
    intro address member
    obtain ⟨below, count, rfl⟩ := blocks address (Finmap.mem_keys.mp member)
    have below : 8 * count < 8 * 2 ^ 29 := below
    apply Finset.mem_image_of_mem
    exact Finset.mem_range.mpr (Nat.lt_of_mul_lt_mul_left below)
  have counted := (Finset.card_le_card inside).trans Finset.card_image_le
  rwa [Finset.card_range] at counted

theorem LlHead.Lists.length_le {ll : LlHead}
    {entries : List (NID × List UInt8)} (lists : ll.Lists entries) :
    entries.length ≤ 2 ^ 29 := by
  obtain ⟨cells, segment, rfl⟩ := lists.nodes
  rw [List.length_map]
  exact segment.length_le.trans (card_le_of_blocks lists.blocks)

theorem tail_eq {heap : Heap (NID × List UInt8)} {head : Pointer}
    {cells : List (Address × NID × List UInt8)}
    (segment : Segment heap head cells none) :
    tail heap head = some (cells.getLast?.map Prod.fst) :=
  lastNode_eq segment segment.length_le

theorem addLl_eq {ll : LlHead} {entries : List (NID × List UInt8)}
    (lists : ll.Lists entries) (malloc : Allocator (NID × List UInt8))
    (nid : NID) (ip : List UInt8) :
    addLl malloc nid ip ll = .error .outOfMemory ∨
      ∃ ll', addLl malloc nid ip ll = .ok ll' ∧
        ll'.Lists (entries ++ [(nid, ip)]) := by
  rw [addLl, calloc]
  by_cases block : Block (malloc.address ll.heap)
  · refine .inr ?_
    have few := lists.length_le
    have room : ll.size + 1 < 2 ^ 31 := by
      rw [lists.size]
      omega
    have size : ll.size + 1 = (entries ++ [(nid, ip)]).length := by
      rw [lists.size, List.length_append]
      rfl
    have blocks : ∀ node address,
        address ∈ ll.heap.insert (malloc.address ll.heap) node →
          Block address := by
      intro node address member
      rcases Finmap.mem_insert.mp member with rfl | old
      · exact block
      · exact lists.blocks address old
    obtain ⟨cells, segment, rfl⟩ := lists.nodes
    have fresh := malloc.fresh ll.heap
    have kept := segment.insert_fresh fresh ⟨(nid, ip), none⟩
    rw [if_pos block]
    simp only [bind, Except.bind, dif_pos room, tail_eq kept, liftM_some]
    rcases List.eq_nil_or_concat cells with rfl | ⟨earlier, last, rfl⟩
    · refine ⟨_, rfl, ?_, size, blocks _⟩
      exact ⟨[(malloc.address ll.heap, nid, ip)],
        .cons (Finmap.lookup_insert _) (.nil none), rfl⟩
    · rw [List.concat_eq_append] at segment kept size ⊢
      have linked := segment.snoc fresh (nid, ip)
      have found := kept.lookup_last
      simp only [List.getLast?_append, List.getLast?_singleton,
        Option.some_or, Option.map_some, liftM_some, found]
      refine ⟨_, rfl, ⟨_, linked, ?_⟩, size, ?_⟩
      · rw [List.map_append]
        rfl
      · intro address member
        rcases Finmap.mem_insert.mp member with rfl | old
        · exact blocks ⟨(nid, ip), none⟩ _
            (Finmap.mem_iff.mpr ⟨_, found⟩)
        · exact blocks _ address old
  · rw [if_neg block]
    exact .inl rfl

section Enumeration

variable (reading : Reading δ) (malloc : Allocator (NID × List UInt8))

/-- The entries that are listed, for the nodes in this order. -/
def listed (nodes : List (NID × δ)) : List (NID × List UInt8) :=
  (nodes.filter reading.lists).map reading.entry

theorem listed_cons (node : NID × δ) (nodes : List (NID × δ)) :
    listed reading (node :: nodes) =
      if reading.lists node then reading.entry node :: listed reading nodes
      else listed reading nodes := by
  rw [listed, List.filter_cons]
  split
  · rw [List.map_cons]
    rfl
  · rfl

variable {reading}

theorem enumerateEntries_eq {ll : LlHead} {entries : List (NID × List UInt8)}
    (lists : ll.Lists entries) (nodes : List (NID × δ)) :
    nodes.foldlM (enumerateEntry reading malloc) ll = .error .outOfMemory ∨
      ∃ ll', nodes.foldlM (enumerateEntry reading malloc) ll = .ok ll' ∧
        ll'.Lists (entries ++ listed reading nodes) := by
  induction nodes generalizing ll entries with
  | nil =>
      refine .inr ⟨ll, rfl, ?_⟩
      rwa [listed, List.filter_nil, List.map_nil, List.append_nil]
  | cons node nodes ih =>
      rw [listed_cons, List.foldlM_cons, enumerateEntry]
      by_cases wanted : reading.lists node = true
      · rw [if_pos wanted, if_pos wanted]
        rcases addLl_eq lists malloc node.1
            (inetNtop4 (reading.deref node.2).ip) with
          failed | ⟨next, added, nextLists⟩
        · rw [failed]
          exact .inl rfl
        · have rest := ih nextLists
          rw [List.append_assoc] at rest
          rw [added]
          exact rest
      · rw [if_neg wanted, if_neg wanted]
        exact ih lists

variable {malloc}

theorem enumerateChain_eq {hash : NID → Nat} {T : ChainedTable hash δ}
    {table : BucketTable NID δ size}
    (represents : BucketTable.Represents T table) (slot : Fin size)
    (ll : LlHead) :
    enumerateChain reading malloc table ll (table.table.get slot) =
      (T.chain slot).foldlM (enumerateEntry reading malloc) ll := by
  obtain ⟨cells, segment, values⟩ := represents.lists slot
  rw [← values, ← forEach_eq segment _ segment.length_le]
  cases table.table.get slot with
  | none =>
      rw [enumerateChain, forEach]
      rfl
  | some temp => rw [enumerateChain]

theorem enumerateFrom_eq {hash : NID → Nat} {T : ChainedTable hash δ}
    {table : BucketTable NID δ size}
    (represents : BucketTable.Represents T table) (small : size < 2 ^ 32)
    {count fuel : Nat} {i : UInt32} (left : i.toNat + count = size)
    (enough : count < fuel) (ll : LlHead) :
    enumerateFrom reading malloc table fuel i ll =
      (((List.range' i.toNat count).map T.chain).flatten).foldlM
        (enumerateEntry reading malloc) ll := by
  induction count generalizing fuel i ll with
  | zero =>
      obtain ⟨fuel, rfl⟩ := Nat.exists_eq_add_of_lt enough
      rw [enumerateFrom, dif_neg (by omega)]
      rfl
  | succ count ih =>
      obtain ⟨fuel, rfl⟩ := Nat.exists_eq_add_of_lt enough
      have below : i.toNat < size := by omega
      have next : (i + 1).toNat = i.toNat + 1 := by
        rw [UInt32.toNat_add]
        exact Nat.mod_eq_of_lt (by
          have one : (1 : UInt32).toNat = 1 := rfl
          omega)
      have chain : enumerateChain reading malloc table ll
          table.table[i.toNat] =
            (T.chain i.toNat).foldlM (enumerateEntry reading malloc) ll :=
        enumerateChain_eq represents ⟨i.toNat, below⟩ ll
      rw [enumerateFrom, dif_pos below, List.range'_succ, List.map_cons,
        List.flatten_cons, List.foldlM_append, chain, ← next]
      congr 1
      funext ll
      exact ih (by omega) (by omega) ll

theorem hashEnumerate_eq {hash : NID → Nat} {T : ChainedTable hash δ}
    {table : BucketTable NID δ size}
    (represents : BucketTable.Represents T table) (small : size < 2 ^ 32)
    {fuel : Nat} (enough : size < fuel) (ll : LlHead) :
    hashEnumerate fuel reading malloc table ll =
      T.nodes.foldlM (enumerateEntry reading malloc) ll := by
  have all : T.nodes = ((List.range' (0 : UInt32).toNat size).map
      T.chain).flatten := by
    rw [T.nodes_eq_chains, represents.size_eq, List.range_eq_range']
    rfl
  rw [all]
  exact enumerateFrom_eq represents small (Nat.zero_add size) enough ll

end Enumeration

section Refinement

variable {T : HashTable δ} {T32 : HashTable32 δ}
  {table : BucketTable NID δ size} {table32 : BucketTable NID32 δ size}

theorem hashInsert_refines (represents : BucketTable.Represents T table)
    (malloc : Allocator (NID × δ)) (nid : NID) (data : δ) :
    ∃ next, hashInsert malloc nid data table =
        some ((NodeIdentity.hashInsert nid data T).1, next) ∧
      BucketTable.Represents (NodeIdentity.hashInsert nid data T).2 next :=
  represents.insert_eq nid malloc data

theorem hashLookup_refines (represents : BucketTable.Represents T table)
    (nid : NID) :
    hashLookup nid table = some (NodeIdentity.hashLookup nid T) :=
  represents.lookup_eq nid

theorem hashDel_refines (represents : BucketTable.Represents T table)
    (nid : NID) :
    ∃ next, hashDel nid table =
        some ((NodeIdentity.hashDel nid T).1, next) ∧
      BucketTable.Represents (NodeIdentity.hashDel nid T).2 next :=
  represents.del_eq nid

theorem hashInsert32_refines (represents : BucketTable.Represents T32 table32)
    (malloc : Allocator (NID32 × δ)) (nid32 : NID32) (data : δ) :
    ∃ next, hashInsert32 malloc nid32 data table32 =
        some ((NodeIdentity.hashInsert32 nid32 data T32).1, next) ∧
      BucketTable.Represents (NodeIdentity.hashInsert32 nid32 data T32).2
        next :=
  represents.insert_eq nid32 malloc data

theorem hashLookup32_refines (represents : BucketTable.Represents T32 table32)
    (nid32 : NID32) :
    hashLookup32 nid32 table32 =
      some (NodeIdentity.hashLookup32 nid32 T32) :=
  represents.lookup_eq nid32

theorem hashDel32_refines (represents : BucketTable.Represents T32 table32)
    (nid32 : NID32) :
    ∃ next, hashDel32 nid32 table32 =
        some ((NodeIdentity.hashDel32 nid32 T32).1, next) ∧
      BucketTable.Represents (NodeIdentity.hashDel32 nid32 T32).2 next :=
  represents.del_eq nid32

theorem listed_eq_hashEnumerate (now : Timeval) (T : HashTable ConnEntry) :
    listed ⟨id, fun _ => now.tvSec⟩ T.nodes =
      (NodeIdentity.hashEnumerate now T []).map
        fun entry => (entry.1, inetNtop4 entry.2) := by
  rw [listed, NodeIdentity.hashEnumerate, List.nil_append, List.map_map]
  rfl

end Refinement

end HashMemory

end NodeIdentity
