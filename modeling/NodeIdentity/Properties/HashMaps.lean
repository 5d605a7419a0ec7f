import NodeIdentity.HashMemory

/-!
# The hash tables as finite maps

Whatever has been inserted and deleted, and wherever `malloc` puts the buckets,
both tables are maps: no bucket leaves the slot of its key, and a key has the
data it was given last.  An enumeration lists every key it should once, unless
memory is at an end.  Sizes are those of a `size_t` of 32 bits.
-/

namespace NodeIdentity

open NodeIdentity.Library

namespace HashMemory

variable {κ α δ ε : Type} {size : Nat}

/-- The table after a history is a map: the operations come to an end, return
what the history says and touch no other key. -/
structure FiniteMap [DecidableEq κ] (hash : κ → Nat)
    (code : BucketTable.Operations κ α size) (size_pos : 0 < size)
    (ops : List (BucketTable.Op κ α)) : Prop where
  reached : ∃ outputs table, code.machine.Run
    (BucketTable.construct κ α size size_pos) ops outputs table
  placed : ∀ outputs table, code.machine.Run
    (BucketTable.construct κ α size size_pos) ops outputs table →
      table.Placed hash
  answered : ∀ outputs table, code.machine.Run
    (BucketTable.construct κ α size size_pos) ops outputs table →
      ∀ op, ∃ next, code.step table op = some (next, op.answer ops) ∧
        ∀ other, other ≠ op.key →
          code.lookup other next = code.lookup other table

theorem gives_of_ne [DecidableEq κ] {op : BucketTable.Op κ α} {other : κ}
    (different : other ≠ op.key) : op.gives other = none := by
  cases op with
  | insert malloc key data => exact if_neg different
  | lookup key => rfl
  | del key => exact if_neg different

theorem finiteMap [DecidableEq κ] (hash : κ → Nat) (size_pos : 0 < size)
    (ops : List (BucketTable.Op κ α)) :
    FiniteMap hash (BucketTable.operations hash) size_pos ops := by
  constructor
  · exact BucketTable.exists_run size_pos ops
  · intro outputs table run
    obtain ⟨T, represents, _⟩ := BucketTable.holds_of_run run
    exact represents.placed
  · intro outputs table run op
    have holds := BucketTable.holds_of_run run
    obtain ⟨next, stepped, after⟩ := holds.step op
    refine ⟨next, stepped, ?_⟩
    intro other different
    have same : BucketTable.Op.stored other (ops ++ [op]) =
        BucketTable.Op.stored other ops := by
      rw [BucketTable.Op.stored_snoc, gives_of_ne different]
      rfl
    exact (after.lookup_eq other).trans
      ((congrArg some same).trans (holds.lookup_eq other).symm)

/-- Two tables and what has been done to them. -/
structure TableHistory (δ ε : Type) where
  size : Nat
  size_pos : 0 < size
  size_lt : size < 2 ^ 32
  ops : List (BucketTable.Op NID δ)
  size32 : Nat
  size32_pos : 0 < size32
  size32_lt : size32 < 2 ^ 32
  ops32 : List (BucketTable.Op NID32 ε)

/-- An enumeration: what it reads, and the list it adds to. -/
structure Enumeration (δ : Type) where
  reading : Reading δ
  malloc : Allocator (NID × List UInt8)
  ll : LlHead
  entries : List (NID × List UInt8)
  lists : ll.Lists entries

namespace Enumeration

/-- The keys whose entries are static or recent, each once. -/
def keys (enumeration : Enumeration δ) (ops : List (BucketTable.Op NID δ)) :
    List NID :=
  (ops.map BucketTable.Op.key).dedup.filter fun nid =>
    (BucketTable.Op.stored nid ops).any fun data =>
      enumeration.reading.lists (nid, data)

/-- The list has the keys behind what it had, each once and with the text of
its locator, and its size has grown by their number. -/
structure Extends (enumeration : Enumeration δ)
    (ops : List (BucketTable.Op NID δ)) (ll : LlHead)
    (added : List (NID × List UInt8)) : Prop where
  lists : ll.Lists (enumeration.entries ++ added)
  once : (added.map Prod.fst).Perm (enumeration.keys ops)
  text : ∀ entry ∈ added, ∃ data,
    BucketTable.Op.stored entry.1 ops = some data ∧
      entry.2 = inetNtop4 (enumeration.reading.deref data).ip
  size : ll.size = enumeration.ll.size + added.length

end Enumeration

namespace TableHistory

/-- `hash_enumerate` comes to an end and has extended the list, unless `calloc`
fails on the way. -/
def Enumerates (history : TableHistory δ ε) (enumeration : Enumeration δ) :
    Prop :=
  ∀ outputs table fuel, nidTable.machine.Run
    (BucketTable.construct NID δ history.size history.size_pos) history.ops
      outputs table → history.size < fuel →
    hashEnumerate fuel enumeration.reading enumeration.malloc table
        enumeration.ll = .error .outOfMemory ∨
    ∃ ll added,
      hashEnumerate fuel enumeration.reading enumeration.malloc table
        enumeration.ll = .ok ll ∧
      enumeration.Extends history.ops ll added

/-- Both tables are finite maps, and an enumeration lists the first one. -/
structure Correct (history : TableHistory δ ε) (enumeration : Enumeration δ) :
    Prop where
  nids : FiniteMap (fun nid => (hash nid).toNat) nidTable history.size_pos
    history.ops
  nid32s : FiniteMap (fun nid32 => (hash32 nid32).toNat) nid32Table
    history.size32_pos history.ops32
  enumerates : history.Enumerates enumeration

end TableHistory

theorem Enumeration.mem_keys_iff {enumeration : Enumeration δ}
    {ops : List (BucketTable.Op NID δ)} {nid : NID} :
    nid ∈ enumeration.keys ops ↔ ∃ data,
      BucketTable.Op.stored nid ops = some data ∧
        enumeration.reading.lists (nid, data) = true := by
  rw [Enumeration.keys, List.mem_filter, List.mem_dedup, Option.any_eq_true]
  constructor
  · intro listed
    exact listed.2
  · intro listed
    obtain ⟨data, found, recent⟩ := listed
    exact ⟨BucketTable.Op.mem_of_stored found, data, found, recent⟩

theorem Enumeration.perm_keys (enumeration : Enumeration δ)
    {ops : List (BucketTable.Op NID δ)} {T : HashTable δ}
    (found : ∀ nid, T.find nid = BucketTable.Op.stored nid ops) :
    ((listed enumeration.reading T.nodes).map Prod.fst).Perm
      (enumeration.keys ops) := by
  have keys : (listed enumeration.reading T.nodes).map Prod.fst =
      (T.nodes.filter enumeration.reading.lists).map Prod.fst := by
    rw [listed, List.map_map]
    rfl
  rw [keys]
  have once : ((T.nodes.filter enumeration.reading.lists).map
      Prod.fst).Nodup :=
    T.nodup_nodes.sublist (List.filter_sublist.map Prod.fst)
  apply (List.perm_ext_iff_of_nodup once
    ((List.nodup_dedup _).filter _)).mpr
  intro nid
  rw [← Enumeration.keys, Enumeration.mem_keys_iff, List.mem_map]
  constructor
  · intro listed
    obtain ⟨⟨key, data⟩, member, rfl⟩ := listed
    obtain ⟨stored, recent⟩ := List.mem_filter.mp member
    exact ⟨data, (found key).symm.trans (T.mem_nodes_iff.mp stored), recent⟩
  · intro listed
    obtain ⟨data, stored, recent⟩ := listed
    refine ⟨(nid, data), List.mem_filter.mpr ⟨?_, recent⟩, rfl⟩
    exact T.mem_nodes_iff.mpr ((found nid).trans stored)

theorem TableHistory.enumerates (history : TableHistory δ ε)
    (enumeration : Enumeration δ) : history.Enumerates enumeration := by
  intro outputs table fuel run enough
  obtain ⟨T, represents, found⟩ := BucketTable.holds_of_run run
  have keys := enumeration.perm_keys found
  rw [hashEnumerate_eq represents history.size_lt enough]
  rcases enumerateEntries_eq enumeration.malloc enumeration.lists
      T.nodes with failed | ⟨ll, ended, lists⟩
  · exact .inl failed
  · refine .inr ⟨ll, listed enumeration.reading T.nodes, ended, lists, keys,
      ?_, ?_⟩
    · intro entry member
      obtain ⟨⟨nid, data⟩, inNodes, rfl⟩ := List.mem_map.mp member
      have stored := (List.mem_filter.mp inNodes).1
      exact ⟨data, (found nid).symm.trans (T.mem_nodes_iff.mp stored), rfl⟩
    · rw [lists.size, enumeration.lists.size, List.length_append]
      exact Nat.cast_add _ _

/-- An allocator which keeps to blocks of memory as long as there are any. -/
private def inBlocks (β : Type) : Allocator β :=
  { address := fun heap => 8 * (heap.keys.sup id + 1)
    fresh := by
      intro heap used
      have below : 8 * (heap.keys.sup id + 1) ≤ heap.keys.sup id :=
        Finset.le_sup (f := id) (Finmap.mem_keys.mpr used)
      have above : heap.keys.sup id + 1 ≤ 8 * (heap.keys.sup id + 1) :=
        Nat.le_mul_of_pos_left _ (by decide)
      exact Nat.not_succ_le_self _ (above.trans below) }

/-- Of two nodes the static one is listed, and the one which is too old is
not. -/
example : ((nidTable.machine.exec
      (BucketTable.construct NID ConnEntry 10 ten_pos)
      [.insert (inBlocks _) (NID.ofNat 5) ⟨NID32.ofNat 7, 0⟩,
        .insert (inBlocks _) (NID.ofNat 6) ⟨NID32.ofNat 8, 1⟩]).any fun after =>
    match hashEnumerate 11 ⟨id, fun _ => 1000000⟩ (inBlocks _) after.1
      initLl with
    | .ok ll => ll.size = 1
    | .error _ => false) = true := by
  decide +kernel

end HashMemory

end NodeIdentity
