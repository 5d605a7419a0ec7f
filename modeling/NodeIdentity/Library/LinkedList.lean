import Mathlib.Data.Finmap
import Mathlib.Data.List.Nodup
import Mathlib.Data.List.Perm.Subperm
import Mathlib.Order.Lattice.Nat

/-!
# Linked lists in a heap

Nodes with a nullable pointer to the next one.  `Segment` says which nodes lie
between two pointers; a list is a segment up to NULL.  Programs walk along the
pointers and change nodes in place, so what is shown of them is which segment
they leave.  A program which leaves the heap, or walks in a circle, gives
`none`.
-/

namespace NodeIdentity.Library

abbrev Address := Nat

abbrev Pointer := Option Address

structure ListNode (β : Type) where
  value : β
  next : Pointer

abbrev Heap (β : Type) := Finmap fun _ : Address => ListNode β

/-- What `malloc` returns: any address which is not in use. -/
structure Allocator (β : Type) where
  address : Heap β → Address
  fresh : ∀ heap, address heap ∉ heap

/-- The nodes from one pointer up to another, with their addresses. -/
inductive Segment {β : Type} (heap : Heap β) :
    Pointer → List (Address × β) → Pointer → Prop where
  | nil (pointer : Pointer) : Segment heap pointer [] pointer
  | cons {address : Address} {value : β} {next stop : Pointer}
      {cells : List (Address × β)} :
      heap.lookup address = some ⟨value, next⟩ →
      Segment heap next cells stop →
      Segment heap (some address) ((address, value) :: cells) stop

namespace Segment

variable {β : Type} {heap other : Heap β} {start middle stop : Pointer}
  {cells rest : List (Address × β)}

theorem append (first : Segment heap start cells middle)
    (second : Segment heap middle rest stop) :
    Segment heap start (cells ++ rest) stop := by
  induction first with
  | nil => exact second
  | cons found _ ih => exact .cons found (ih second)

theorem split (whole : Segment heap start (cells ++ rest) stop) :
    ∃ middle, Segment heap start cells middle ∧
      Segment heap middle rest stop := by
  induction cells generalizing start with
  | nil => exact ⟨start, .nil start, whole⟩
  | cons cell cells ih =>
      cases whole with
      | cons found tail =>
          obtain ⟨middle, first, second⟩ := ih tail
          exact ⟨middle, .cons found first, second⟩

/-- A segment depends on its own nodes only. -/
theorem frame (segment : Segment heap start cells stop)
    (kept : ∀ cell ∈ cells, other.lookup cell.1 = heap.lookup cell.1) :
    Segment other start cells stop := by
  induction segment with
  | nil pointer => exact .nil pointer
  | cons found _ ih =>
      have here := kept _ List.mem_cons_self
      apply cons
      · exact here.trans found
      · apply ih
        intro cell member
        exact kept cell (List.mem_cons_of_mem _ member)

/-- A pointer leads to one list only. -/
theorem unique (first : Segment heap start cells none)
    (second : Segment heap start rest none) : cells = rest := by
  generalize final : (none : Pointer) = stop at first
  induction first generalizing rest with
  | nil =>
      subst final
      cases second
      rfl
  | cons found _ ih =>
      cases second with
      | cons foundAgain tail =>
          rw [found] at foundAgain
          cases foundAgain
          rw [ih tail final]

theorem lookup_of_mem (segment : Segment heap start cells stop)
    {cell : Address × β} (member : cell ∈ cells) :
    ∃ next, heap.lookup cell.1 = some ⟨cell.2, next⟩ := by
  induction segment with
  | nil => cases member
  | cons found _ ih =>
      rcases List.mem_cons.mp member with rfl | later
      · exact ⟨_, found⟩
      · exact ih later

theorem mem_heap (segment : Segment heap start cells stop)
    {cell : Address × β} (member : cell ∈ cells) : cell.1 ∈ heap := by
  obtain ⟨next, found⟩ := segment.lookup_of_mem member
  exact Finmap.mem_iff.mpr ⟨_, found⟩

/-- A list which comes to an end passes no address twice: from there on it
would go the same way again. -/
theorem nodup (segment : Segment heap start cells none) :
    (cells.map Prod.fst).Nodup := by
  generalize final : (none : Pointer) = stop at segment
  induction segment with
  | nil => exact List.nodup_nil
  | @cons address value next stop cells found tail ih =>
      subst final
      rw [List.map_cons, List.nodup_cons]
      refine ⟨?_, ih rfl⟩
      intro again
      obtain ⟨⟨_, later⟩, member, rfl⟩ := List.mem_map.mp again
      obtain ⟨before, after, rfl⟩ := List.append_of_mem member
      obtain ⟨middle, first, second⟩ := tail.split
      cases second with
      | cons foundAgain end_ =>
          rw [found] at foundAgain
          cases foundAgain
          have lengths := congrArg List.length (tail.unique end_)
          simp only [List.length_append, List.length_cons] at lengths
          omega

theorem length_le (segment : Segment heap start cells none) :
    cells.length ≤ heap.keys.card := by
  have inHeap : (cells.map Prod.fst).toFinset ⊆ heap.keys := by
    intro address member
    obtain ⟨cell, inCells, rfl⟩ := List.mem_map.mp (List.mem_toFinset.mp member)
    exact Finmap.mem_keys.mpr (segment.mem_heap inCells)
  have counted := Finset.card_le_card inHeap
  rwa [List.toFinset_card_of_nodup segment.nodup, List.length_map] at counted

theorem insert_fresh (segment : Segment heap start cells stop)
    {address : Address} (fresh : address ∉ heap) (node : ListNode β) :
    Segment (heap.insert address node) start cells stop := by
  apply segment.frame
  intro cell member
  apply Finmap.lookup_insert_of_ne
  intro same
  exact fresh (same ▸ segment.mem_heap member)

theorem lookup_last {last : Address × β}
    (segment : Segment heap start (cells ++ [last]) none) :
    heap.lookup last.1 = some ⟨last.2, none⟩ := by
  obtain ⟨middle, _, tail⟩ := segment.split
  cases tail with
  | cons found rest =>
      cases rest
      exact found

theorem snoc {last : Address × β}
    (segment : Segment heap start (cells ++ [last]) none) {address : Address}
    (fresh : address ∉ heap) (value : β) :
    Segment ((heap.insert address ⟨value, none⟩).insert last.1
        ⟨last.2, some address⟩) start (cells ++ [last] ++ [(address, value)])
      none := by
  have distinct := segment.nodup
  rw [List.map_append, List.nodup_append] at distinct
  have lastUsed : last.1 ∈ heap :=
    segment.mem_heap (List.mem_append_right _ List.mem_cons_self)
  have apart : address ≠ last.1 := fun same => fresh (same ▸ lastUsed)
  obtain ⟨middle, front, tail⟩ := segment.split
  cases tail with
  | cons found rest =>
      rw [List.append_assoc]
      apply Segment.append
      · apply front.frame
        intro cell member
        have used := segment.mem_heap (List.mem_append_left _ member)
        have notLast := distinct.2.2 _ (List.mem_map_of_mem member) _
          List.mem_cons_self
        have notNew : cell.1 ≠ address := fun same => fresh (same ▸ used)
        rw [Finmap.lookup_insert_of_ne _ notLast,
          Finmap.lookup_insert_of_ne _ notNew]
      · apply Segment.cons (Finmap.lookup_insert _)
        apply Segment.cons
        · rw [Finmap.lookup_insert_of_ne _ apart, Finmap.lookup_insert]
        · exact .nil none

end Segment

/-- Every heap leaves some address. -/
instance {β : Type} : Inhabited (Allocator β) :=
  ⟨{ address := fun heap => heap.keys.sup id + 1
     fresh := by
      intro heap used
      have below : heap.keys.sup id + 1 ≤ heap.keys.sup id :=
        Finset.le_sup (f := id) (Finmap.mem_keys.mpr used)
      exact Nat.not_succ_le_self _ below }⟩

section Walk

variable {β : Type} {heap : Heap β} {start : Pointer}
  {cells : List (Address × β)}

/-- The first node whose value has a property, or NULL. -/
def search (heap : Heap β) (property : β → Bool) :
    Nat → Pointer → Option Pointer
  | _, none => some none
  | 0, some _ => none
  | fuel + 1, some address => do
      let node ← heap.lookup address
      if property node.value then return some address
      else search heap property fuel node.next

/-- The same, with a pointer which follows one node behind. -/
def searchLast (heap : Heap β) (property : β → Bool) :
    Nat → Pointer → Pointer → Option (Pointer × Pointer)
  | _, last, none => some (last, none)
  | 0, _, some _ => none
  | fuel + 1, last, some address => do
      let node ← heap.lookup address
      if property node.value then return (last, some address)
      else searchLast heap property fuel (some address) node.next

/-- Do something for the value of every node, in order.  What is done may fail
in ways of its own. -/
def forEach {m : Type → Type} [Monad m] [MonadLift Option m] {σ : Type}
    (heap : Heap β) (visit : σ → β → m σ) : Nat → Pointer → σ → m σ
  | _, none, state => pure state
  | 0, some _, _ => MonadLift.monadLift (none : Option σ)
  | fuel + 1, some address, state => do
      let node ← MonadLift.monadLift (heap.lookup address)
      let state ← visit state node.value
      forEach heap visit fuel node.next state

def lastNode (heap : Heap β) : Nat → Pointer → Option Pointer
  | _, none => some none
  | 0, some _ => none
  | fuel + 1, some address => do
      let node ← heap.lookup address
      match node.next with
      | some next => lastNode heap fuel (some next)
      | none => return some address

theorem exists_fuel {cell : Address × β} {fuel : Nat}
    (enough : (cell :: cells).length ≤ fuel) :
    ∃ rest, fuel = rest + 1 ∧ cells.length ≤ rest := by
  obtain ⟨rest, rfl⟩ := Nat.exists_eq_succ_of_ne_zero
    (Nat.ne_of_gt (Nat.lt_of_lt_of_le (Nat.succ_pos _) enough))
  exact ⟨rest, rfl, Nat.le_of_succ_le_succ enough⟩

theorem search_eq (segment : Segment heap start cells none)
    (property : β → Bool) {fuel : Nat} (enough : cells.length ≤ fuel) :
    search heap property fuel start =
      some ((cells.find? fun cell => property cell.2).map Prod.fst) := by
  generalize final : (none : Pointer) = stop at segment
  induction segment generalizing fuel with
  | nil =>
      subst final
      rw [search]
      rfl
  | @cons address value next stop cells found _ ih =>
      obtain ⟨fuel, rfl, shorter⟩ := exists_fuel enough
      rw [search, found, Option.bind_eq_bind, Option.bind_some, List.find?_cons]
      cases holds : property value with
      | true => rfl
      | false => exact ih shorter final

theorem searchLast_eq (segment : Segment heap start cells none)
    (property : β → Bool) {fuel : Nat} (enough : cells.length ≤ fuel)
    (last : Pointer) {before after : List (Address × β)}
    {cell : Address × β} (split : cells = before ++ cell :: after)
    (others : ∀ earlier ∈ before, property earlier.2 = false)
    (holds : property cell.2 = true) :
    searchLast heap property fuel last start =
      some ((before.getLast?.map Prod.fst).or last, some cell.1) := by
  induction before generalizing start cells fuel last with
  | nil =>
      subst split
      cases segment with
      | cons found _ =>
          obtain ⟨fuel, rfl, shorter⟩ := exists_fuel enough
          rw [searchLast, found, Option.bind_eq_bind, Option.bind_some,
            if_pos holds]
          rfl
  | cons earlier before ih =>
      subst split
      have passed := others earlier List.mem_cons_self
      cases segment with
      | cons found tail =>
          obtain ⟨fuel, rfl, shorter⟩ := exists_fuel enough
          rw [searchLast, found, Option.bind_eq_bind, Option.bind_some,
            if_neg (by simp [passed]), ih tail shorter
              _ rfl fun other member =>
                others other (List.mem_cons_of_mem _ member)]
          cases before with
          | nil => rfl
          | cons next before => simp [List.getLast?_cons]

theorem searchLast_eq_none (segment : Segment heap start cells none)
    (property : β → Bool) {fuel : Nat} (enough : cells.length ≤ fuel)
    (last : Pointer) (others : ∀ cell ∈ cells, property cell.2 = false) :
    ∃ last', searchLast heap property fuel last start = some (last', none) := by
  generalize final : (none : Pointer) = stop at segment
  induction segment generalizing fuel last with
  | nil =>
      subst final
      exact ⟨last, by rw [searchLast]⟩
  | @cons address value next stop cells found _ ih =>
      have passed := others _ List.mem_cons_self
      obtain ⟨fuel, rfl, shorter⟩ := exists_fuel enough
      rw [searchLast, found, Option.bind_eq_bind, Option.bind_some,
        if_neg (by simp [passed])]
      apply ih shorter _ _ final
      intro cell member
      exact others cell (List.mem_cons_of_mem _ member)

theorem forEach_eq {m : Type → Type} [Monad m] [LawfulMonad m]
    [MonadLift Option m] [LawfulMonadLift Option m] {σ : Type}
    (segment : Segment heap start cells none) (visit : σ → β → m σ)
    {fuel : Nat} (enough : cells.length ≤ fuel) (state : σ) :
    forEach heap visit fuel start state =
      (cells.map Prod.snd).foldlM visit state := by
  generalize final : (none : Pointer) = stop at segment
  induction segment generalizing fuel state with
  | nil =>
      subst final
      rw [forEach]
      rfl
  | @cons address value next stop cells found _ ih =>
      obtain ⟨fuel, rfl, shorter⟩ := exists_fuel enough
      have read : MonadLift.monadLift (some (ListNode.mk value next)) =
          (pure ⟨value, next⟩ : m (ListNode β)) :=
        LawfulMonadLift.monadLift_pure _
      rw [forEach, found, read, pure_bind, List.map_cons, List.foldlM_cons]
      congr 1
      funext state
      exact ih shorter state final

theorem lastNode_eq (segment : Segment heap start cells none) {fuel : Nat}
    (enough : cells.length ≤ fuel) :
    lastNode heap fuel start = some (cells.getLast?.map Prod.fst) := by
  generalize final : (none : Pointer) = stop at segment
  induction segment generalizing fuel with
  | nil =>
      subst final
      rw [lastNode]
      rfl
  | @cons address value next stop cells found tail ih =>
      obtain ⟨fuel, rfl, shorter⟩ := exists_fuel enough
      rw [lastNode, found, Option.bind_eq_bind, Option.bind_some]
      cases tail with
      | nil =>
          subst final
          rfl
      | @cons after value next stop cells found' tail' =>
          have last := ih shorter final
          simp only [List.getLast?_cons_cons]
          exact last

end Walk

end NodeIdentity.Library
