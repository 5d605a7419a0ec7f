import Mathlib.Data.List.Nodup
import Mathlib.Data.List.Perm.Subperm

/-!
# Descriptors of a process

A process holds no more descriptors than its limit, and opening gives out the
lowest one which is not held.
-/

namespace NodeIdentity.Library

/-- The descriptors which are open. -/
structure Descriptors (limit : Nat) where
  held : List Nat
  nodup : held.Nodup
  below : ∀ descriptor ∈ held, descriptor < limit

namespace Descriptors

variable {limit : Nat} {table next : Descriptors limit} {descriptor : Nat}

def lowest (table : Descriptors limit) : Option Nat :=
  (List.range limit).find? (· ∉ table.held)

theorem lowest_free (found : table.lowest = some descriptor) :
    descriptor ∉ table.held ∧ descriptor < limit := by
  rw [lowest] at found
  constructor
  · have free := List.find?_some found
    exact of_decide_eq_true free
  · exact List.mem_range.mp (List.mem_of_find?_eq_some found)

def allocate (table : Descriptors limit) :
    Option (Nat × Descriptors limit) :=
  match found : table.lowest with
  | none => none
  | some descriptor =>
      some (descriptor,
        { held := descriptor :: table.held
          nodup := table.nodup.cons (lowest_free found).1
          below := List.forall_mem_cons.mpr
            ⟨(lowest_free found).2, table.below⟩ })

def close (table : Descriptors limit) (descriptor : Nat) :
    Descriptors limit :=
  { held := table.held.erase descriptor
    nodup := table.nodup.erase descriptor
    below := fun other member => table.below other (List.mem_of_mem_erase member) }

theorem length_le (table : Descriptors limit) :
    table.held.length ≤ limit := by
  have subset : table.held ⊆ List.range limit := by
    intro descriptor member
    exact List.mem_range.mpr (table.below descriptor member)
  have bound := (table.nodup.subperm subset).length_le
  rwa [List.length_range] at bound

theorem held_allocate (opened : table.allocate = some (descriptor, next)) :
    next.held = descriptor :: table.held := by
  rw [allocate] at opened
  split at opened
  · cases opened
  · cases opened
    rfl

/-- Opening fails when there is no room only. -/
theorem exists_allocate (room : table.held.length < limit) :
    ∃ descriptor next, table.allocate = some (descriptor, next) := by
  rw [allocate]
  split
  · next full =>
      have subset : List.range limit ⊆ table.held := by
        intro descriptor member
        have held := List.find?_eq_none.mp full descriptor member
        exact not_not.mp fun free => held (decide_eq_true free)
      have bound := (List.nodup_range.subperm subset).length_le
      rw [List.length_range] at bound
      exact (Nat.not_lt.mpr bound room).elim
  · exact ⟨_, _, rfl⟩

end Descriptors

end NodeIdentity.Library
