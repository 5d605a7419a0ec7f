import Mathlib.Data.List.Basic

/-!
# Last values in a history

What a variable holds is often what the last event of some kind gave it.
`value` picks those events out of a log and says what they give.
-/

namespace NodeIdentity.Library

universe u v

variable {ο : Type u} {β : Type v}

def lastOf (value : ο → Option β) (log : List ο) : Option β :=
  (log.filterMap value).getLast?

theorem lastOf_append (value : ο → Option β) (first second : List ο) :
    lastOf value (first ++ second) =
      (lastOf value second).or (lastOf value first) := by
  rw [lastOf, List.filterMap_append, List.getLast?_append]
  rfl

theorem lastOf_singleton (value : ο → Option β) (entry : ο) :
    lastOf value [entry] = value entry := by
  rw [lastOf]
  cases given : value entry with
  | none => rw [List.filterMap_cons_none given]; rfl
  | some last => rw [List.filterMap_cons_some given]; rfl

theorem lastOf_snoc (value : ο → Option β) (log : List ο) (entry : ο) :
    lastOf value (log ++ [entry]) = (value entry).or (lastOf value log) := by
  rw [lastOf_append, lastOf_singleton]

theorem lastOf_cons (value : ο → Option β) (entry : ο) (log : List ο) :
    lastOf value (entry :: log) = (lastOf value log).or (value entry) := by
  rw [← List.singleton_append, lastOf_append, lastOf_singleton]

theorem exists_of_lastOf {value : ο → Option β} {log : List ο} {last : β}
    (given : lastOf value log = some last) :
    ∃ entry ∈ log, value entry = some last :=
  List.mem_filterMap.mp (List.mem_of_getLast? given)

theorem exists_lastOf_of_mem {value : ο → Option β} {log : List ο} {entry : ο}
    {given : β} (member : entry ∈ log) (gives : value entry = some given) :
    ∃ last, lastOf value log = some last := by
  have nonempty : log.filterMap value ≠ [] :=
    List.ne_nil_of_mem (List.mem_filterMap.mpr ⟨entry, member, gives⟩)
  exact ⟨_, List.getLast?_eq_getLast_of_ne_nil nonempty⟩

end NodeIdentity.Library
