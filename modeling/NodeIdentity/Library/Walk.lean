import Mathlib.Data.Set.Basic
import Mathlib.Data.List.Nodup

/-!
# Walks of a partial function

Following `next` from a place until it gives nothing, with the places passed.
A walk which meets a place again never ends, so a walk that ends has met each
place once; here this is shown by a set the walk cannot leave.
-/

namespace NodeIdentity.Library

universe u v

variable {α : Type u} {β : Type v}

/-- The places from `a` to the end of the walk, if it ends within `fuel`. -/
def walk (next : α → Option α) : Nat → α → Option (List α)
  | 0, _ => none
  | fuel + 1, a =>
      match next a with
      | none => some [a]
      | some b => (walk next fuel b).map (a :: ·)

theorem walk_of_stop {next : α → Option α} {a : α} (stop : next a = none)
    (fuel : Nat) : walk next (fuel + 1) a = some [a] := by
  simp only [walk, stop]

theorem walk_of_move {next : α → Option α} {a b : α} (move : next a = some b)
    (fuel : Nat) :
    walk next (fuel + 1) a = (walk next fuel b).map (a :: ·) := by
  simp only [walk, move]

theorem walk_more {next : α → Option α} {a : α} {path : List α}
    {fuel more : Nat} (walked : walk next fuel a = some path)
    (enough : fuel ≤ more) : walk next more a = some path := by
  induction fuel generalizing a path more with
  | zero => cases walked
  | succ fuel ih =>
      obtain ⟨more, rfl⟩ : ∃ rest, more = rest + 1 := ⟨more - 1, by omega⟩
      cases step : next a with
      | none =>
          rw [walk_of_stop step] at walked ⊢
          exact walked
      | some b =>
          rw [walk_of_move step, Option.map_eq_some_iff] at walked
          obtain ⟨rest, walkedRest, whole⟩ := walked
          rw [walk_of_move step, ih walkedRest (by omega), ← whole]
          rfl

theorem walk_suffix {next : α → Option α} {a b : α} {front back : List α}
    {fuel : Nat} (walked : walk next fuel a = some (front ++ b :: back)) :
    walk next fuel b = some (b :: back) := by
  induction front generalizing a fuel with
  | nil =>
      cases fuel with
      | zero => cases walked
      | succ fuel =>
          have here : a = b := by
            cases step : next a with
            | none =>
                rw [walk_of_stop step] at walked
                exact (List.cons.inj (Option.some.inj walked)).1
            | some c =>
                rw [walk_of_move step, Option.map_eq_some_iff] at walked
                obtain ⟨rest, _, whole⟩ := walked
                exact (List.cons.inj whole).1
          rw [← here]
          rw [← here] at walked
          exact walked
  | cons first front ih =>
      cases fuel with
      | zero => cases walked
      | succ fuel =>
          cases step : next a with
          | none =>
              rw [walk_of_stop step] at walked
              simp at walked
          | some c =>
              rw [walk_of_move step, Option.map_eq_some_iff] at walked
              obtain ⟨rest, walkedRest, whole⟩ := walked
              rw [(List.cons.inj whole).2] at walkedRest
              exact walk_more (ih walkedRest) (by omega)

theorem walk_head {next : α → Option α} {a : α} {path : List α} {fuel : Nat}
    (walked : walk next fuel a = some path) : ∃ rest, path = a :: rest := by
  cases fuel with
  | zero => cases walked
  | succ fuel =>
      cases step : next a with
      | none =>
          rw [walk_of_stop step] at walked
          exact ⟨[], (Option.some.inj walked).symm⟩
      | some b =>
          rw [walk_of_move step, Option.map_eq_some_iff] at walked
          obtain ⟨rest, _, whole⟩ := walked
          exact ⟨rest, whole.symm⟩

/-- A walk which ends meets no place twice: from there it would go on as
before. -/
theorem nodup_of_walk {next : α → Option α} {a : α} {path : List α}
    {fuel : Nat} (walked : walk next fuel a = some path) : path.Nodup := by
  induction fuel generalizing a path with
  | zero => cases walked
  | succ fuel ih =>
      cases step : next a with
      | none =>
          rw [walk_of_stop step] at walked
          cases walked
          exact List.nodup_singleton a
      | some b =>
          have whole := walked
          rw [walk_of_move step, Option.map_eq_some_iff] at walked
          obtain ⟨rest, walkedRest, rfl⟩ := walked
          rw [List.nodup_cons]
          refine ⟨?_, ih walkedRest⟩
          intro again
          obtain ⟨front, back, rfl⟩ := List.append_of_mem again
          have resumed : walk next (fuel + 1) a = some (a :: back) := by
            rw [← List.cons_append] at whole
            exact walk_suffix whole
          have same := congrArg List.length
            (Option.some.inj (whole.symm.trans resumed))
          simp only [List.length_cons, List.length_append] at same
          omega

theorem next_of_walk {next : α → Option α} {a b : α} {path : List α}
    {fuel index : Nat} (walked : walk next fuel a = some path)
    (place : path[index]? = some b) : next b = path[index + 1]? := by
  obtain ⟨below, rfl⟩ := List.getElem?_eq_some_iff.mp place
  have split : path = path.take index ++ path[index] :: path.drop (index + 1) := by
    rw [List.getElem_cons_drop, List.take_append_drop]
  rw [split] at walked
  have resumed := walk_suffix walked
  rw [← List.head?_drop]
  cases fuel with
  | zero => cases resumed
  | succ fuel =>
      cases step : next path[index] with
      | none =>
          rw [walk_of_stop step] at resumed
          rw [← (List.cons.inj (Option.some.inj resumed)).2]
          rfl
      | some c =>
          rw [walk_of_move step, Option.map_eq_some_iff] at resumed
          obtain ⟨rest, walkedRest, whole⟩ := resumed
          obtain ⟨later, rfl⟩ := walk_head walkedRest
          rw [← (List.cons.inj whole).2]
          rfl

/-- A walk never ends in a set which it cannot leave and which has no end. -/
theorem walk_of_closed {next : α → Option α} {S : Set α}
    (closed : ∀ a ∈ S, ∃ b ∈ S, next a = some b) {a : α} (member : a ∈ S)
    (fuel : Nat) : walk next fuel a = none := by
  induction fuel generalizing a with
  | zero => rfl
  | succ fuel ih =>
      obtain ⟨b, inside, move⟩ := closed a member
      rw [walk_of_move move, ih inside, Option.map_none]

/-- Walks are carried along a map which takes steps to steps, on the places
that satisfy an invariant of the walk. -/
theorem walk_image {next : α → Option α} {next' : β → Option β} (f : α → β)
    (Invariant : α → Prop)
    (commutes : ∀ a, Invariant a → (next a).map f = next' (f a))
    (preserved : ∀ a b, Invariant a → next a = some b → Invariant b)
    {a : α} (initial : Invariant a) (fuel : Nat) :
    (walk next fuel a).map (List.map f) = walk next' fuel (f a) := by
  induction fuel generalizing a with
  | zero => rfl
  | succ fuel ih =>
      have moved := commutes a initial
      cases step : next a with
      | none =>
          rw [step, Option.map_none] at moved
          rw [walk_of_stop step, walk_of_stop moved.symm]
          rfl
      | some b =>
          rw [step, Option.map_some] at moved
          rw [walk_of_move step, walk_of_move moved.symm,
            ← ih (preserved a b initial step), Option.map_map, Option.map_map]
          rfl

theorem find?_address_iff {β : Type*} [DecidableEq β] {address : α → β}
    {places : List α} (distinct : (places.map address).Nodup) {key : β}
    {a : α} :
    places.find? (fun b => address b = key) = some a ↔
      a ∈ places ∧ address a = key := by
  constructor
  · intro found
    exact ⟨List.mem_of_find?_eq_some found, by simpa using List.find?_some found⟩
  · rintro ⟨member, rfl⟩
    cases found : places.find? fun b => address b = address a with
    | none =>
        have never := List.find?_eq_none.mp found a member
        simp at never
    | some other =>
        have same : address other = address a := by
          simpa using List.find?_some found
        have here := List.mem_of_find?_eq_some found
        rw [List.inj_on_of_nodup_map distinct here member same]

end NodeIdentity.Library
