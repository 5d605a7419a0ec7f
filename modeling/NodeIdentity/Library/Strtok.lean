import Mathlib.Data.List.TakeWhile
import Mathlib.Logic.Function.Iterate

/-!
# Strings of fields

`strtok` as the C library documents it, on the part of the string which is
left.  The calls return the tokens of the string one by one, and these are the
fields between the delimiters which are not empty.
-/

namespace NodeIdentity.Library

variable {α : Type*}

/-- The fields, with a delimiter behind each of them. -/
def delimited (delimiter : α) (fields : List (List α)) : List α :=
  fields.flatMap fun field => field ++ [delimiter]

theorem delimited_append (delimiter : α) (first second : List (List α)) :
    delimited delimiter (first ++ second) =
      delimited delimiter first ++ delimited delimiter second :=
  List.flatMap_append

theorem delimited_cons (delimiter : α) (field : List α)
    (fields : List (List α)) :
    delimited delimiter (field :: fields) =
      field ++ delimiter :: delimited delimiter fields := by
  rw [delimited, List.flatMap_cons, List.append_assoc]
  rfl

theorem intercalate_concat (delimiter : α) (fields : List (List α))
    (last : List α) :
    [delimiter].intercalate (fields ++ [last]) =
      delimited delimiter fields ++ last := by
  induction fields with
  | nil => rw [List.nil_append, List.intercalate_singleton]; rfl
  | cons field fields ih =>
      obtain ⟨next, rest, split⟩ :=
        List.exists_cons_of_ne_nil (List.concat_ne_nil last fields)
      rw [List.cons_append, split, List.intercalate_cons_cons, ← split, ih,
        delimited_cons, List.append_assoc, List.append_assoc]
      rfl

theorem delimited_of_ne_nil (delimiter : α) {fields : List (List α)}
    (nonempty : fields ≠ []) :
    delimited delimiter fields =
      [delimiter].intercalate fields ++ [delimiter] := by
  rcases List.eq_nil_or_concat fields with rfl | ⟨front, last, rfl⟩
  · exact (nonempty rfl).elim
  · rw [List.concat_eq_append, intercalate_concat, delimited_append,
      delimited_cons, List.append_assoc]
    rfl

theorem getElem?_filter_nonempty {fields : List (List α)} {index : Nat}
    (nonempty : [] ∉ fields.take (index + 1)) :
    (fields.filter (· ≠ []))[index]? = fields[index]? := by
  induction fields generalizing index with
  | nil => rfl
  | cons field fields ih =>
      rw [List.take_succ_cons, List.mem_cons, not_or] at nonempty
      obtain ⟨here, others⟩ := nonempty
      have kept : (field :: fields).filter (· ≠ []) =
          field :: fields.filter (· ≠ []) :=
        List.filter_cons_of_pos (decide_eq_true (Ne.symm here))
      rw [kept]
      cases index with
      | zero => rfl
      | succ index => exact ih others

variable [DecidableEq α]

/-- The next token and what `strtok` goes on with: the delimiters in front of
the token are skipped, and the one behind it is passed. -/
def strtok (delimiter : α) (str : List α) : Option (List α) × List α :=
  let str := str.dropWhile (· = delimiter)
  if str.isEmpty then (none, [])
  else
    (some (str.takeWhile (· ≠ delimiter)),
      (str.dropWhile (· ≠ delimiter)).drop 1)

/-- The fields between the delimiters, without the empty ones. -/
def tokens (delimiter : α) (str : List α) : List (List α) :=
  (str.splitOn delimiter).filter (· ≠ [])

@[simp]
theorem tokens_nil (delimiter : α) : tokens delimiter [] = [] := by
  simp [tokens, List.splitOn_nil]

theorem tokens_append_cons (delimiter : α) (front rest : List α) :
    tokens delimiter (front ++ delimiter :: rest) =
      tokens delimiter front ++ tokens delimiter rest := by
  rw [tokens, List.splitOn_append_cons_self, List.filter_append]
  rfl

theorem tokens_cons_delimiter (delimiter : α) (str : List α) :
    tokens delimiter (delimiter :: str) = tokens delimiter str := by
  have split := tokens_append_cons delimiter [] str
  rw [tokens_nil, List.nil_append, List.nil_append] at split
  exact split

theorem tokens_field {delimiter : α} {field : List α}
    (clean : delimiter ∉ field) :
    tokens delimiter field = [field].filter (· ≠ []) := by
  rw [tokens, List.splitOn_eq_singleton clean]

theorem tokens_delimited {delimiter : α} {fields : List (List α)}
    (clean : ∀ field ∈ fields, delimiter ∉ field) :
    tokens delimiter (delimited delimiter fields) =
      fields.filter (· ≠ []) := by
  induction fields with
  | nil => exact tokens_nil delimiter
  | cons field fields ih =>
      obtain ⟨here, others⟩ := List.forall_mem_cons.mp clean
      rw [delimited_cons, tokens_append_cons, tokens_field here, ih others,
        ← List.filter_append, List.singleton_append]

theorem tokens_intercalate {delimiter : α} {fields : List (List α)}
    (clean : ∀ field ∈ fields, delimiter ∉ field) :
    tokens delimiter ([delimiter].intercalate fields) =
      fields.filter (· ≠ []) := by
  cases fields with
  | nil => exact tokens_nil delimiter
  | cons field fields =>
      rw [tokens, List.splitOn_intercalate delimiter clean
        (List.cons_ne_nil field fields)]

theorem strtok_cons_delimiter (delimiter : α) (str : List α) :
    strtok delimiter (delimiter :: str) = strtok delimiter str := by
  simp only [strtok, List.dropWhile_cons, decide_true, if_true]

theorem strtok_cons {delimiter character : α} (other : character ≠ delimiter)
    (str : List α) :
    strtok delimiter (character :: str) =
      (some ((character :: str).takeWhile (· ≠ delimiter)),
        ((character :: str).dropWhile (· ≠ delimiter)).drop 1) := by
  have start : (character :: str).dropWhile (· = delimiter) =
      character :: str := by
    rw [List.dropWhile_cons, if_neg (by simpa using other)]
  simp only [strtok, start]
  rw [if_neg (by simp)]

theorem tokens_span (delimiter : α) (str : List α)
    (nonempty : str.takeWhile (· ≠ delimiter) ≠ []) :
    tokens delimiter str = str.takeWhile (· ≠ delimiter) ::
      tokens delimiter ((str.dropWhile (· ≠ delimiter)).drop 1) := by
  have clean : delimiter ∉ str.takeWhile (· ≠ delimiter) := by
    intro member
    have different := List.mem_takeWhile_imp member
    exact of_decide_eq_true different rfl
  have first : tokens delimiter (str.takeWhile (· ≠ delimiter)) =
      [str.takeWhile (· ≠ delimiter)] := by
    rw [tokens_field clean]
    exact List.filter_cons_of_pos (decide_eq_true nonempty)
  have whole := List.takeWhile_append_dropWhile
    (p := (· ≠ delimiter)) (l := str)
  generalize str.takeWhile (· ≠ delimiter) = field at first whole
  cases behind : str.dropWhile (· ≠ delimiter) with
  | nil =>
      rw [behind, List.append_nil] at whole
      rw [← whole, first, List.drop_nil, tokens_nil]
  | cons character rest =>
      have stops := List.head_dropWhile_not (p := (· ≠ delimiter)) (l := str)
        (by rw [behind]; exact List.cons_ne_nil _ _)
      simp only [behind, List.head_cons, decide_eq_false_iff_not, not_not] at stops
      rw [behind, stops] at whole
      rw [← whole, tokens_append_cons, first]
      rfl

theorem strtok_tokens (delimiter : α) (str : List α) :
    (strtok delimiter str).1 = (tokens delimiter str).head? ∧
      tokens delimiter (strtok delimiter str).2 =
        (tokens delimiter str).tail := by
  induction str with
  | nil => simp [strtok]
  | cons character str ih =>
      by_cases same : character = delimiter
      · subst same
        rw [strtok_cons_delimiter, tokens_cons_delimiter]
        exact ih
      · have nonempty : (character :: str).takeWhile (· ≠ delimiter) ≠ [] := by
          rw [List.takeWhile_cons, if_pos (decide_eq_true same)]
          exact List.cons_ne_nil _ _
        rw [strtok_cons same, tokens_span delimiter _ nonempty]
        exact ⟨rfl, rfl⟩

theorem strtok_iterate (delimiter : α) (count : Nat) (str : List α) :
    (strtok delimiter
        ((fun str => (strtok delimiter str).2)^[count] str)).1 =
      (tokens delimiter str)[count]? := by
  obtain ⟨first, others⟩ := strtok_tokens delimiter str
  induction count generalizing str with
  | zero => rw [Function.iterate_zero_apply, first, List.head?_eq_getElem?]
  | succ count ih =>
      obtain ⟨second, rest⟩ := strtok_tokens delimiter (strtok delimiter str).2
      rw [Function.iterate_succ_apply, ih _ second rest, others,
        List.getElem?_tail]

end NodeIdentity.Library
