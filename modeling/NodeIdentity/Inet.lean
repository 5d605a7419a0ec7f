import Mathlib.Tactic.IntervalCases
import NodeIdentity.Nid

/-!
# Addresses as text

`inet_pton` on the bytes of a C string, as the C library documents it: dotted
quads, and groups of up to four hexadecimal digits, of which one run of zero
groups may be written as two colons and the last two may be a dotted quad.
-/

namespace NodeIdentity

/-- The two separators. -/
def colon : UInt8 := 58

def dot : UInt8 := 46

def decDigit (character : UInt8) : Option Nat :=
  if 48 ≤ character ∧ character ≤ 57 then some (character.toNat - 48) else none

def hexDigit (character : UInt8) : Option Nat :=
  if 97 ≤ character ∧ character ≤ 102 then some (character.toNat - 87)
  else if 65 ≤ character ∧ character ≤ 70 then some (character.toNat - 55)
  else decDigit character

/-- The octets before the current one, and the current one if it has digits. -/
structure Pton4 where
  octets : List UInt8
  current : Option Nat

def inetPton4Loop : List UInt8 → Pton4 → Option Pton4
  | [], s => some s
  | ch :: src, s =>
      match decDigit ch, s.current with
      | some digit, none =>
          if s.octets.length = 4 then none
          else inetPton4Loop src { s with current := some digit }
      | some digit, some value =>
          -- no leading zeros
          if value = 0 ∨ value * 10 + digit > 255 then none
          else inetPton4Loop src { s with current := some (value * 10 + digit) }
      | none, some value =>
          if ch = dot ∧ s.octets.length < 3 then
            inetPton4Loop src ⟨s.octets ++ [UInt8.ofNat value], none⟩
          else none
      | none, none => none

def inetPton4 (src : List UInt8) : Option (List UInt8) :=
  match inetPton4Loop src ⟨[], none⟩ with
  | some ⟨octets, some value⟩ =>
      if octets.length = 3 then some (octets ++ [UInt8.ofNat value]) else none
  | _ => none

/-- The bytes stored, where the two colons were, and the current group. -/
structure Pton6 where
  tmp : List UInt8
  colonp : Option Nat
  val : Nat
  xdigits : Nat

def Pton6.store (s : Pton6) : Option Pton6 :=
  if s.tmp.length + 2 ≤ 16 then
    some
      { s with
        tmp := s.tmp ++ [UInt8.ofNat (s.val / 256), UInt8.ofNat s.val]
        val := 0
        xdigits := 0 }
  else none

/-- `curtok` is the text since the last colon, where a dotted quad begins. -/
def inetPton6Loop (curtok : List UInt8) : List UInt8 → Pton6 → Option Pton6
  | [], s => some s
  | ch :: src, s =>
      match hexDigit ch with
      | some digit =>
          if s.xdigits = 4 then none
          else
            inetPton6Loop curtok src
              { s with val := s.val * 16 + digit, xdigits := s.xdigits + 1 }
      | none =>
          if ch = colon then
            if s.xdigits = 0 then
              if s.colonp.isSome then none
              else inetPton6Loop src src { s with colonp := some s.tmp.length }
            else if src = [] then none
            else
              match s.store with
              | some s => inetPton6Loop src src s
              | none => none
          else if ch = dot ∧ s.tmp.length + 4 ≤ 16 then
            (inetPton4 curtok).map fun octets =>
              { s with tmp := s.tmp ++ octets, xdigits := 0 }
          else none

def Pton6.finish (s : Pton6) : Option (List UInt8) := do
  let s ← if s.xdigits = 0 then some s else s.store
  match s.colonp with
  | some place =>
      if s.tmp.length = 16 then none
      else
        some (s.tmp.take place ++ List.replicate (16 - s.tmp.length) 0 ++
          s.tmp.drop place)
  | none => if s.tmp.length = 16 then some s.tmp else none

def inetPton6 (src : List UInt8) : Option NID := do
  let start : Pton6 := ⟨[], none, 0, 0⟩
  let text ←
    match src with
    | first :: rest =>
        if first = colon then
          if rest.head? = some colon then some rest else none
        else some src
    | [] => some []
  let s ← inetPton6Loop text text start
  let bytes ← s.finish
  return nidCodec.decode bytes

example : inetPton6 [51, 102, 102, 101, 58, 58, 49, 70] =
    some (NID.ofNat (0x3ffe * 2 ^ 112 + 0x1f)) := by decide +kernel

theorem inetPton6_nil : inetPton6 [] = none := rfl

/-- The characters an address can be written with. -/
def AddressChar (character : UInt8) : Prop :=
  (hexDigit character).isSome ∨ character = colon ∨ character = dot

theorem AddressChar.ne {character : UInt8} (address : AddressChar character)
    {other : UInt8} (noDigit : hexDigit other = none) (noColon : other ≠ colon)
    (noDot : other ≠ dot) : character ≠ other := by
  rintro rfl
  rcases address with digit | same | same
  · rw [noDigit] at digit
    cases digit
  · exact noColon same
  · exact noDot same

theorem notMem_of_addressChars {text : List UInt8} {other : UInt8}
    (chars : ∀ character ∈ text, AddressChar character)
    (noDigit : hexDigit other = none) (noColon : other ≠ colon)
    (noDot : other ≠ dot) : other ∉ text :=
  fun member => (chars other member).ne noDigit noColon noDot rfl

theorem addressChar_of_decDigit {character : UInt8} {digit : Nat}
    (decimal : decDigit character = some digit) : AddressChar character := by
  left
  rw [hexDigit]
  split
  · rfl
  · split
    · rfl
    · rw [decimal]
      rfl

theorem inetPton4Loop_chars {src : List UInt8} {s final : Pton4}
    (accepted : inetPton4Loop src s = some final) :
    ∀ character ∈ src, AddressChar character := by
  induction src generalizing s with
  | nil =>
      intro character member
      cases member
  | cons ch src ih =>
      have first : ∀ {next : Pton4}, inetPton4Loop src next = some final →
          AddressChar ch → ∀ character ∈ ch :: src, AddressChar character := by
        intro next rest here character member
        rcases List.mem_cons.mp member with rfl | later
        · exact here
        · exact ih rest character later
      rw [inetPton4Loop] at accepted
      split at accepted
      · next digit _ decimal _ =>
          split at accepted
          · cases accepted
          · exact first accepted (addressChar_of_decDigit decimal)
      · next digit value decimal _ =>
          split at accepted
          · cases accepted
          · exact first accepted (addressChar_of_decDigit decimal)
      · next value _ _ =>
          split at accepted
          · next separator => exact first accepted (.inr (.inr separator.1))
          · cases accepted
      · cases accepted

theorem inetPton4_chars {src octets : List UInt8}
    (accepted : inetPton4 src = some octets) :
    ∀ character ∈ src, AddressChar character := by
  rw [inetPton4] at accepted
  split at accepted
  · next looped => exact inetPton4Loop_chars looped
  · cases accepted

theorem inetPton6Loop_chars {curtok src : List UInt8} {s final : Pton6}
    (accepted : inetPton6Loop curtok src s = some final)
    (inside : ∀ character ∈ src, character ∈ curtok) :
    ∀ character ∈ src, AddressChar character := by
  induction src generalizing curtok s with
  | nil =>
      intro character member
      cases member
  | cons ch src ih =>
      have first : ∀ {curtok : List UInt8} {next : Pton6},
          inetPton6Loop curtok src next = some final →
          (∀ character ∈ src, character ∈ curtok) → AddressChar ch →
          ∀ character ∈ ch :: src, AddressChar character := by
        intro curtok next rest inside here character member
        rcases List.mem_cons.mp member with rfl | later
        · exact here
        · exact ih rest inside character later
      have tail : ∀ character ∈ src, character ∈ curtok :=
        fun character member => inside character (List.mem_cons_of_mem ch member)
      rw [inetPton6Loop] at accepted
      split at accepted
      · next digit hex =>
          split at accepted
          · cases accepted
          · exact first accepted tail (.inl (by rw [hex]; rfl))
      · split at accepted
        · next separator =>
            have here : AddressChar ch := .inr (.inl separator)
            split at accepted
            · split at accepted
              · cases accepted
              · exact first accepted (fun _ member => member) here
            · split at accepted
              · cases accepted
              · split at accepted
                · exact first accepted (fun _ member => member) here
                · cases accepted
        · split at accepted
          · obtain ⟨octets, quad, _⟩ := Option.map_eq_some_iff.mp accepted
            intro character member
            exact inetPton4_chars quad character (inside character member)
          · cases accepted

theorem inetPton6_chars {src : List UInt8} {nid : NID}
    (accepted : inetPton6 src = some nid) :
    ∀ character ∈ src, AddressChar character := by
  have looped : ∀ text, ((inetPton6Loop text text ⟨[], none, 0, 0⟩).bind
      fun s => s.finish.bind fun bytes => some (nidCodec.decode bytes)) =
        some nid → ∀ character ∈ text, AddressChar character := by
    intro text result
    obtain ⟨s, looped, _⟩ := Option.bind_eq_some_iff.mp result
    exact inetPton6Loop_chars looped fun _ member => member
  cases src with
  | nil =>
      intro character member
      cases member
  | cons first rest =>
      simp only [inetPton6, Option.bind_eq_bind, Option.pure_def] at accepted
      split at accepted
      · next leading =>
          split at accepted
          · have chars := looped rest accepted
            intro character member
            rcases List.mem_cons.mp member with rfl | later
            · exact .inr (.inl leading)
            · exact chars character later
          · cases accepted
      · exact looped (first :: rest) accepted

/-- The decimal digits of a byte. -/
def decimal (octet : UInt8) : List UInt8 :=
  let digit (value : Nat) : UInt8 := UInt8.ofNat (48 + value)
  let value := octet.toNat
  if value < 10 then [digit value]
  else if value < 100 then [digit (value / 10), digit (value % 10)]
  else [digit (value / 100), digit (value / 10 % 10), digit (value % 10)]

/-- `inet_ntop` for four bytes. -/
def inetNtop4 (address : NID32) : List UInt8 :=
  decimal address[0] ++ dot :: (decimal address[1] ++ dot ::
    (decimal address[2] ++ dot :: decimal address[3]))

/-- The hexadecimal digits of a group. -/
def hexadecimal (group : Nat) : List UInt8 :=
  (Nat.toDigits 16 group).map fun character => UInt8.ofNat character.toNat

/-- `inet_ntop` for sixteen bytes: the first of the longest runs of zero groups
becomes two colons, and an address which embeds four bytes ends with them. -/
def inetNtop6 (nid : NID) : List UInt8 :=
  let groups := (List.range 8).map fun index =>
    (nid.toList.getD (2 * index) 0).toNat * 256 +
      (nid.toList.getD (2 * index + 1) 0).toNat
  let run (start : Nat) := ((groups.drop start).takeWhile (· = 0)).length
  let base := (List.range 8).foldl
    (fun best start => if run best < run start then start else best) 0
  let join (texts : List (List UInt8)) := [colon].intercalate texts
  if run base < 2 then join (groups.map hexadecimal)
  else
    let behind := (groups.drop (base + run base)).map hexadecimal
    let embeds := base = 0 ∧
      (run base = 6 ∨ run base = 5 ∧ groups.getD 5 0 = 0xffff)
    let behind :=
      if embeds then
        behind.take (behind.length - 2) ++
          [inetNtop4 (nid32Codec.decode (nid.toList.drop 12))]
      else behind
    join ((groups.take base).map hexadecimal) ++ [colon, colon] ++ join behind

example : inetNtop6 (NID.ofNat (0x3ffe * 2 ^ 112 + 0x1f)) =
    [51, 102, 102, 101, 58, 58, 49, 102] := by decide +kernel

theorem decDigit_ofNat {value : Nat} (small : value < 10) :
    decDigit (UInt8.ofNat (48 + value)) = some value := by
  have number : (UInt8.ofNat (48 + value)).toNat = 48 + value := by
    rw [UInt8.toNat_ofNat']
    omega
  have inRange : 48 ≤ UInt8.ofNat (48 + value) ∧
      UInt8.ofNat (48 + value) ≤ 57 := by
    rw [UInt8.le_iff_toNat_le, UInt8.le_iff_toNat_le, number]
    exact ⟨Nat.le_add_right 48 value, show 48 + value ≤ 57 by omega⟩
  rw [decDigit, if_pos inRange, number, Nat.add_sub_cancel_left]

theorem inetPton4Loop_first {value : Nat} (small : value < 10)
    (src octets : List UInt8) (room : octets.length ≠ 4) :
    inetPton4Loop (UInt8.ofNat (48 + value) :: src) ⟨octets, none⟩ =
      inetPton4Loop src ⟨octets, some value⟩ := by
  rw [inetPton4Loop, decDigit_ofNat small]
  exact if_neg room

theorem inetPton4Loop_next {before value : Nat} (small : value < 10)
    (positive : 0 < before) (below : before * 10 + value ≤ 255)
    (src octets : List UInt8) :
    inetPton4Loop (UInt8.ofNat (48 + value) :: src) ⟨octets, some before⟩ =
      inetPton4Loop src ⟨octets, some (before * 10 + value)⟩ := by
  rw [inetPton4Loop, decDigit_ofNat small]
  exact if_neg (by omega)

theorem inetPton4Loop_decimal (octet : UInt8) (src octets : List UInt8)
    (room : octets.length ≠ 4) :
    inetPton4Loop (decimal octet ++ src) ⟨octets, none⟩ =
      inetPton4Loop src ⟨octets, some octet.toNat⟩ := by
  have below := octet.toNat_lt
  rw [decimal]
  generalize octet.toNat = value at below
  by_cases one : value < 10
  · simp only [if_pos one, List.cons_append, List.nil_append]
    exact inetPton4Loop_first one src octets room
  · by_cases two : value < 100
    · have whole : value / 10 * 10 + value % 10 = value := by omega
      simp only [if_neg one, if_pos two, List.cons_append, List.nil_append]
      rw [inetPton4Loop_first (by omega) _ _ room,
        inetPton4Loop_next (by omega) (by omega) (by omega), whole]
    · have front : value / 100 * 10 + value / 10 % 10 = value / 10 := by omega
      have whole : value / 10 * 10 + value % 10 = value := by omega
      simp only [if_neg one, if_neg two, List.cons_append, List.nil_append]
      rw [inetPton4Loop_first (by omega) _ _ room,
        inetPton4Loop_next (by omega) (by omega) (by omega), front,
        inetPton4Loop_next (by omega) (by omega) (by omega), whole]

theorem inetPton4Loop_dot (value : Nat) (src octets : List UInt8)
    (room : octets.length < 3) :
    inetPton4Loop (dot :: src) ⟨octets, some value⟩ =
      inetPton4Loop src ⟨octets ++ [UInt8.ofNat value], none⟩ := by
  have noDigit : decDigit dot = none := rfl
  rw [inetPton4Loop, noDigit]
  exact if_pos ⟨rfl, room⟩

theorem inetPton4_inetNtop4 (address : NID32) :
    inetPton4 (inetNtop4 address) = some address.toList := by
  have quad : address.toList =
      [address[0], address[1], address[2], address[3]] := by
    apply List.ext_getElem
    · simp
    · intro index here _
      have short : index < 4 := by simpa using here
      interval_cases index <;> simp
  have last : decimal address[3] = decimal address[3] ++ [] :=
    (List.append_nil _).symm
  have looped : inetPton4Loop (inetNtop4 address) ⟨[], none⟩ =
      some ⟨[address[0], address[1], address[2]], some address[3].toNat⟩ := by
    rw [inetNtop4, last, inetPton4Loop_decimal _ _ _ (by decide),
      inetPton4Loop_dot _ _ _ (by decide),
      inetPton4Loop_decimal _ _ _ (by simp),
      inetPton4Loop_dot _ _ _ (by simp),
      inetPton4Loop_decimal _ _ _ (by simp),
      inetPton4Loop_dot _ _ _ (by simp),
      inetPton4Loop_decimal _ _ _ (by simp)]
    simp [inetPton4Loop]
  rw [inetPton4, looped, quad]
  simp

theorem length_decimal (octet : UInt8) : (decimal octet).length ≤ 3 := by
  simp only [decimal]
  split
  · simp
  · split
    · simp
    · simp

theorem length_inetNtop4 (address : NID32) :
    (inetNtop4 address).length ≤ 15 := by
  have first := length_decimal address[0]
  have second := length_decimal address[1]
  have third := length_decimal address[2]
  have fourth := length_decimal address[3]
  simp only [inetNtop4, List.length_append, List.length_cons]
  omega

theorem inetPton4Loop_append (first second : List UInt8) (s : Pton4) :
    inetPton4Loop (first ++ second) s =
      (inetPton4Loop first s).bind (inetPton4Loop second) := by
  induction first generalizing s with
  | nil => rfl
  | cons ch first ih =>
      rw [List.cons_append, inetPton4Loop, inetPton4Loop]
      split
      · split
        · rfl
        · exact ih _
      · split
        · rfl
        · exact ih _
      · split
        · exact ih _
        · rfl
      · rfl

/-- Behind the last octet there can only be more of its digits, and each makes
it larger. -/
theorem inetPton4Loop_grows {src octets : List UInt8} {value : Nat}
    {final : Pton4} (full : octets.length = 3)
    (accepted : inetPton4Loop src ⟨octets, some value⟩ = some final) :
    ∃ last, final = ⟨octets, some last⟩ ∧ value ≤ last ∧
      (src ≠ [] → value < last ∧ last ≤ 255) := by
  induction src generalizing value with
  | nil => exact ⟨value, (Option.some.inj accepted).symm, le_rfl, by simp⟩
  | cons ch src ih =>
      rw [inetPton4Loop] at accepted
      cases digit : decDigit ch with
      | none =>
          simp only [digit] at accepted
          rw [if_neg (by omega)] at accepted
          cases accepted
      | some digit =>
          simp only [digit] at accepted
          split at accepted
          · cases accepted
          · next grows =>
              obtain ⟨positive, small⟩ := not_or.mp grows
              obtain ⟨last, whole, larger, rest⟩ := ih accepted
              refine ⟨last, whole, by omega, fun _ => ⟨by omega, ?_⟩⟩
              by_cases ended : src = []
              · subst ended
                cases accepted
                cases whole
                omega
              · exact (rest ended).2

theorem inetPton4_extend {src rest octets : List UInt8}
    (accepted : inetPton4 src = some octets) (more : rest ≠ []) :
    inetPton4 (src ++ rest) ≠ some octets := by
  intro same
  unfold inetPton4 at accepted same
  split at accepted
  · next front value looped =>
      obtain ⟨full, whole⟩ := Option.ite_none_right_eq_some.mp accepted
      rw [inetPton4Loop_append, looped, Option.bind_some] at same
      split at same
      · next longer =>
          obtain ⟨last, result, _, grown⟩ := inetPton4Loop_grows full longer
          obtain ⟨larger, small⟩ := grown more
          cases result
          rw [if_pos full, ← whole] at same
          have octet := List.singleton_injective
            (List.append_cancel_left (Option.some.inj same))
          have numbers := congrArg UInt8.toNat octet
          rw [UInt8.toNat_ofNat', UInt8.toNat_ofNat'] at numbers
          omega
      · cases same
  · cases accepted

theorem length_inetPton4 {src octets : List UInt8}
    (accepted : inetPton4 src = some octets) : octets.length = 4 := by
  unfold inetPton4 at accepted
  split at accepted
  · obtain ⟨full, whole⟩ := Option.ite_none_right_eq_some.mp accepted
    rw [← Option.some.inj whole, List.length_append, full]
    rfl
  · cases accepted

theorem AddressChar.toNat_lt {character : UInt8}
    (address : AddressChar character) : character.toNat < 128 := by
  by_contra large
  have high : ∀ bound : UInt8, bound.toNat < 128 → ¬ character ≤ bound := by
    intro bound small below
    exact large ((UInt8.le_iff_toNat_le.mp below).trans_lt small)
  rcases address with digit | same | same
  · rw [hexDigit, if_neg fun range => high 102 (by decide) range.2,
      if_neg fun range => high 70 (by decide) range.2, decDigit,
      if_neg fun range => high 57 (by decide) range.2] at digit
    cases digit
  · exact high colon (by decide) (by rw [same]; decide)
  · exact high dot (by decide) (by rw [same]; decide)

theorem inetNtop4_chars (address : NID32) :
    ∀ character ∈ inetNtop4 address, AddressChar character :=
  inetPton4_chars (inetPton4_inetNtop4 address)

theorem mem_toDigits {base number : Nat} (large : 1 < base) {character : Char}
    (member : character ∈ Nat.toDigits base number) :
    ∃ digit, digit < base ∧ character = Nat.digitChar digit := by
  induction number using Nat.strongRecOn with
  | ind number ih =>
      rw [Nat.toDigits_eq_if large] at member
      split at member
      · next small => exact ⟨number, small, List.mem_singleton.mp member⟩
      · next rest =>
          rcases List.mem_append.mp member with front | last
          · have positive : 0 < number := by omega
            exact ih (number / base) (Nat.div_lt_self positive large) front
          · exact ⟨number % base, Nat.mod_lt _ (by omega),
              List.mem_singleton.mp last⟩

theorem hexadecimal_hexDigits (group : Nat) :
    ∀ character ∈ hexadecimal group, (hexDigit character).isSome := by
  intro character member
  obtain ⟨digit, inDigits, rfl⟩ := List.mem_map.mp member
  obtain ⟨value, small, rfl⟩ := mem_toDigits (by decide) inDigits
  interval_cases value <;> decide

theorem hexadecimal_chars (group : Nat) :
    ∀ character ∈ hexadecimal group, AddressChar character := by
  intro character member
  exact .inl (hexadecimal_hexDigits group character member)

theorem length_hexadecimal {group : Nat} (word : group < 65536) :
    (hexadecimal group).length ≤ 4 := by
  rw [hexadecimal, List.length_map]
  exact (Nat.length_toDigits_le_iff (by decide) (by decide)).mpr word

/-- A piece of an address: a group or a dotted quad. -/
structure AddressText (width : Nat) (text : List UInt8) : Prop where
  chars : ∀ character ∈ text, AddressChar character
  short : text.length ≤ width

theorem AddressText.mono {width wider : Nat} {text : List UInt8}
    (piece : AddressText width text) (order : width ≤ wider) :
    AddressText wider text :=
  ⟨piece.chars, piece.short.trans order⟩

theorem addressText_join {width : Nat} {texts : List (List UInt8)}
    (pieces : ∀ text ∈ texts, AddressText width text) :
    AddressText (texts.length * (width + 1)) ([colon].intercalate texts) := by
  induction texts with
  | nil => exact ⟨by simp, by simp⟩
  | cons text texts ih =>
      have first := pieces text List.mem_cons_self
      have rest := ih fun other member =>
        pieces other (List.mem_cons_of_mem text member)
      cases texts with
      | nil =>
          rw [List.intercalate_singleton]
          refine ⟨first.chars, first.short.trans ?_⟩
          simp
      | cons next texts =>
          rw [List.intercalate_cons_cons]
          constructor
          · intro character member
            rcases List.mem_append.mp member with front | behind
            · rcases List.mem_append.mp front with here | separator
              · exact first.chars character here
              · exact .inr (.inl (List.mem_singleton.mp separator))
            · exact rest.chars character behind
          · have bound := rest.short
            have here := first.short
            rw [List.length_cons, Nat.succ_mul, List.length_append,
              List.length_append, List.length_singleton]
            omega

theorem addressText_halves (width : Nat) {front behind : List (List UInt8)}
    (pieces : ∀ text ∈ front ++ behind, AddressText width text)
    (few : (front.length + behind.length) * (width + 1) ≤ 43) :
    AddressText 45 ([colon].intercalate front ++ [colon, colon] ++
      [colon].intercalate behind) := by
  have left := addressText_join fun text member =>
    pieces text (List.mem_append_left behind member)
  have right := addressText_join fun text member =>
    pieces text (List.mem_append_right front member)
  constructor
  · intro character member
    rcases List.mem_append.mp member with before | after
    · rcases List.mem_append.mp before with first | separator
      · exact left.chars character first
      · have same : character = colon := by simpa using separator
        exact .inr (.inl same)
    · exact right.chars character after
  · have leftShort := left.short
    have rightShort := right.short
    rw [Nat.add_mul] at few
    rw [List.length_append, List.length_append, List.length_cons,
      List.length_singleton]
    omega

/-- The text of a NID fits where `INET6_ADDRSTRLEN` leaves room for it. -/
theorem addressText_inetNtop6 (nid : NID) :
    AddressText 45 (inetNtop6 nid) := by
  simp only [inetNtop6]
  have group_lt : ∀ group ∈ (List.range 8).map fun index =>
      (nid.toList.getD (2 * index) 0).toNat * 256 +
        (nid.toList.getD (2 * index + 1) 0).toNat, group < 65536 := by
    intro group member
    obtain ⟨index, _, rfl⟩ := List.mem_map.mp member
    have high := (nid.toList.getD (2 * index) 0).toNat_lt
    have low := (nid.toList.getD (2 * index + 1) 0).toNat_lt
    omega
  have count : ((List.range 8).map fun index =>
      (nid.toList.getD (2 * index) 0).toNat * 256 +
        (nid.toList.getD (2 * index + 1) 0).toNat).length = 8 := by simp
  generalize (List.range 8).map (fun index =>
    (nid.toList.getD (2 * index) 0).toNat * 256 +
      (nid.toList.getD (2 * index + 1) 0).toNat) = groups at group_lt count ⊢
  generalize (List.range 8).foldl _ 0 = base
  generalize ((groups.drop base).takeWhile (· = 0)).length = run
  have pieces : ∀ part : List Nat, (∀ group ∈ part, group ∈ groups) →
      ∀ text ∈ part.map hexadecimal, AddressText 4 text := by
    intro part inside text member
    obtain ⟨group, here, rfl⟩ := List.mem_map.mp member
    exact ⟨hexadecimal_chars group,
      length_hexadecimal (group_lt group (inside group here))⟩
  split
  · have whole := addressText_join (pieces groups fun _ member => member)
    apply whole.mono
    rw [List.length_map, count]
    decide
  · have front := pieces (groups.take base) fun _ => List.mem_of_mem_take
    have behind := pieces (groups.drop (base + run)) fun _ => List.mem_of_mem_drop
    have length : ((groups.drop (base + run)).map hexadecimal).length =
        8 - (base + run) := by
      rw [List.length_map, List.length_drop, count]
    split
    · next embeds =>
      -- one group at most, and the quad
      obtain ⟨first, zeros⟩ := embeds
      have five : 5 ≤ run := by
        rcases zeros with six | ⟨five, _⟩
        · omega
        · exact five.ge
      subst first
      apply addressText_halves 15
      · intro text member
        rw [List.take_zero, List.map_nil, List.nil_append] at member
        rcases List.mem_append.mp member with group | quad
        · exact (behind text (List.mem_of_mem_take group)).mono (by decide)
        · rw [List.mem_singleton.mp quad]
          exact ⟨inetNtop4_chars _, length_inetNtop4 _⟩
      · rw [List.take_zero, List.map_nil, List.length_nil, List.length_append,
          List.length_take, length, List.length_singleton]
        omega
    · apply addressText_halves 4
      · intro text member
        rcases List.mem_append.mp member with before | after
        · exact front text before
        · exact behind text after
      · rw [length, List.length_map, List.length_take, count]
        omega

theorem AddressText.ne_zero {width : Nat} {text : List UInt8}
    (piece : AddressText width text) : ∀ character ∈ text, character ≠ 0 := by
  intro character member
  exact (piece.chars character member).ne rfl (by decide) (by decide)

end NodeIdentity
