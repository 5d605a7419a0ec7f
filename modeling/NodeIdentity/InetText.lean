import NodeIdentity.Library.Strtok
import NodeIdentity.Library.WireFormat
import NodeIdentity.Inet

/-!
# Reading an address back

`inet_ntop` writes the sixteen bytes of a NID so that `inet_pton` reads the same
bytes: the groups in front of the zeros which are left out, and those behind.
-/

namespace NodeIdentity

open NodeIdentity.Library

/-- The bytes of several groups. -/
def groupBytes (groups : List Nat) : List UInt8 :=
  groups.flatMap WireFormat.word16.encode

theorem groupBytes_append (first second : List Nat) :
    groupBytes (first ++ second) = groupBytes first ++ groupBytes second :=
  List.flatMap_append

theorem groupBytes_singleton (group : Nat) :
    groupBytes [group] = WireFormat.word16.encode group := by
  rw [groupBytes, List.flatMap_singleton]

theorem length_groupBytes (groups : List Nat) :
    (groupBytes groups).length = 2 * groups.length := by
  induction groups with
  | nil => rfl
  | cons group groups ih =>
      rw [← List.singleton_append, groupBytes_append, List.length_append, ih,
        groupBytes_singleton, List.length_append, Nat.mul_add]
      rfl

theorem groupBytes_zeros (count : Nat) :
    groupBytes (List.replicate count 0) = List.replicate (2 * count) 0 := by
  induction count with
  | zero => rfl
  | succ count ih =>
      rw [List.replicate_succ', groupBytes_append, ih, groupBytes_singleton,
        Nat.mul_succ, List.replicate_add]
      rfl

/-- The group at an index, as `inet_ntop` puts it together. -/
def groupAt (bytes : List UInt8) (index : Nat) : Nat :=
  (bytes.getD (2 * index) 0).toNat * 256 +
    (bytes.getD (2 * index + 1) 0).toNat

theorem groupAt_lt (bytes : List UInt8) (index : Nat) :
    groupAt bytes index < 65536 := by
  have high := (bytes.getD (2 * index) 0).toNat_lt
  have low := (bytes.getD (2 * index + 1) 0).toNat_lt
  rw [groupAt]
  omega

/-- The groups of an even number of bytes have these bytes. -/
theorem groupBytes_range {bytes : List UInt8} {count : Nat}
    (length : bytes.length = 2 * count) :
    groupBytes ((List.range count).map (groupAt bytes)) = bytes := by
  induction count generalizing bytes with
  | zero => exact (List.length_eq_zero_iff.mp length).symm
  | succ count ih =>
      match bytes with
      | high :: low :: bytes =>
          have rest : groupBytes ((List.range count).map (groupAt bytes)) =
              bytes := ih (by
            rw [List.length_cons, List.length_cons] at length
            omega)
          have later : (List.range count).map
              (groupAt (high :: low :: bytes) ∘ Nat.succ) =
                (List.range count).map (groupAt bytes) := by
            apply List.map_congr_left
            intro index _
            rfl
          rw [List.range_succ_eq_map, List.map_cons, List.map_map, later,
            ← List.singleton_append, groupBytes_append, rest,
            groupBytes_singleton]
          exact congrArg (· ++ bytes) (WireFormat.encode_word16 high low)

theorem hexDigit_digitChar {digit : Nat} (small : digit < 16) :
    hexDigit (UInt8.ofNat (Nat.digitChar digit).toNat) = some digit := by
  interval_cases digit <;> rfl

theorem hexadecimal_eq (group : Nat) :
    hexadecimal group =
      (if group < 16 then [] else hexadecimal (group / 16)) ++
        [UInt8.ofNat (Nat.digitChar (group % 16)).toNat] := by
  rw [hexadecimal, Nat.toDigits_eq_if (by decide)]
  split
  · next small => rw [Nat.mod_eq_of_lt small]; rfl
  · rw [List.map_append, ← hexadecimal]
    rfl

theorem length_hexadecimal_pos (group : Nat) :
    0 < (hexadecimal group).length := by
  rw [hexadecimal_eq, List.length_append, List.length_singleton]
  exact Nat.succ_pos _

theorem inetPton6Loop_digit {ch : UInt8} {digit : Nat}
    (hex : hexDigit ch = some digit) {count : Nat} (few : count ≠ 4)
    (curtok src tmp : List UInt8) (colonp : Option Nat) (value : Nat) :
    inetPton6Loop curtok (ch :: src) ⟨tmp, colonp, value, count⟩ =
      inetPton6Loop curtok src ⟨tmp, colonp, value * 16 + digit, count + 1⟩ := by
  rw [inetPton6Loop, hex]
  exact if_neg few

theorem inetPton6Loop_hexadecimal {group : Nat} (word : group < 65536)
    (curtok src tmp : List UInt8) (colonp : Option Nat) :
    inetPton6Loop curtok (hexadecimal group ++ src) ⟨tmp, colonp, 0, 0⟩ =
      inetPton6Loop curtok src
        ⟨tmp, colonp, group, (hexadecimal group).length⟩ := by
  induction group using Nat.strongRecOn generalizing src with
  | ind group ih =>
      have digit := hexDigit_digitChar (Nat.mod_lt group (show 0 < 16 by decide))
      rw [hexadecimal_eq]
      by_cases small : group < 16
      · rw [if_pos small, List.nil_append, List.singleton_append,
          inetPton6Loop_digit digit (by decide), Nat.mod_eq_of_lt small]
        simp
      · have shorter : (hexadecimal (group / 16)).length ≤ 3 := by
          rw [hexadecimal, List.length_map]
          exact (Nat.length_toDigits_le_iff (by decide) (by decide)).mpr
            (show group / 16 < 16 ^ 3 by omega)
        have whole : group / 16 * 16 + group % 16 = group := by omega
        rw [if_neg small, List.append_assoc,
          ih (group / 16) (by omega) (by omega), List.singleton_append,
          inetPton6Loop_digit digit (by omega), whole, List.length_append,
          List.length_singleton]

theorem inetPton6Loop_colon {count value : Nat} {curtok src tmp : List UInt8}
    {colonp : Option Nat} (positive : 0 < count) (more : src ≠ [])
    (room : tmp.length + 2 ≤ 16) :
    inetPton6Loop curtok (colon :: src) ⟨tmp, colonp, value, count⟩ =
      inetPton6Loop src src ⟨tmp ++ WireFormat.word16.encode value, colonp, 0, 0⟩ := by
  have noDigit : hexDigit colon = none := rfl
  rw [inetPton6Loop, noDigit]
  simp only [if_true, if_neg positive.ne', if_neg more, Pton6.store,
    if_pos room]
  rfl

theorem inetPton6Loop_groups {groups : List Nat}
    (words : ∀ group ∈ groups, group < 65536) {src tmp : List UInt8}
    (colonp : Option Nat) (more : src ≠ [])
    (room : tmp.length + 2 * groups.length ≤ 16) :
    inetPton6Loop (delimited colon (groups.map hexadecimal) ++ src)
        (delimited colon (groups.map hexadecimal) ++ src)
        ⟨tmp, colonp, 0, 0⟩ =
      inetPton6Loop src src ⟨tmp ++ groupBytes groups, colonp, 0, 0⟩ := by
  induction groups generalizing tmp with
  | nil =>
      have empty : groupBytes [] = [] := rfl
      rw [empty, List.append_nil]
      rfl
  | cons group groups ih =>
      obtain ⟨word, words⟩ := List.forall_mem_cons.mp words
      rw [List.length_cons] at room
      have split : delimited colon ((group :: groups).map hexadecimal) ++ src =
          hexadecimal group ++ colon ::
            (delimited colon (groups.map hexadecimal) ++ src) := by
        rw [List.map_cons, delimited_cons, List.append_assoc,
          List.cons_append]
      rw [split, inetPton6Loop_hexadecimal word,
        inetPton6Loop_colon (length_hexadecimal_pos group)
          (List.append_ne_nil_of_right_ne_nil _ more) (by omega),
        ih words (by
          rw [List.length_append]
          exact (show tmp.length + 2 + 2 * groups.length ≤ 16 by omega)),
        List.append_assoc, ← groupBytes_singleton, ← groupBytes_append]
      rfl

theorem inetPton6Loop_last {group : Nat} (word : group < 65536)
    (tmp : List UInt8) (colonp : Option Nat) :
    inetPton6Loop (hexadecimal group) (hexadecimal group)
        ⟨tmp, colonp, 0, 0⟩ =
      some ⟨tmp, colonp, group, (hexadecimal group).length⟩ := by
  have whole := inetPton6Loop_hexadecimal word (hexadecimal group) [] tmp colonp
  rw [List.append_nil] at whole
  exact whole

theorem inetPton6Loop_digits {digits : List UInt8}
    (hex : ∀ ch ∈ digits, (hexDigit ch).isSome) (value : Nat) {count : Nat}
    (few : count + digits.length ≤ 4) (curtok src tmp : List UInt8)
    (colonp : Option Nat) :
    ∃ last, inetPton6Loop curtok (digits ++ src) ⟨tmp, colonp, value, count⟩ =
      inetPton6Loop curtok src
        ⟨tmp, colonp, last, count + digits.length⟩ := by
  induction digits generalizing value count with
  | nil => exact ⟨value, rfl⟩
  | cons ch digits ih =>
      obtain ⟨here, hex⟩ := List.forall_mem_cons.mp hex
      obtain ⟨digit, here⟩ := Option.isSome_iff_exists.mp here
      have total : count + 1 + digits.length = count + (ch :: digits).length := by
        rw [List.length_cons]
        omega
      rw [← total] at few ⊢
      obtain ⟨last, rest⟩ := ih hex (value * 16 + digit) few
      refine ⟨last, ?_⟩
      rw [List.cons_append, inetPton6Loop_digit here (by omega), rest]

theorem decimal_hexDigits (octet : UInt8) :
    ∀ ch ∈ decimal octet, (hexDigit ch).isSome := by
  have digit : ∀ {value}, value < 10 →
      (hexDigit (UInt8.ofNat (48 + value))).isSome := by
    intro value small
    interval_cases value <;> rfl
  have below := octet.toNat_lt
  rw [decimal]
  generalize octet.toNat = value at below
  dsimp only
  split
  · simp only [List.forall_mem_singleton]
    exact digit (by omega)
  · split
    · simp only [List.forall_mem_cons]
      exact ⟨digit (by omega), digit (by omega), by simp⟩
    · simp only [List.forall_mem_cons]
      exact ⟨digit (by omega), digit (by omega), digit (by omega), by simp⟩

theorem inetPton6Loop_quad (address : NID32) {tmp : List UInt8}
    (colonp : Option Nat) (room : tmp.length + 4 ≤ 16) :
    ∃ value, inetPton6Loop (inetNtop4 address) (inetNtop4 address)
        ⟨tmp, colonp, 0, 0⟩ =
      some ⟨tmp ++ address.toList, colonp, value, 0⟩ := by
  have short := length_decimal address[0]
  generalize written : inetNtop4 address = curtok
  obtain ⟨value, digits⟩ := inetPton6Loop_digits
    (decimal_hexDigits address[0]) 0
    (show 0 + (decimal address[0]).length ≤ 4 by omega) curtok
    (dot :: (decimal address[1] ++ dot :: (decimal address[2] ++
      dot :: decimal address[3]))) tmp colonp
  have noDigit : hexDigit dot = none := rfl
  have noColon : dot ≠ colon := by decide
  have octets : inetPton4 curtok = some address.toList := by
    rw [← written]
    exact inetPton4_inetNtop4 address
  have text : decimal address[0] ++ dot :: (decimal address[1] ++
      dot :: (decimal address[2] ++ dot :: decimal address[3])) = curtok :=
    written
  rw [text] at digits
  refine ⟨value, ?_⟩
  rw [digits, inetPton6Loop, noDigit]
  simp only [if_neg noColon, room, and_self, if_true, octets, Option.map_some]

theorem finish_store {tmp : List UInt8} {colonp : Option Nat}
    {group count : Nat} (positive : 0 < count) (room : tmp.length + 2 ≤ 16) :
    Pton6.finish ⟨tmp, colonp, group, count⟩ =
      Pton6.finish ⟨tmp ++ WireFormat.word16.encode group, colonp, 0, 0⟩ := by
  simp only [Pton6.finish, if_neg positive.ne', Pton6.store, if_pos room,
    if_true]
  rfl

theorem finish_whole {tmp : List UInt8} (value : Nat)
    (whole : tmp.length = 16) :
    Pton6.finish ⟨tmp, none, value, 0⟩ = some tmp := by
  simp only [Pton6.finish, if_true, Option.bind_eq_bind, Option.bind_some,
    if_pos whole]

theorem finish_colons (front behind : List UInt8) (value : Nat)
    (short : (front ++ behind).length < 16) :
    Pton6.finish ⟨front ++ behind, some front.length, value, 0⟩ =
      some (front ++ List.replicate (16 - (front ++ behind).length) 0 ++
        behind) := by
  simp only [Pton6.finish, if_true, Option.bind_eq_bind, Option.bind_some,
    if_neg short.ne, List.take_left, List.drop_left]

/-- The text from the start or the two colons to the end is read as these
bytes. -/
def ReadsAs (text bytes : List UInt8) : Prop :=
  ∀ (tmp : List UInt8) (colonp : Option Nat), tmp.length + bytes.length ≤ 16 →
    ∃ s value, inetPton6Loop text text ⟨tmp, colonp, 0, 0⟩ = some s ∧
      s.finish = Pton6.finish ⟨tmp ++ bytes, colonp, value, 0⟩

theorem readsAs_groups {groups : List Nat}
    (words : ∀ group ∈ groups, group < 65536) :
    ReadsAs ([colon].intercalate (groups.map hexadecimal))
      (groupBytes groups) := by
  intro tmp colonp room
  rw [length_groupBytes] at room
  rcases List.eq_nil_or_concat groups with rfl | ⟨front, last, rfl⟩
  · have empty : groupBytes [] = [] := rfl
    exact ⟨_, 0, rfl, by rw [empty, List.append_nil]⟩
  · rw [List.concat_eq_append] at words room ⊢
    obtain ⟨frontWords, lastWord⟩ := List.forall_mem_append.mp words
    have word := lastWord last List.mem_cons_self
    rw [List.length_append, List.length_singleton] at room
    have more : hexadecimal last ≠ [] :=
      List.ne_nil_of_length_pos (length_hexadecimal_pos last)
    have looped := inetPton6Loop_last word (tmp ++ groupBytes front) colonp
    rw [← inetPton6Loop_groups frontWords colonp more (by omega),
      ← intercalate_concat, ← List.map_singleton,
      ← List.map_append] at looped
    refine ⟨_, 0, looped, ?_⟩
    rw [finish_store (length_hexadecimal_pos last) (by
      rw [List.length_append, length_groupBytes]
      omega), List.append_assoc, groupBytes_append, groupBytes_singleton]

theorem readsAs_quad {groups : List Nat}
    (words : ∀ group ∈ groups, group < 65536) (address : NID32) :
    ReadsAs ([colon].intercalate
        (groups.map hexadecimal ++ [inetNtop4 address]))
      (groupBytes groups ++ address.toList) := by
  intro tmp colonp room
  rw [List.length_append, length_groupBytes, Vector.length_toList] at room
  have more : inetNtop4 address ≠ [] := by
    rw [inetNtop4]
    exact List.append_ne_nil_of_right_ne_nil _ (List.cons_ne_nil _ _)
  obtain ⟨value, read⟩ := inetPton6Loop_quad address colonp
    (show (tmp ++ groupBytes groups).length + 4 ≤ 16 by
      rw [List.length_append, length_groupBytes]
      omega)
  rw [← inetPton6Loop_groups words colonp more (by omega),
    ← intercalate_concat] at read
  refine ⟨_, value, read, ?_⟩
  rw [List.append_assoc]

theorem hexadecimal_eq_cons (group : Nat) :
    ∃ first rest, hexadecimal group = first :: rest ∧ first ≠ colon := by
  obtain ⟨first, rest, split⟩ := List.exists_cons_of_length_pos
    (length_hexadecimal_pos group)
  refine ⟨first, rest, split, ?_⟩
  rintro rfl
  have digit := hexadecimal_hexDigits group colon (by
    rw [split]
    exact List.mem_cons_self)
  cases digit

theorem inetPton6_of_group {group : Nat} {behind : List UInt8}
    {s : Pton6} {bytes : List UInt8}
    (looped : inetPton6Loop (hexadecimal group ++ behind)
      (hexadecimal group ++ behind) ⟨[], none, 0, 0⟩ = some s)
    (finished : s.finish = some bytes) :
    inetPton6 (hexadecimal group ++ behind) =
      some (nidCodec.decode bytes) := by
  obtain ⟨first, rest, split, noColon⟩ := hexadecimal_eq_cons group
  rw [split, List.cons_append] at looped ⊢
  simp only [inetPton6, if_neg noColon, Option.bind_eq_bind, Option.bind_some,
    looped, finished, Option.pure_def]

theorem inetPton6_of_colons {behind : List UInt8} {s : Pton6}
    {bytes : List UInt8}
    (looped : inetPton6Loop (colon :: behind) (colon :: behind)
      ⟨[], none, 0, 0⟩ = some s)
    (finished : s.finish = some bytes) :
    inetPton6 (colon :: colon :: behind) = some (nidCodec.decode bytes) := by
  simp only [inetPton6, List.head?_cons, if_true, Option.bind_eq_bind,
    Option.bind_some, looped, finished, Option.pure_def]

theorem inetPton6_whole {group : Nat} {groups : List Nat}
    (words : ∀ other ∈ group :: groups, other < 65536)
    (whole : (group :: groups).length = 8) :
    inetPton6 ([colon].intercalate ((group :: groups).map hexadecimal)) =
      some (nidCodec.decode (groupBytes (group :: groups))) := by
  have length : (groupBytes (group :: groups)).length = 16 := by
    rw [length_groupBytes, whole]
  obtain ⟨s, value, looped, finished⟩ :=
    readsAs_groups words [] none ((Nat.zero_add _).trans length).le
  rw [List.nil_append, finish_whole value length] at finished
  obtain ⟨behind, split⟩ : ∃ behind, [colon].intercalate
      ((group :: groups).map hexadecimal) = hexadecimal group ++ behind := by
    cases groups with
    | nil =>
        rw [List.map_singleton, List.intercalate_singleton]
        exact ⟨[], (List.append_nil _).symm⟩
    | cons next groups =>
        rw [List.map_cons, List.map_cons, List.intercalate_cons_cons,
          List.append_assoc]
        exact ⟨_, rfl⟩
  rw [split] at looped ⊢
  exact inetPton6_of_group looped finished

theorem inetPton6_halves {front : List Nat}
    (words : ∀ group ∈ front, group < 65536) {text bytes : List UInt8}
    (read : ReadsAs text bytes)
    (short : (groupBytes front ++ bytes).length < 16) :
    inetPton6 ([colon].intercalate (front.map hexadecimal) ++
        [colon, colon] ++ text) =
      some (nidCodec.decode (groupBytes front ++
        List.replicate (16 - (groupBytes front ++ bytes).length) 0 ++
          bytes)) := by
  have noDigit : hexDigit colon = none := rfl
  obtain ⟨s, value, looped, finished⟩ := read (groupBytes front)
    (some (groupBytes front).length) (by
      rw [List.length_append] at short
      exact short.le)
  rw [finish_colons _ _ value short] at finished
  have second : inetPton6Loop (colon :: text) (colon :: text)
      ⟨[] ++ groupBytes front, none, 0, 0⟩ = some s := by
    rw [inetPton6Loop, noDigit]
    simpa using looped
  rw [← inetPton6Loop_groups words none (List.cons_ne_nil colon text) (by
    rw [List.length_append, length_groupBytes] at short
    rw [List.length_nil]
    omega)] at second
  cases front with
  | nil => exact inetPton6_of_colons second finished
  | cons group groups =>
      have split : [colon].intercalate ((group :: groups).map hexadecimal) ++
          [colon, colon] ++ text =
            delimited colon ((group :: groups).map hexadecimal) ++
              colon :: text := by
        rw [delimited_of_ne_nil colon (List.map_cons ▸ List.cons_ne_nil _ _)]
        simp only [List.append_assoc, List.cons_append, List.nil_append]
      rw [split]
      rw [List.map_cons, delimited_cons, List.append_assoc] at second ⊢
      exact inetPton6_of_group second finished

theorem groupBytes_drop (groups : List Nat) (count : Nat) :
    groupBytes (groups.drop count) = (groupBytes groups).drop (2 * count) := by
  induction groups generalizing count with
  | nil =>
      have empty : groupBytes [] = [] := rfl
      rw [List.drop_nil, empty, List.drop_nil]
  | cons group groups ih =>
      cases count with
      | zero => rfl
      | succ count => exact ih count

theorem groupBytes_run (groups : List Nat) {base run : Nat}
    (zeros : ((groups.drop base).takeWhile (· = 0)).length = run) :
    groupBytes (groups.take base) ++ List.replicate (2 * run) 0 ++
      groupBytes (groups.drop (base + run)) = groupBytes groups := by
  have inRun : (groups.drop base).takeWhile (· = 0) =
      List.replicate run 0 := by
    refine List.eq_replicate_iff.mpr ⟨zeros, ?_⟩
    intro group member
    have zero := List.mem_takeWhile_imp member
    exact of_decide_eq_true zero
  have front : (groups.drop base).take run = List.replicate run 0 := by
    rw [← inRun, ← zeros]
    exact (List.prefix_iff_eq_take.mp (List.takeWhile_prefix _)).symm
  rw [← groupBytes_zeros, ← front, ← groupBytes_append, ← groupBytes_append,
    List.append_assoc, ← List.drop_drop, List.take_append_drop,
    List.take_append_drop]

theorem inetPton6_compressed {nid : NID} {groups : List Nat}
    (words : ∀ group ∈ groups, group < 65536)
    (bytes : groupBytes groups = nid.toList) {base run : Nat}
    (zeros : ((groups.drop base).takeWhile (· = 0)).length = run)
    (positive : 0 < run) {text : List UInt8}
    (reads : ReadsAs text (groupBytes (groups.drop (base + run)))) :
    inetPton6 ([colon].intercalate ((groups.take base).map hexadecimal) ++
      [colon, colon] ++ text) = some nid := by
  have whole := groupBytes_run groups zeros
  rw [bytes] at whole
  have total := congrArg List.length whole
  simp only [List.length_append, List.length_replicate,
    Vector.length_toList] at total
  have missing : 16 - (groupBytes (groups.take base) ++
      groupBytes (groups.drop (base + run))).length = 2 * run := by
    rw [List.length_append]
    omega
  have front : ∀ group ∈ groups.take base, group < 65536 :=
    fun group member => words group (List.mem_of_mem_take member)
  rw [inetPton6_halves front reads (by
    rw [List.length_append]
    omega), missing, whole]
  exact congrArg some (nidCodec.decode_encode nid)

theorem readsAs_embedded {nid : NID} {groups : List Nat}
    (words : ∀ group ∈ groups, group < 65536)
    (bytes : groupBytes groups = nid.toList) {skip count : Nat}
    (six : skip + count = 6) :
    ReadsAs ([colon].intercalate
        (((groups.drop skip).take count).map hexadecimal ++
          [inetNtop4 (nid32Codec.decode (nid.toList.drop 12))]))
      (groupBytes (groups.drop skip)) := by
  have last : (nid32Codec.decode (nid.toList.drop 12)).toList =
      groupBytes ((groups.drop skip).drop count) := by
    rw [List.drop_drop, six, groupBytes_drop, bytes]
    exact FixedCodec.encode_decode_bytes
      (show (nid.toList.drop 12).length = 4 by simp)
  have front : ∀ group ∈ (groups.drop skip).take count, group < 65536 :=
    fun group member =>
      words group (List.mem_of_mem_drop (List.mem_of_mem_take member))
  have reads := readsAs_quad front (nid32Codec.decode (nid.toList.drop 12))
  rw [last, ← groupBytes_append, List.take_append_drop] at reads
  exact reads

/-- What `inet_ntop` writes is read as what it was. -/
theorem inetPton6_inetNtop6 (nid : NID) :
    inetPton6 (inetNtop6 nid) = some nid := by
  have bytes : groupBytes ((List.range 8).map (groupAt nid.toList)) =
      nid.toList := groupBytes_range (by simp)
  have words : ∀ group ∈ (List.range 8).map (groupAt nid.toList),
      group < 65536 := by
    intro group member
    obtain ⟨index, _, rfl⟩ := List.mem_map.mp member
    exact groupAt_lt nid.toList index
  have count : ((List.range 8).map (groupAt nid.toList)).length = 8 := by simp
  simp only [inetNtop6, ← groupAt.eq_def]
  generalize (List.range 8).map (groupAt nid.toList) = groups
    at bytes words count ⊢
  generalize (List.range 8).foldl _ 0 = base
  generalize zeros : ((groups.drop base).takeWhile (· = 0)).length = run
  split
  · cases groups with
    | nil => cases count
    | cons group groups =>
        rw [inetPton6_whole words count, bytes]
        exact congrArg some (nidCodec.decode_encode nid)
  · next long =>
      have positive : 0 < run := by omega
      have behind : ∀ group ∈ groups.drop (base + run), group < 65536 :=
        fun group member => words group (List.mem_of_mem_drop member)
      apply inetPton6_compressed words bytes zeros positive
      split
      · next embeds =>
          -- One group at most is left in front of the quad.
          obtain ⟨rfl, runs⟩ := embeds
          have six : run ≤ 6 := by
            rcases runs with six | ⟨five, _⟩
            · exact six.le
            · exact five.le.trans (Nat.le_succ 5)
          rw [List.length_map, ← List.map_take, List.length_drop, count]
          exact readsAs_embedded words bytes (by omega)
      · exact readsAs_groups behind

end NodeIdentity
