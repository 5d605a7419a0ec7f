import NodeIdentity.Library.History
import NodeIdentity.Properties.DhcpFrames

/-!
# The options of the DHCP client in memory

What one message does to the table of options.  What is read of the table are
the bytes an option counts; behind them there is a zero as long as the memory is
what `malloc` returned for them.
-/

namespace NodeIdentity

open NodeIdentity.Library

def dhcpFormat : OptionFormat where
  pad := padOption
  stop := endOption
  limit := dhcpOptionsLen
  apart := by decide

def DhcpMessage.items (m : DhcpMessage) : List (UInt8 × List UInt8) :=
  (dhcpFormat.scan m.options dhcpOptionsLen 4).getD []

/-- The buffer has room for one option behind the field. -/
def DhcpMessage.Roomy (m : DhcpMessage) : Prop :=
  dhcpOptionsLen + 256 ≤ m.options.length

/-- What an option brings; without data it brings nothing. -/
def itemData (code : UInt8) (item : UInt8 × List UInt8) :
    Option (List UInt8) :=
  if item.1 = code ∧ item.2 ≠ [] then some item.2 else none

def lastData (code : UInt8) (items : List (UInt8 × List UInt8)) :
    Option (List UInt8) :=
  lastOf (itemData code) items

/-- The options with the strings of `DHCP_HOSTINFO`. -/
def cleanedOptions : List UInt8 :=
  [hostName, domainName, nisDomainName, rootPath]

/-- A message which was received, and whether `dhcpConfig` has cleaned the
strings after it. -/
structure DhcpReceipt where
  message : DhcpMessage
  cleaned : Bool

def DhcpReceipt.leaves (code : UInt8) (held : Option (List UInt8))
    (receipt : DhcpReceipt) : Option (List UInt8) :=
  let held := (lastData code receipt.message.items).or held
  if receipt.cleaned = true ∧ code ∈ cleanedOptions then
    held.map withoutQuotes
  else held

/-- The data of an option which some messages brought last, as it is now. -/
def brought (code : UInt8) (receipts : List DhcpReceipt) :
    Option (List UInt8) :=
  receipts.foldl (DhcpReceipt.leaves code) none

theorem lastData_ne_nil {code : UInt8} {items : List (UInt8 × List UInt8)}
    {data : List UInt8} (last : lastData code items = some data) :
    data ≠ [] := by
  obtain ⟨item, _, given⟩ := exists_of_lastOf last
  rw [itemData] at given
  split at given
  case isTrue both =>
    cases given
    exact both.2
  case isFalse => cases given

theorem brought_snoc (code : UInt8) (receipts : List DhcpReceipt)
    (receipt : DhcpReceipt) :
    brought code (receipts ++ [receipt]) =
      receipt.leaves code (brought code receipts) :=
  List.foldl_concat _ _ _ _

theorem brought_received (code : UInt8) (receipts : List DhcpReceipt)
    (m : DhcpMessage) :
    brought code (receipts ++ [⟨m, false⟩]) =
      (lastData code m.items).or (brought code receipts) := by
  rw [brought_snoc, DhcpReceipt.leaves]
  simp only [Bool.false_eq_true, false_and, if_false]

theorem brought_cleaned (code : UInt8) (receipts : List DhcpReceipt)
    (m : DhcpMessage) :
    brought code (receipts ++ [⟨m, true⟩]) =
      if code ∈ cleanedOptions then
        (brought code (receipts ++ [⟨m, false⟩])).map withoutQuotes
      else brought code (receipts ++ [⟨m, false⟩]) := by
  rw [brought_received, brought_snoc, DhcpReceipt.leaves]
  simp only [true_and]

theorem length_withoutQuotes (cstr : List UInt8) :
    (withoutQuotes cstr).length = cstr.length := by
  rw [withoutQuotes, cstringOf, List.length_append, List.length_map,
    ← List.length_append, List.takeWhile_append_dropWhile]

theorem brought_ne_nil {code : UInt8} {receipts : List DhcpReceipt}
    {data : List UInt8} (last : brought code receipts = some data) :
    data ≠ [] := by
  induction receipts using List.reverseRecOn generalizing data with
  | nil => cases last
  | append_singleton receipts receipt ih =>
      have held : ∀ {data}, (lastData code receipt.message.items).or
          (brought code receipts) = some data → data ≠ [] := by
        intro data here
        rcases Option.or_eq_some_iff.mp here with now | ⟨_, before⟩
        · exact lastData_ne_nil now
        · exact ih before
      rw [brought_snoc, DhcpReceipt.leaves] at last
      split at last
      · obtain ⟨data, here, rfl⟩ := Option.map_eq_some_iff.mp last
        intro empty
        apply held here
        rw [← List.length_eq_zero_iff, ← length_withoutQuotes, empty]
        rfl
      · exact held last

theorem DhcpMessage.Roomy.items_eq_iff {m : DhcpMessage} (roomy : m.Roomy)
    {options : List (UInt8 × List UInt8)} :
    m.items = options ↔ ∃ items, dhcpFormat.Written m.options 4 items ∧
      items.filterMap OptionFormat.Item.content = options := by
  have enough : dhcpFormat.limit ≤ 4 + dhcpOptionsLen := Nat.le_add_left _ _
  have room : dhcpFormat.limit + 256 ≤ m.options.length := roomy
  obtain ⟨found, scanned⟩ : ∃ found,
      dhcpFormat.scan m.options dhcpOptionsLen 4 = some found :=
    Option.isSome_iff_exists.mp (OptionFormat.scan_isSome room)
  rw [← OptionFormat.scan_eq_some_iff enough, items, scanned,
    Option.getD_some, Option.some.injEq]

theorem DhcpMessage.Roomy.scan_eq {m : DhcpMessage} (roomy : m.Roomy) :
    dhcpFormat.scan m.options dhcpOptionsLen 4 = some m.items := by
  have enough : dhcpFormat.limit ≤ 4 + dhcpOptionsLen := Nat.le_add_left _ _
  exact (OptionFormat.scan_eq_some_iff enough).mpr
    (roomy.items_eq_iff.mp rfl)

theorem DhcpMessage.Roomy.small {m : DhcpMessage} (roomy : m.Roomy) :
    ∀ item ∈ m.items, item.2.length < 256 := by
  obtain ⟨items, written, same⟩ := roomy.items_eq_iff.mp rfl
  rw [← same]
  intro item member
  obtain ⟨source, here, content⟩ := List.mem_filterMap.mp member
  cases source with
  | pad => cases content
  | option code data =>
      cases content
      exact (written.valid _ here).2.2

namespace DhcpOptions

/-- Memory for an option of some length.  There is one byte more, or the client
has made four bytes itself; only eight bits of the length of a name count. -/
def Fits (code : UInt8) (length size : Nat) : Prop :=
  length ≤ size ∧ (code ≠ hostName → code ≠ domainName →
    size = length + 1 ∨ length = 4 ∧ size = 4)

/-- Every option has memory for its length, which is zero without memory. -/
def Sound (o : DhcpOptions) : Prop :=
  ∀ code, match o.val code with
    | none => o.len code = 0
    | some bytes => Fits code (o.len code).toNat bytes.length

def content (o : DhcpOptions) (code : UInt8) : Option (List UInt8) :=
  (o.val code).map fun bytes => bytes.take (o.len code).toNat

/-- What lies behind the data of an option ends with a zero. -/
def Ended (o : DhcpOptions) (code : UInt8) : Prop :=
  ∀ bytes ∈ o.val code, (bytes.drop (o.len code).toNat).getLast? = some 0

/-- The option has the data it was given, or four bytes instead of none. -/
def Made (o : DhcpOptions) (code : UInt8) (given : Option (List UInt8)) :
    Prop :=
  given ≠ none ∧ o.content code = given ∨
    given = none ∧ ∃ word, o.content code = some word ∧ word.length = 4

def Same (o next : DhcpOptions) (code : UInt8) : Prop :=
  next.val code = o.val code ∧ next.len code = o.len code

/-- No option but this one has changed. -/
structure Changes (o next : DhcpOptions) (code : UInt8) : Prop where
  sound : next.Sound
  elsewhere : ∀ other, other ≠ code → o.Same next other

/-- The option has got these data. -/
structure Sets (o next : DhcpOptions) (code : UInt8) (data : List UInt8) :
    Prop extends o.Changes next code where
  here : next.content code = some data

def keep (o : DhcpOptions) (item : UInt8 × List UInt8) : Option DhcpOptions :=
  if item.2 = [] then some o
  else o.store item.1 (UInt8.ofNat item.2.length) item.2

section Steps

variable {o next : DhcpOptions} {code : UInt8} {data bytes : List UInt8}

theorem Sound.of_val (sound : o.Sound) (here : o.val code = some bytes) :
    Fits code (o.len code).toNat bytes.length := by
  have slot := sound code
  rwa [here] at slot

theorem Sound.of_none (sound : o.Sound) (absent : o.val code = none) :
    o.len code = 0 := by
  have slot := sound code
  rwa [absent] at slot

theorem sound_released : released.Sound :=
  fun _ => rfl

theorem content_eq_none_iff : o.content code = none ↔ o.val code = none :=
  Option.map_eq_none_iff

theorem Same.content (same : o.Same next code) :
    next.content code = o.content code := by
  rw [DhcpOptions.content, same.1, same.2, DhcpOptions.content]

theorem Same.ended (same : o.Same next code) (ended : o.Ended code) :
    next.Ended code := by
  rw [Ended, same.1, same.2]
  exact ended

theorem Same.made {given : Option (List UInt8)} (same : o.Same next code)
    (made : o.Made code given) : next.Made code given := by
  rw [Made, same.content]
  exact made

theorem Made.present {given : Option (List UInt8)}
    (made : o.Made code given) : o.val code ≠ none := by
  rw [ne_eq, ← content_eq_none_iff]
  rcases made with ⟨some_given, same⟩ | ⟨_, word, here, _⟩
  · rwa [same]
  · rw [here]
    exact Option.some_ne_none _

theorem Made.trans {given : Option (List UInt8)} (first : o.Made code given)
    (second : next.Made code (o.content code)) : next.Made code given := by
  rcases first with ⟨_, same⟩ | ⟨nothing, word, here, four⟩
  · rwa [same] at second
  · rw [here] at second
    rcases second with ⟨_, same⟩ | ⟨absurd, _⟩
    · exact .inr ⟨nothing, word, same, four⟩
    · cases absurd

theorem Same.trans {last : DhcpOptions} (first : o.Same next code)
    (second : next.Same last code) : o.Same last code :=
  ⟨second.1.trans first.1, second.2.trans first.2⟩

theorem exists_memory (sound : o.Sound) (here : o.content code = some data) :
    ∃ tail, o.val code = some (data ++ tail) ∧
      (o.len code).toNat = data.length := by
  obtain ⟨bytes, val, rfl⟩ := Option.map_eq_some_iff.mp here
  refine ⟨bytes.drop (o.len code).toNat, ?_, ?_⟩
  · rw [List.take_append_drop, val]
  · exact (List.length_take_of_le (sound.of_val val).1).symm

/-- Nothing but a zero is behind what an option counts, if it is no name which
was looked up. -/
theorem Ended.val_eq (ended : o.Ended code) (sound : o.Sound)
    (host : code ≠ hostName) (domain : code ≠ domainName) :
    o.val code = (o.content code).map fun data => data ++ [0] := by
  cases here : o.val code with
  | none => rw [content_eq_none_iff.mpr here, Option.map_none]
  | some bytes =>
      have last := ended bytes here
      obtain ⟨room, fits⟩ := sound.of_val here
      have tail : bytes.drop (o.len code).toNat = [0] := by
        cases rest : bytes.drop (o.len code).toNat with
        | nil =>
            rw [rest] at last
            cases last
        | cons first others =>
            have length := congrArg List.length rest
            rw [List.length_drop, List.length_cons] at length
            have single : others = [] := by
              rw [← List.length_eq_zero_iff]
              rcases fits host domain with more | ⟨four, same⟩ <;> omega
            rw [rest, single] at last
            have zero : first = 0 := Option.some.inj last
            rw [single, zero]
      rw [content, here, Option.map_some, Option.map_some, ← tail,
        List.take_append_drop]

theorem Changes.of_val (sound : o.Sound)
    (elsewhere : ∀ other, other ≠ code → o.Same next other)
    (here : next.val code = some bytes)
    (fits : Fits code (next.len code).toNat bytes.length) :
    o.Changes next code where
  elsewhere := elsewhere
  sound := by
    intro other
    rcases eq_or_ne other code with rfl | apart
    · rw [here]
      exact fits
    · obtain ⟨val, len⟩ := elsewhere other apart
      rw [val, len]
      exact sound other

/-- `memcpy` stays in the memory of the option. -/
theorem exists_overwrite {old tail : List UInt8} (sound : o.Sound)
    (here : o.val code = some (old ++ tail))
    (length : (o.len code).toNat = old.length)
    (same : data.length = old.length) :
    ∃ next, o.overwrite code data = some next ∧ o.Sets next code data ∧
      next.val code = some (data ++ tail) ∧ next.len = o.len := by
  have room : 0 + data.length ≤ (old ++ tail).length := by
    rw [List.length_append]
    omega
  have written : writeAt (old ++ tail) 0 data = some (data ++ tail) := by
    rw [writeAt_eq room, List.take_zero, List.nil_append, Nat.zero_add,
      List.drop_left' same.symm]
  have updated :
      Function.update o.val code (some (data ++ tail)) code =
        some (data ++ tail) := Function.update_self _ _ _
  have fits : Fits code (o.len code).toNat (data ++ tail).length := by
    rw [List.length_append, same, ← List.length_append]
    exact sound.of_val here
  refine ⟨⟨o.len, Function.update o.val code (some (data ++ tail))⟩, ?_,
    ⟨.of_val sound ?_ updated fits, ?_⟩, updated, rfl⟩
  · simp only [overwrite, here, written, Option.bind_eq_bind,
      Option.bind_some, Option.pure_def]
  · exact fun other apart => ⟨Function.update_of_ne apart _ _, rfl⟩
  · have held := congrArg (Option.map (List.take (o.len code).toNat)) updated
    exact held.trans
      (by rw [Option.map_some, length, ← same, List.take_left])

theorem changes_allocate {length : UInt8} (sound : o.Sound)
    (fits : Fits code length.toNat bytes.length) :
    o.Changes (o.allocate code length bytes) code := by
  have val : (o.allocate code length bytes).val code = some bytes :=
    Function.update_self _ _ _
  have len : (o.allocate code length bytes).len code = length :=
    Function.update_self _ _ _
  refine .of_val sound (fun other apart => ?_) val (len.symm ▸ fits)
  exact ⟨Function.update_of_ne apart _ _, Function.update_of_ne apart _ _⟩

theorem sets_allocate {length : UInt8} {tail : List UInt8} (sound : o.Sound)
    (counted : length.toNat = data.length)
    (fits : Fits code data.length (data ++ tail).length) :
    o.Sets (o.allocate code length (data ++ tail)) code data ∧
      (o.allocate code length (data ++ tail)).val code =
        some (data ++ tail) := by
  have val : (o.allocate code length (data ++ tail)).val code =
      some (data ++ tail) := Function.update_self _ _ _
  have len : (o.allocate code length (data ++ tail)).len code = length :=
    Function.update_self _ _ _
  refine ⟨⟨changes_allocate sound (counted ▸ fits), ?_⟩, val⟩
  rw [content, val, Option.map_some, len, counted, List.take_left]

theorem sets_four (sound : o.Sound) (four : bytes.length = 4) (code : UInt8) :
    o.Sets (o.allocate code 4 bytes) code bytes := by
  have counted : (4 : UInt8).toNat = bytes.length := four.symm
  have fits : Fits code bytes.length (bytes ++ []).length := by
    rw [List.append_nil, four]
    exact ⟨Nat.le_refl 4, fun _ _ => .inr ⟨rfl, rfl⟩⟩
  have sets := (sets_allocate sound counted fits).1
  rwa [List.append_nil] at sets

theorem exists_store (sound : o.Sound) (small : data.length < 256)
    (more : data ≠ []) (code : UInt8) :
    ∃ next, o.store code (UInt8.ofNat data.length) data = some next ∧
      o.Sets next code data ∧ (o.Ended code → next.Ended code) := by
  have counted := OptionFormat.toNat_length small
  rw [store]
  split
  case isTrue same =>
    have length : (o.len code).toNat = data.length := by rw [same, counted]
    obtain ⟨old, held⟩ : ∃ old, o.content code = some old := by
      apply Option.ne_none_iff_exists'.mp
      intro absent
      rw [sound.of_none (content_eq_none_iff.mp absent)] at length
      exact more (List.length_eq_zero_iff.mp length.symm)
    obtain ⟨tail, here, count⟩ := exists_memory sound held
    obtain ⟨next, done, sets, val, len⟩ :=
      exists_overwrite sound here count (length.symm.trans count)
    refine ⟨next, done, sets, fun ended => ?_⟩
    have last := ended _ here
    rw [List.drop_left' count.symm] at last
    rintro bytes written
    cases val.symm.trans written
    rwa [len, List.drop_left' length.symm]
  case isFalse =>
    have fits : Fits code data.length (data ++ [0]).length := by
      rw [List.length_append]
      exact ⟨Nat.le_add_right _ _, fun _ _ => .inl rfl⟩
    obtain ⟨sets, val⟩ := sets_allocate sound counted fits
    refine ⟨_, rfl, sets, fun _ => ?_⟩
    rintro bytes written
    cases val.symm.trans written
    have len : (o.allocate code (UInt8.ofNat data.length)
        (data ++ [0])).len code = UInt8.ofNat data.length :=
      Function.update_self _ _ _
    rw [len, counted, List.drop_left]
    rfl

theorem word_eq_none_iff :
    o.word code = none ↔
      ∀ bytes, o.val code = some bytes → bytes.length < 4 := by
  cases here : o.val code with
  | none => simp [word, here]
  | some bytes => simp [word, here, readAt_eq_none_iff]

theorem length_of_word (found : o.word code = some data) : data.length = 4 := by
  obtain ⟨bytes, _, read⟩ := Option.bind_eq_some_iff.mp found
  exact (readAt_eq_some_iff.mp read).2.1

theorem word_of_content (sound : o.Sound) (here : o.content code = some data)
    (four : data.length = 4) : o.word code = some data := by
  obtain ⟨tail, val, _⟩ := exists_memory sound here
  rw [word, val, Option.bind_eq_bind, Option.bind_some,
    readAt_eq_some_iff, List.drop_zero, List.length_append]
  exact ⟨by omega, four, List.prefix_append _ _⟩

theorem exists_clear (sound : o.Sound) (code : UInt8) :
    ∃ next, o.clear code = some next ∧ o.Changes next code ∧
      next.content code =
        (o.content code).map fun data => List.replicate data.length 0 := by
  cases held : o.content code with
  | none =>
      have absent := content_eq_none_iff.mp held
      refine ⟨o, ?_, ⟨sound, fun _ _ => ⟨rfl, rfl⟩⟩, held⟩
      rw [clear, if_neg fun both => both.1 absent]
  | some data =>
      obtain ⟨tail, val, length⟩ := exists_memory sound held
      have present : o.val code ≠ none := by
        rw [val]
        exact Option.some_ne_none _
      rcases Nat.eq_zero_or_pos data.length with empty | positive
      · have nothing : ¬ 0 < o.len code := by
          rw [UInt8.lt_iff_toNat_lt, length, empty]
          exact Nat.lt_irrefl 0
        refine ⟨o, ?_, ⟨sound, fun _ _ => ⟨rfl, rfl⟩⟩, ?_⟩
        · rw [clear, if_neg fun both => nothing both.2]
        · rw [held, List.length_eq_zero_iff.mp empty]
          rfl
      · have counts : 0 < o.len code := by
          rw [UInt8.lt_iff_toNat_lt, length]
          exact positive
        obtain ⟨next, done, sets, _⟩ :=
          exists_overwrite sound val length List.length_replicate
        refine ⟨next, ?_, sets.toChanges, sets.here⟩
        rw [clear, if_pos ⟨present, counts⟩, length, done]

def timeOf (time : List UInt8) : Option (List UInt8) → List UInt8
  | some data => if data.length = 4 ∧ data ≠ [0, 0, 0, 0] then data else time
  | none => time

theorem length_timeOf (four : data.length = 4) (given : Option (List UInt8)) :
    (timeOf data given).length = 4 := by
  cases given with
  | none => exact four
  | some given =>
      rw [timeOf]
      split
      case isTrue proper => exact proper.1
      case isFalse => exact four

theorem timeOf_of_zeros (time : List UInt8) (count : Nat) :
    timeOf time (some (List.replicate count 0)) = time := by
  apply if_neg
  rintro ⟨four, proper⟩
  rw [List.length_replicate] at four
  subst four
  exact proper rfl

theorem timeOf_timeOf (time : List UInt8) (given : Option (List UInt8)) :
    timeOf time (some (timeOf time given)) = timeOf time given := by
  by_cases proper : (timeOf time given).length = 4 ∧
      timeOf time given ≠ [0, 0, 0, 0]
  · exact if_pos proper
  · rw [timeOf, if_neg proper]
    cases given with
    | none => rfl
    | some data =>
        rw [timeOf] at proper ⊢
        split
        case isTrue holds =>
          rw [if_pos holds] at proper
          exact (proper holds).elim
        case isFalse => rfl

theorem exists_assumeTime {time : List UInt8} (sound : o.Sound)
    (four : time.length = 4) (code : UInt8) :
    ∃ next, o.assumeTime code time = some next ∧
      o.Sets next code (timeOf time (o.content code)) := by
  have allocated := sets_four sound four code
  rw [assumeTime]
  cases held : o.content code with
  | none =>
      have absent := content_eq_none_iff.mp held
      rw [if_neg fun both => both.1 absent]
      exact ⟨_, rfl, allocated⟩
  | some data =>
      obtain ⟨tail, val, length⟩ := exists_memory sound held
      have present : o.val code ≠ none := by
        rw [val]
        exact Option.some_ne_none _
      by_cases word : data.length = 4
      · have counts : o.len code = 4 := by
          rw [← UInt8.toNat_inj, length, word]
          rfl
        rw [if_pos ⟨present, counts⟩, word_of_content sound held word,
          Option.bind_eq_bind, Option.bind_some]
        split
        case isTrue zero =>
          subst zero
          obtain ⟨next, done, sets, _⟩ :=
            exists_overwrite sound val length four
          have zeros : timeOf time (some [0, 0, 0, 0]) = time :=
            timeOf_of_zeros time 4
          rw [zeros]
          exact ⟨next, done, sets⟩
        case isFalse proper =>
          rw [timeOf, if_pos ⟨word, proper⟩]
          exact ⟨o, rfl, ⟨sound, fun _ _ => ⟨rfl, rfl⟩⟩, held⟩
      · have other : o.len code ≠ 4 := by
          intro counts
          rw [counts] at length
          exact word length.symm
        rw [if_neg fun both => other both.2, timeOf,
          if_neg fun both => word both.1]
        exact ⟨_, rfl, allocated⟩

theorem exists_assume {given : Option (List UInt8)} (sound : o.Sound)
    (four : ∀ bytes, given = some bytes → bytes.length = 4)
    (available : o.val code = none → given ≠ none) :
    ∃ next, o.assume code given = some next ∧ o.Changes next code ∧
      next.Made code (o.content code) ∧ (o.val code ≠ none → next = o) := by
  by_cases absent : o.val code = none
  · obtain ⟨bytes, rfl⟩ := Option.ne_none_iff_exists'.mp (available absent)
    have sets := sets_four sound (four bytes rfl) code
    refine ⟨o.allocate code 4 bytes, ?_, sets.toChanges, .inr ?_,
      fun present => (present absent).elim⟩
    · rw [assume, if_pos absent]
      rfl
    · exact ⟨content_eq_none_iff.mpr absent, bytes, sets.here, four bytes rfl⟩
  · refine ⟨o, ?_, ⟨sound, fun _ _ => ⟨rfl, rfl⟩⟩, .inl ⟨?_, rfl⟩,
      fun _ => rfl⟩
    · rw [assume, if_neg absent]
    · exact fun none_here => absent (content_eq_none_iff.mp none_here)

theorem parseOptions_eq (options : List UInt8) (fuel p : Nat)
    (o : DhcpOptions) : o.parseOptions options fuel p =
      (dhcpFormat.scan options fuel p).bind fun items =>
        items.foldlM keep o := by
  induction fuel generalizing p o with
  | zero => rfl
  | succ fuel ih =>
      rcases Nat.lt_or_ge p dhcpOptionsLen with inside | past
      case inr =>
        rw [parseOptions, if_neg (Nat.not_lt.mpr past),
          OptionFormat.scan_past past]
        rfl
      have within : p < dhcpFormat.limit := inside
      rw [parseOptions, if_pos inside]
      cases here : options[p]? with
      | none =>
          rw [OptionFormat.scan, if_pos within, here]
          rfl
      | some code =>
          rw [Option.bind_eq_bind, Option.bind_some]
          by_cases stop : code = endOption
          · subst stop
            rw [if_pos rfl, OptionFormat.scan_stop here]
            rfl
          by_cases pad : code = padOption
          · subst pad
            rw [if_neg stop, if_pos rfl, OptionFormat.scan_pad within here]
            exact ih _ _
          rw [if_neg stop, if_neg pad,
            OptionFormat.scan_option within ⟨pad, stop⟩ here]
          cases next : options[p + 1]? with
          | none => rfl
          | some length =>
              have room : p + 2 + 0 ≤ options.length :=
                (List.getElem?_eq_some_iff.mp next).1
              simp only [Option.bind_eq_bind, Option.bind_some]
              by_cases empty : length = 0
              · subst empty
                have none_read : readAt options (p + 2) (0 : UInt8).toNat =
                    some [] := (readAt_eq room).trans (by simp)
                rw [if_neg (not_not.mpr rfl), ih, none_read, Option.bind_some,
                  Option.bind_map]
                rfl
              rw [if_pos empty]
              cases read : readAt options (p + 2) length.toNat with
              | none => rfl
              | some data =>
                  have counted := (readAt_eq_some_iff.mp read).2.1
                  have more : data ≠ [] := by
                    rintro rfl
                    exact empty (UInt8.toNat_inj.mp counted.symm)
                  have kept :
                      o.keep (code, data) = o.store code length data := by
                    rw [keep, if_neg more, counted, UInt8.ofNat_toNat]
                  simp only [Option.bind_some, Option.bind_map, ih]
                  rw [Option.bind_comm]
                  simp only [Function.comp_def, List.foldlM_cons, kept]
                  rfl

theorem exists_keepAll (sound : o.Sound) (items : List (UInt8 × List UInt8))
    (small : ∀ item ∈ items, item.2.length < 256) :
    ∃ next, items.foldlM keep o = some next ∧ next.Sound ∧
      (∀ code, next.content code = (lastData code items).or (o.content code)) ∧
      ∀ code, o.Ended code → next.Ended code := by
  induction items generalizing o with
  | nil => exact ⟨o, rfl, sound, fun _ => rfl, fun _ ended => ended⟩
  | cons item items ih =>
      obtain ⟨itemCode, data⟩ := item
      have here := small _ List.mem_cons_self
      have later := fun other member =>
        small other (List.mem_cons_of_mem _ member)
      simp only [lastData, lastOf_cons]
      by_cases empty : data = []
      · obtain ⟨next, done, rest⟩ := ih sound later
        have nothing : ∀ code, itemData code (itemCode, data) = none :=
          fun code => if_neg fun both => both.2 empty
        refine ⟨next, ?_, ?_⟩
        · rw [List.foldlM_cons, keep, if_pos empty]
          exact done
        · simp only [nothing, Option.or_none]
          exact rest
      · obtain ⟨stored, kept, sets, terminates⟩ :=
          exists_store sound here empty itemCode
        obtain ⟨next, done, after, contents, ended⟩ := ih sets.sound later
        refine ⟨next, ?_, after, ?_, ?_⟩
        · rw [List.foldlM_cons, keep, if_neg empty, kept]
          exact done
        · intro code
          rw [contents, Option.or_assoc]
          congr 1
          by_cases same : itemCode = code
          · subst same
            rw [sets.here, itemData, if_pos ⟨rfl, empty⟩, Option.some_or]
          · rw [(sets.elsewhere code (Ne.symm same)).content, itemData,
              if_neg fun both => same both.1, Option.none_or]
        · intro code before
          apply ended
          by_cases same : itemCode = code
          · subst same
            exact terminates before
          · exact (sets.elsewhere code (Ne.symm same)).ended before

/-- The option has less than the four bytes which are read of it. -/
def Short (o : DhcpOptions) (code : UInt8) : Prop :=
  ∃ bytes, o.val code = some bytes ∧ bytes.length < 4

/-- Less than three data of an option are less than four bytes with the one
behind them. -/
theorem Sound.short_iff (sound : o.Sound)
    (host : code ≠ hostName) (domain : code ≠ domainName) :
    o.Short code ↔ ∃ data ∈ o.content code, data.length < 3 := by
  constructor
  · rintro ⟨bytes, here, short⟩
    obtain ⟨room, fits⟩ := sound.of_val here
    refine ⟨bytes.take (o.len code).toNat, ?_, ?_⟩
    · rw [Option.mem_def, content, here, Option.map_some]
    · rw [List.length_take_of_le room]
      rcases fits host domain with more | ⟨_, four⟩ <;> omega
  · rintro ⟨data, held, short⟩
    obtain ⟨tail, here, length⟩ := exists_memory sound held
    obtain ⟨_, fits⟩ := sound.of_val here
    refine ⟨data ++ tail, here, ?_⟩
    rcases fits host domain with more | ⟨four, _⟩ <;> omega

/-- An option, and another one which is made from it. -/
def assumeFrom (source code : UInt8) (bytes : List UInt8)
    (derive : List UInt8 → List UInt8) (o : DhcpOptions) : Option DhcpOptions :=
  (o.assume source (some bytes)).bind fun next =>
    next.assume code ((next.word source).map derive)

def assumeTimes (time : List UInt8) (o : DhcpOptions) : Option DhcpOptions :=
  (o.assumeTime dhcpIPaddrLeaseTime time).bind fun o =>
    (o.word dhcpIPaddrLeaseTime).bind fun lease =>
      (o.assumeTime dhcpT1value (dhcpT1 lease)).bind fun o =>
        o.assumeTime dhcpT2value (dhcpT2 lease)

/-- The network is the part of an address which its mask leaves. -/
def broadcastOf (yiaddr : NID32) (mask : List UInt8) : List UInt8 :=
  List.zipWith (fun address mask => address ||| ~~~mask) yiaddr.toList mask

theorem complete_eq (nleaseTime : Vector UInt8 4) (ciaddr : NID32)
    (m : DhcpMessage) (o : DhcpOptions) :
    ∃ yiaddr, o.complete nleaseTime ciaddr m =
      (o.assumeFrom dhcpServerIdentifier dnsOption m.ip_src.toList id).bind
        fun o => (o.assumeFrom subnetMask broadcastAddr (classMask yiaddr)
          (broadcastOf yiaddr)).bind (assumeTimes nleaseTime.toList) := by
  refine ⟨if m.yiaddr = NID32.zero then ciaddr else m.yiaddr, ?_⟩
  simp only [complete, assumeFrom, Option.bind_assoc, Option.map_id_fun,
    id_eq]
  rfl

theorem assume_none (absent : o.val code = none) :
    o.assume code none = none := by
  rw [assume, if_pos absent]
  rfl

section AssumeFrom

variable {source : UInt8} {derive : List UInt8 → List UInt8}

theorem exists_source (sound : o.Sound) (four : bytes.length = 4)
    (source : UInt8) :
    ∃ next, o.assume source (some bytes) = some next ∧ o.Changes next source ∧
      next.Made source (o.content source) ∧
      (next.word source = none ↔ o.Short source) := by
  have given : ∀ other, some bytes = some other → other.length = 4 := by
    rintro other ⟨⟩
    exact four
  obtain ⟨next, done, changes, made, kept⟩ :=
    exists_assume sound given (fun _ => Option.some_ne_none bytes)
  refine ⟨next, done, changes, made, ?_⟩
  rw [word_eq_none_iff]
  by_cases absent : o.val source = none
  · rw [assume, if_pos absent] at done
    cases done
    have val : (o.allocate source 4 bytes).val source = some bytes :=
      Function.update_self _ _ _
    rw [val]
    constructor
    · intro short
      exact absurd (short bytes rfl) (by omega)
    · rintro ⟨old, here, _⟩
      rw [absent] at here
      cases here
  · rw [kept absent]
    obtain ⟨old, here⟩ := Option.ne_none_iff_exists'.mp absent
    constructor
    · exact fun short => ⟨old, here, short old here⟩
    · rintro ⟨other, same, short⟩ bytes val
      rw [same] at val
      cases val
      exact short

theorem assumeFrom_of_short (sound : o.Sound) (four : bytes.length = 4)
    (apart : code ≠ source) (absent : o.val code = none)
    (short : o.Short source) :
    o.assumeFrom source code bytes derive = none := by
  obtain ⟨next, done, changes, _, word⟩ := exists_source sound four source
  have none_here : next.val code = none :=
    (changes.elsewhere code apart).1.trans absent
  rw [assumeFrom, done, Option.bind_some, word.mpr short, Option.map_none]
  exact assume_none none_here

theorem exists_assumeFrom (sound : o.Sound) (four : bytes.length = 4)
    (apart : code ≠ source)
    (derived : ∀ word, word.length = 4 → (derive word).length = 4)
    (long : o.val code = none → ¬ o.Short source) :
    ∃ next, o.assumeFrom source code bytes derive = some next ∧ next.Sound ∧
      next.Made source (o.content source) ∧ next.Made code (o.content code) ∧
      ∀ other, other ≠ source → other ≠ code → o.Same next other := by
  obtain ⟨middle, done, changes, first, word⟩ := exists_source sound four source
  have four_derived : ∀ made, (middle.word source).map derive = some made →
      made.length = 4 := by
    intro made here
    obtain ⟨found, read, rfl⟩ := Option.map_eq_some_iff.mp here
    exact derived found (length_of_word read)
  have available : middle.val code = none →
      (middle.word source).map derive ≠ none := by
    intro absent none_word
    rw [(changes.elsewhere code apart).1] at absent
    exact long absent (word.mp (Option.map_eq_none_iff.mp none_word))
  obtain ⟨next, last, changed, second, _⟩ :=
    exists_assume changes.sound four_derived available
  rw [(changes.elsewhere code apart).content] at second
  refine ⟨next, ?_, changed.sound,
    (changed.elsewhere source apart.symm).made first, second,
    fun other apart₁ apart₂ =>
      (changes.elsewhere other apart₁).trans (changed.elsewhere other apart₂)⟩
  rw [assumeFrom, done, Option.bind_some, last]

end AssumeFrom

theorem length_id (word : List UInt8) (four : word.length = 4) :
    (id word).length = 4 :=
  four

theorem length_partOf (part : Nat → Nat) (time : List UInt8) :
    (partOf part time).length = 4 := by
  rw [partOf, Vector.length_toList]

theorem length_classMask (yiaddr : NID32) : (classMask yiaddr).length = 4 := by
  rw [classMask]
  split_ifs <;> rfl

theorem length_broadcastOf (yiaddr : NID32) {mask : List UInt8}
    (four : mask.length = 4) : (broadcastOf yiaddr mask).length = 4 := by
  rw [broadcastOf, List.length_zipWith, four, Vector.length_toList]
  rfl

theorem exists_assumeTimes {time : List UInt8} (sound : o.Sound)
    (four : time.length = 4) :
    ∃ next, o.assumeTimes time = some next ∧ next.Sound ∧
      (∀ other, other ≠ dhcpIPaddrLeaseTime → other ≠ dhcpT1value →
        other ≠ dhcpT2value → o.Same next other) ∧
      next.content dhcpIPaddrLeaseTime =
        some (timeOf time (o.content dhcpIPaddrLeaseTime)) ∧
      next.content dhcpT1value = some (timeOf
        (dhcpT1 (timeOf time (o.content dhcpIPaddrLeaseTime)))
        (o.content dhcpT1value)) ∧
      next.content dhcpT2value = some (timeOf
        (dhcpT2 (timeOf time (o.content dhcpIPaddrLeaseTime)))
        (o.content dhcpT2value)) := by
  obtain ⟨leased, first, lease⟩ :=
    exists_assumeTime sound four dhcpIPaddrLeaseTime
  have word := word_of_content lease.sound lease.here (length_timeOf four _)
  generalize timeOf time (o.content dhcpIPaddrLeaseTime) = given at lease word ⊢
  obtain ⟨renewed, second, renewal⟩ :=
    exists_assumeTime lease.sound (length_partOf _ given) dhcpT1value
  obtain ⟨next, third, rebinding⟩ :=
    exists_assumeTime renewal.sound (length_partOf _ given) dhcpT2value
  refine ⟨next, ?_, rebinding.sound, ?_, ?_, ?_, ?_⟩
  · rw [assumeTimes, first, Option.bind_some, word, Option.bind_some, dhcpT1,
      second, Option.bind_some, dhcpT2, third]
  · intro other apart₁ apart₂ apart₃
    exact ((lease.elsewhere other apart₁).trans
      (renewal.elsewhere other apart₂)).trans (rebinding.elsewhere other apart₃)
  · rw [(rebinding.elsewhere _ (by decide)).content,
      (renewal.elsewhere _ (by decide)).content, lease.here]
  · rw [(rebinding.elsewhere _ (by decide)).content, renewal.here,
      (lease.elsewhere _ (by decide)).content]
    rfl
  · rw [rebinding.here, (renewal.elsewhere _ (by decide)).content,
      (lease.elsewhere _ (by decide)).content]
    rfl

/-- The addresses which are made when no message brings them. -/
def madeOptions : List UInt8 :=
  [dhcpServerIdentifier, dnsOption, subnetMask, broadcastAddr]

def timeOptions : List UInt8 :=
  [dhcpIPaddrLeaseTime, dhcpT1value, dhcpT2value]

def assumedOptions : List UInt8 :=
  madeOptions ++ timeOptions ++ [hostName, domainName]

theorem apart_of_made (made : code ∈ madeOptions) :
    code ≠ dhcpT1value ∧ code ≠ dhcpT2value ∧ code ≠ hostName ∧
      code ≠ domainName := by
  refine ⟨?_, ?_, ?_, ?_⟩ <;> rintro rfl <;> revert made <;> decide

def Cut (o : DhcpOptions) : Prop :=
  o.val dnsOption = none ∧ o.Short dhcpServerIdentifier ∨
    o.val broadcastAddr = none ∧ o.Short subnetMask

theorem Same.short (same : o.Same next code) :
    next.Short code ↔ o.Short code := by
  rw [Short, same.1, Short]

theorem complete_of_cut (sound : o.Sound) (cut : o.Cut)
    (nleaseTime : Vector UInt8 4) (ciaddr : NID32) (m : DhcpMessage) :
    o.complete nleaseTime ciaddr m = none := by
  obtain ⟨yiaddr, whole⟩ := complete_eq nleaseTime ciaddr m o
  have four : m.ip_src.toList.length = 4 := Vector.length_toList
  rw [whole]
  by_cases early : o.val dnsOption = none ∧ o.Short dhcpServerIdentifier
  · rw [assumeFrom_of_short sound four (by decide) early.1 early.2]
    rfl
  · obtain ⟨absent, short⟩ := cut.resolve_left early
    have apart : dnsOption ≠ dhcpServerIdentifier := by decide
    have long : o.val dnsOption = none → ¬ o.Short dhcpServerIdentifier :=
      fun none short => early ⟨none, short⟩
    obtain ⟨named, first, later, _, _, same⟩ :=
      exists_assumeFrom sound four apart length_id long
    have broadcast := same broadcastAddr (by decide) (by decide)
    have mask := same subnetMask (by decide) (by decide)
    rw [first, Option.bind_some, assumeFrom_of_short later
      (length_classMask yiaddr) (by decide) (broadcast.1.trans absent)
      (mask.short.mpr short)]
    rfl

/-- What is left when a message has been completed. -/
structure Completed (nleaseTime : Vector UInt8 4) (o next : DhcpOptions) :
    Prop where
  sound : next.Sound
  made : ∀ code ∈ madeOptions, next.Made code (o.content code)
  others : ∀ code ∉ madeOptions ++ timeOptions, o.Same next code
  lease : next.content dhcpIPaddrLeaseTime =
    some (timeOf nleaseTime.toList (o.content dhcpIPaddrLeaseTime))
  t1 : next.content dhcpT1value = some (timeOf
    (dhcpT1 (timeOf nleaseTime.toList (o.content dhcpIPaddrLeaseTime)))
    (o.content dhcpT1value))
  t2 : next.content dhcpT2value = some (timeOf
    (dhcpT2 (timeOf nleaseTime.toList (o.content dhcpIPaddrLeaseTime)))
    (o.content dhcpT2value))

theorem exists_complete (sound : o.Sound) (whole : ¬ o.Cut)
    (nleaseTime : Vector UInt8 4) (ciaddr : NID32) (m : DhcpMessage) :
    ∃ next, o.complete nleaseTime ciaddr m = some next ∧
      Completed nleaseTime o next := by
  obtain ⟨yiaddr, shape⟩ := complete_eq nleaseTime ciaddr m o
  have four : m.ip_src.toList.length = 4 := Vector.length_toList
  have four_time : nleaseTime.toList.length = 4 := Vector.length_toList
  have apart₁ : dnsOption ≠ dhcpServerIdentifier := by decide
  have apart₂ : broadcastAddr ≠ subnetMask := by decide
  obtain ⟨named, first, sound₁, server, dns, same₁⟩ :=
    exists_assumeFrom sound four apart₁ length_id
      (fun absent short => whole (.inl ⟨absent, short⟩))
  have keeps : named.val broadcastAddr = none → ¬ named.Short subnetMask := by
    intro absent short
    have broadcast := same₁ broadcastAddr (by decide) (by decide)
    have mask := same₁ subnetMask (by decide) (by decide)
    exact whole (.inr ⟨broadcast.1.symm.trans absent, mask.short.mp short⟩)
  obtain ⟨masked, second, sound₂, mask, broadcast, same₂⟩ :=
    exists_assumeFrom sound₁ (length_classMask yiaddr) apart₂
      (fun _ length => length_broadcastOf yiaddr length) keeps
  obtain ⟨next, third, sound₃, same₃, lease, t1, t2⟩ :=
    exists_assumeTimes sound₂ four_time
  have before : ∀ code, code ≠ dhcpServerIdentifier → code ≠ dnsOption →
      code ≠ subnetMask → code ≠ broadcastAddr → o.Same masked code :=
    fun code apart₁ apart₂ apart₃ apart₄ =>
      (same₁ code apart₁ apart₂).trans (same₂ code apart₃ apart₄)
  have timed : ∀ code ∈ [dhcpIPaddrLeaseTime, dhcpT1value, dhcpT2value],
      masked.content code = o.content code := by
    intro code member
    apply Same.content
    apply before <;> rintro rfl <;> revert member <;> decide
  refine ⟨next, ?_, {
    sound := sound₃
    made := ?_
    others := ?_
    lease := ?_
    t1 := ?_
    t2 := ?_ }⟩
  · rw [shape, first, Option.bind_some, second, Option.bind_some, third]
  · rw [(same₁ _ (by decide) (by decide)).content] at mask broadcast
    simp only [madeOptions, List.forall_mem_cons, List.not_mem_nil,
      false_imp_iff, forall_true_iff, and_true]
    refine ⟨?_, ?_, ?_, ?_⟩
    · exact (same₃ _ (by decide) (by decide) (by decide)).made
        ((same₂ _ (by decide) (by decide)).made server)
    · exact (same₃ _ (by decide) (by decide) (by decide)).made
        ((same₂ _ (by decide) (by decide)).made dns)
    · exact (same₃ _ (by decide) (by decide) (by decide)).made mask
    · exact (same₃ _ (by decide) (by decide) (by decide)).made broadcast
  · intro code other
    simp only [madeOptions, timeOptions, List.cons_append,
      List.nil_append, List.mem_cons, List.not_mem_nil, or_false,
      not_or] at other
    obtain ⟨apart₁, apart₂, apart₃, apart₄, apart₅, apart₆, apart₇⟩ := other
    exact (before code apart₁ apart₂ apart₃ apart₄).trans
      (same₃ code apart₅ apart₆ apart₇)
  · rw [lease, timed _ (by decide)]
  · rw [t1, timed _ (by decide), timed _ (by decide)]
  · rw [t2, timed _ (by decide), timed _ (by decide)]

/-- The table when the options of a message have been read. -/
def read (m : DhcpMessage) (o : DhcpOptions) : Option DhcpOptions :=
  (o.clear dhcpT1value).bind fun o => (o.clear dhcpT2value).bind fun o =>
    o.parseOptions m.options dhcpOptionsLen 4

/-- What reading the options of a message leaves. -/
structure ReadInto (m : DhcpMessage) (o next : DhcpOptions) : Prop where
  sound : next.Sound
  content : ∀ {code}, code ≠ dhcpT1value → code ≠ dhcpT2value →
    next.content code = (lastData code m.items).or (o.content code)
  ended : ∀ {code}, code ≠ dhcpT1value → code ≠ dhcpT2value →
    o.Ended code → next.Ended code
  timer : ∀ code ∈ [dhcpT1value, dhcpT2value],
    next.content code = (lastData code m.items).or
      ((o.content code).map fun data => List.replicate data.length 0)

theorem exists_read {m : DhcpMessage} (roomy : m.Roomy) (sound : o.Sound) :
    ∃ next, o.read m = some next ∧ ReadInto m o next := by
  obtain ⟨renewed, first, changes₁, zero₁⟩ := exists_clear sound dhcpT1value
  obtain ⟨cleared, second, changes₂, zero₂⟩ :=
    exists_clear changes₁.sound dhcpT2value
  obtain ⟨next, done, after, contents, ended⟩ :=
    exists_keepAll changes₂.sound m.items roomy.small
  have same : ∀ {code}, code ≠ dhcpT1value → code ≠ dhcpT2value →
      o.Same cleared code := fun apart₁ apart₂ =>
    (changes₁.elsewhere _ apart₁).trans (changes₂.elsewhere _ apart₂)
  refine ⟨next, ?_, {
    sound := after
    content := ?_
    ended := ?_
    timer := ?_ }⟩
  · rw [read, first, Option.bind_some, second, Option.bind_some,
      parseOptions_eq, roomy.scan_eq, Option.bind_some, done]
  · intro code apart₁ apart₂
    rw [contents, (same apart₁ apart₂).content]
  · intro code apart₁ apart₂ before
    exact ended code ((same apart₁ apart₂).ended before)
  · simp only [List.forall_mem_cons, List.not_mem_nil, false_imp_iff,
      forall_true_iff, and_true]
    rw [contents, contents, zero₂, (changes₂.elsewhere _ (by decide)).content,
      zero₁, (changes₁.elsewhere _ (by decide)).content]
    exact ⟨rfl, rfl⟩

theorem timeOf_cleared (time : List UInt8) (given old : Option (List UInt8)) :
    timeOf time (given.or
      (old.map fun data => List.replicate data.length 0)) =
        timeOf time given := by
  cases given with
  | some data => rfl
  | none =>
      cases old with
      | none => rfl
      | some data => exact timeOf_of_zeros time data.length

end Steps

end DhcpOptions

end NodeIdentity
