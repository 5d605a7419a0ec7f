import NodeIdentity.Properties.DhcpOptionMemory

/-!
# `dhcpConfig` on the options of the DHCP client

What `dhcpConfig` reads of the options, which lengths keep it in their memory,
and what it changes: names which were looked up, and the quotes in strings.
-/

namespace NodeIdentity

open NodeIdentity.Library

/-- The data are a number of blocks, at least with the byte behind them. -/
def WholeBlocks (size : Nat) (data : List UInt8) : Prop :=
  size ∣ data.length ∨ size ∣ data.length + 1

/-- Blocks of an option, which are read if it has some bytes. -/
def BlocksFrom (least size : Nat) (given : Option (List UInt8)) : Prop :=
  ∀ data ∈ given, least ≤ data.length → WholeBlocks size data

/-- Four bytes of an option, with the one behind them. -/
def HasWord (given : Option (List UInt8)) : Prop :=
  ∀ data ∈ given, 3 ≤ data.length

namespace DhcpConfigCalls

/-- The calls lead to the routes and the files of the servers. -/
def sets (calls : DhcpConfigCalls) : Bool :=
  !calls.testCase && (calls.address && calls.netmask)

def finishes (calls : DhcpConfigCalls) : Bool :=
  calls.testCase || (calls.address && calls.netmask)

def cleans (calls : DhcpConfigCalls) : Bool :=
  calls.finishes && calls.hostinfo

/-- The options have the lengths which the routes and the servers need. -/
@[mk_iff]
structure SetsUp (calls : DhcpConfigCalls)
    (given : UInt8 → Option (List UInt8)) : Prop where
  broadcast : HasWord (given broadcastAddr)
  routes : BlocksFrom 0 8 (given staticRoute)
  dns : calls.resolvConf = true → BlocksFrom 0 4 (given dnsOption)
  nis : calls.nisConf = true → BlocksFrom 0 4 (given nisServers)
  ntp : calls.ntpConf = true → BlocksFrom 4 4 (given ntpServers)

/-- The options have the lengths which `DHCP_HOSTINFO` needs, and the name of
the server ends. -/
@[mk_iff]
structure WritesHostinfo (given : UInt8 → Option (List UInt8))
    (sname : List UInt8) : Prop where
  mask : HasWord (given subnetMask)
  broadcast : HasWord (given broadcastAddr)
  routers : BlocksFrom 4 4 (given routersOnSubnet)
  routes : BlocksFrom 1 8 (given staticRoute)
  dns : BlocksFrom 0 4 (given dnsOption)
  ntp : BlocksFrom 4 4 (given ntpServers)
  nis : BlocksFrom 4 4 (given nisServers)
  server : HasWord (given dhcpServerIdentifier)
  name : 0 ∈ sname

/-- `dhcpConfig` stays in the memory of the options, and does not end the
process. -/
@[mk_iff]
structure Passes (calls : DhcpConfigCalls)
    (given : UInt8 → Option (List UInt8)) (lease sname : List UInt8) :
    Prop where
  mask : calls.testCase = false → calls.address = true →
    HasWord (given subnetMask)
  setsUp : calls.sets = true → calls.SetsUp given
  hostinfo : calls.cleans = true → WritesHostinfo given sname
  lease : calls.finishes = true → lease ≠ [255, 255, 255, 255]

end DhcpConfigCalls

theorem ignore_eq_some_iff {α β : Type} {read : Option α} {rest : Option β}
    {result : β} :
    (read.bind fun _ => rest) = some result ↔
      read.isSome ∧ rest = some result := by
  cases read <;> simp

theorem ignore_isSome_iff {α β : Type} {read : Option α} {rest : Option β} :
    (read.bind fun _ => rest).isSome ↔ read.isSome ∧ rest.isSome := by
  cases read <;> simp

theorem readIf_isSome_iff {α : Type} {wanted : Bool} {read : Option α} :
    (readIf wanted read).isSome ↔ (wanted = true → read.isSome) := by
  cases wanted <;> simp [readIf]

namespace DhcpOptions

/-- A table between two messages. -/
structure Ready (o : DhcpOptions) : Prop where
  sound : o.Sound
  ended : ∀ code ∉ madeOptions ++ timeOptions, o.Ended code
  made : ∀ code ∈ madeOptions, ∃ data, o.content code = some data ∧ data ≠ []
  times : ∀ code ∈ timeOptions, ∃ time, o.content code = some time ∧
    time.length = 4

/-- What lies behind the data of an option where blocks of them are read. -/
def Tailed (o : DhcpOptions) (code : UInt8) (size : Nat) : Prop :=
  ∀ bytes ∈ o.val code,
    NodeIdentity.Library.Tailed size (o.len code).toNat bytes

/-- What `dhcpConfig` leaves of a table; it may have cleaned the strings. -/
structure Rewritten (cleans : Bool) (o next : DhcpOptions) : Prop where
  sound : next.Sound
  ended : ∀ code, o.Ended code → next.Ended code
  same : ∀ code ∉ cleanedOptions, o.Same next code
  content : ∀ code ∈ [nisDomainName, rootPath], next.content code =
    if cleans then (o.content code).map withoutQuotes else o.content code

section Options

variable {o next : DhcpOptions} {code : UInt8} {data bytes : List UInt8}
  {calls : DhcpConfigCalls} {m : DhcpMessage}

theorem Ended.tailed (ended : o.Ended code) (sound : o.Sound)
    (host : code ≠ hostName) (domain : code ≠ domainName) (size : Nat) :
    o.Tailed code size := by
  intro bytes here
  have val := ended.val_eq sound host domain
  rw [here] at val
  obtain ⟨data, held, rfl⟩ := Option.map_eq_some_iff.mp val.symm
  obtain ⟨_, _, counted⟩ := exists_memory sound held
  left
  rw [counted, List.length_append, List.length_singleton]

theorem Sound.tailed (sound : o.Sound) (host : code ≠ hostName)
    (domain : code ≠ domainName) : o.Tailed code 4 := by
  intro bytes here
  rcases (sound.of_val here).2 host domain with more | ⟨four, same⟩
  · exact .inl more
  · exact .inr ⟨same.trans four.symm, four ▸ Nat.dvd_refl 4⟩

theorem addresses_isSome_iff {size : Nat} (sound : o.Sound)
    (tailed : o.Tailed code size) (positive : 0 < size) :
    (o.addresses code size).isSome ↔ BlocksFrom 0 size (o.content code) := by
  rw [addresses]
  cases held : o.content code with
  | none =>
      rw [if_pos (sound.of_none (content_eq_none_iff.mp held))]
      simp [BlocksFrom]
  | some data =>
      obtain ⟨tail, val, counted⟩ := exists_memory sound held
      have blocks := (tailed _ val).readBlocks_iff positive
      simp only [BlocksFrom, Option.mem_def, Option.some.injEq, forall_eq',
        Nat.zero_le, true_imp_iff, WholeBlocks, ← counted, ← blocks]
      split
      · next empty =>
          rw [blocks, empty]
          simp
      · rw [val, Option.bind_eq_bind, Option.bind_some]

theorem listed_isSome_iff {size : Nat} (sound : o.Sound)
    (tailed : o.Tailed code size) (positive : 0 < size)
    (held : o.content code = some data) (more : data ≠ []) :
    (o.listed code size).isSome ↔ WholeBlocks size data := by
  obtain ⟨tail, val, counted⟩ := exists_memory sound held
  have some_more : 0 < (o.len code).toNat :=
    counted ▸ List.length_pos_iff.mpr more
  rw [WholeBlocks, ← counted,
    ← (tailed _ val).listed_iff positive some_more, listed, val]
  have both : ∀ (first : Option (List UInt8))
      (others : Option (List (List UInt8))),
      (first.bind fun first => others.bind fun others =>
        some (first :: others)).isSome ↔ first.isSome ∧ others.isSome := by
    rintro (_ | first) (_ | others) <;> simp
  exact both _ _

theorem Sound.present (sound : o.Sound) (counts : o.len code ≠ 0) :
    o.val code ≠ none :=
  fun absent => counts (sound.of_none absent)

theorem readListed_isSome_iff {size least : Nat} {wanted : Bool}
    (sound : o.Sound) (tailed : o.Tailed code size) (positive : 0 < size)
    (some_least : 0 < least)
    (counts : wanted = true ↔ least ≤ (o.len code).toNat) :
    (readIf wanted (o.listed code size)).isSome ↔
      BlocksFrom least size (o.content code) := by
  rw [readIf_isSome_iff, counts]
  cases held : o.content code with
  | none =>
      have empty := sound.of_none (content_eq_none_iff.mp held)
      rw [empty]
      refine iff_of_true (fun absurd => ?_) (fun _ absent => (nomatch absent))
      exact (Nat.not_lt.mpr absurd some_least).elim
  | some data =>
      obtain ⟨_, _, counted⟩ := exists_memory sound held
      simp only [BlocksFrom, Option.mem_def, Option.some.injEq, forall_eq',
        counted]
      apply imp_congr_right
      intro enough
      apply listed_isSome_iff sound tailed positive held
      rintro rfl
      exact Nat.not_lt.mpr enough some_least

theorem readAddresses_isSome_iff {wanted : Bool} (sound : o.Sound)
    (tailed : o.Tailed code 4) :
    (readIf (wanted && decide (4 ≤ o.len code)) (o.addresses code 4)).isSome ↔
      (wanted = true → BlocksFrom 4 4 (o.content code)) := by
  rw [readIf_isSome_iff, addresses_isSome_iff sound tailed (by decide),
    Bool.and_eq_true, decide_eq_true_eq, and_imp]
  apply imp_congr_right
  intro _
  cases held : o.content code with
  | none => simp [BlocksFrom]
  | some data =>
      obtain ⟨_, _, counted⟩ := exists_memory sound held
      have enough : 4 ≤ o.len code ↔ 4 ≤ data.length := by
        rw [UInt8.le_iff_toNat_le, counted]
        rfl
      simp [BlocksFrom, enough]

theorem word_eq_none_iff_short (present : o.val code ≠ none) :
    o.word code = none ↔ o.Short code := by
  obtain ⟨bytes, here⟩ := Option.ne_none_iff_exists'.mp present
  rw [word_eq_none_iff, Short, here]
  constructor
  · exact fun all => ⟨bytes, rfl, all bytes rfl⟩
  · rintro ⟨_, ⟨⟩, few⟩ _ ⟨⟩
    exact few

theorem word_isSome_iff (sound : o.Sound) (present : o.val code ≠ none)
    (host : code ≠ hostName) (domain : code ≠ domainName) :
    (o.word code).isSome ↔ HasWord (o.content code) := by
  rw [← Option.ne_none_iff_isSome, ne_eq, word_eq_none_iff_short present,
    sound.short_iff host domain, HasWord]
  push Not
  rfl

theorem word_isSome_of_counts (sound : o.Sound)
    (counts : 4 ≤ (o.len code).toNat) : (o.word code).isSome := by
  rw [← Option.ne_none_iff_isSome, ne_eq, word_eq_none_iff]
  intro small
  have some_counts : o.len code ≠ 0 := by
    intro empty
    rw [empty] at counts
    exact absurd counts (by decide)
  obtain ⟨bytes, here⟩ :=
    Option.ne_none_iff_exists'.mp (sound.present some_counts)
  have short := small bytes here
  have room := (sound.of_val here).1
  omega

theorem Same.word (same : o.Same next code) : next.word code = o.word code := by
  rw [DhcpOptions.word, same.1, DhcpOptions.word]

theorem Ended.zero_mem (ended : o.Ended code) (here : o.val code = some bytes) :
    0 ∈ bytes :=
  List.mem_of_mem_drop (List.mem_of_getLast? (ended bytes here))

theorem text_isSome (ended : o.Ended code) (present : o.val code ≠ none) :
    (o.text code).isSome := by
  obtain ⟨bytes, here⟩ := Option.ne_none_iff_exists'.mp present
  rw [text, here, Option.bind_eq_bind, Option.bind_some,
    if_pos (ended.zero_mem here)]
  rfl

section Reads

variable (ready : o.Ready)
include ready

theorem Ready.present (made : code ∈ madeOptions) : o.val code ≠ none := by
  obtain ⟨data, held, _⟩ := ready.made code made
  rw [ne_eq, ← content_eq_none_iff, held]
  exact Option.some_ne_none _

theorem Ready.word_isSome_iff (made : code ∈ madeOptions) :
    (o.word code).isSome ↔ HasWord (o.content code) := by
  obtain ⟨_, _, host, domain⟩ := apart_of_made made
  exact DhcpOptions.word_isSome_iff ready.sound (ready.present made) host domain

theorem Ready.time_isSome (timed : code ∈ timeOptions) :
    (o.word code).isSome := by
  obtain ⟨time, held, four⟩ := ready.times code timed
  rw [word_of_content ready.sound held four]
  rfl

theorem Ready.tailed (host : code ≠ hostName) (domain : code ≠ domainName) :
    o.Tailed code 4 :=
  ready.sound.tailed host domain

theorem Ready.readRoutes_isSome_iff :
    (o.readRoutes calls).isSome ↔ HasWord (o.content broadcastAddr) ∧
      BlocksFrom 0 8 (o.content staticRoute) := by
  have routes : o.Tailed staticRoute 8 :=
    (ready.ended _ (by decide)).tailed ready.sound (by decide) (by decide) 8
  have router : (readIf (calls.defaultRoutes &&
      decide (3 < o.len routersOnSubnet)) (o.word routersOnSubnet)).isSome := by
    rw [readIf_isSome_iff, Bool.and_eq_true, decide_eq_true_eq]
    exact fun both => word_isSome_of_counts ready.sound both.2
  rw [readRoutes, ← ready.word_isSome_iff (by decide),
    ← addresses_isSome_iff ready.sound routes (by decide)]
  simp only [Option.bind_eq_bind, ignore_isSome_iff, router, and_true]

theorem Ready.readText_isSome {wanted : Bool} (wants : wanted = true →
    o.val code ≠ none) (own : code ∉ madeOptions ++ timeOptions) :
    (readIf wanted (o.text code)).isSome := by
  rw [readIf_isSome_iff]
  exact fun said => text_isSome (ready.ended code own) (wants said)

theorem Ready.readServers_isSome_iff :
    (o.readServers calls).isSome ↔
      (calls.resolvConf = true → BlocksFrom 0 4 (o.content dnsOption)) ∧
        (calls.nisConf = true → BlocksFrom 0 4 (o.content nisServers)) ∧
        (calls.ntpConf = true → HasWord (o.content subnetMask)) ∧
        (calls.ntpConf = true → BlocksFrom 4 4 (o.content ntpServers)) := by
  have blocks : ∀ {code}, code ≠ hostName → code ≠ domainName →
      ((o.addresses code 4).isSome ↔ BlocksFrom 0 4 (o.content code)) :=
    fun host domain =>
      addresses_isSome_iff ready.sound (ready.tailed host domain) (by decide)
  have search : (readIf (calls.resolvConf && decide (o.len domainName ≠ 0))
      (o.text domainName)).isSome := by
    apply ready.readText_isSome _ (by decide)
    rw [Bool.and_eq_true, decide_eq_true_eq]
    exact fun both => ready.sound.present both.2
  have nis : (readIf (calls.nisConf && decide (o.len nisDomainName ≠ 0))
      (o.text nisDomainName)).isSome := by
    apply ready.readText_isSome _ (by decide)
    rw [Bool.and_eq_true, decide_eq_true_eq]
    exact fun both => ready.sound.present both.2
  have domain : (readIf (calls.nisConf && decide (o.len nisDomainName = 0) &&
      (o.val domainName).isSome) (o.text domainName)).isSome := by
    apply ready.readText_isSome _ (by decide)
    rw [Bool.and_eq_true]
    exact fun both => Option.ne_none_iff_isSome.mpr both.2
  rw [readServers, ← blocks (by decide) (by decide),
    ← blocks (by decide) (by decide), ← ready.word_isSome_iff (by decide),
    ← readAddresses_isSome_iff ready.sound
      (ready.tailed (by decide) (by decide)),
    ← readIf_isSome_iff, ← readIf_isSome_iff, ← readIf_isSome_iff]
  simp only [Option.bind_eq_bind, ignore_isSome_iff, search, nis, domain,
    true_and]

end Reads

theorem ended_iff : o.Ended code ↔ ∀ bytes ∈ o.val code,
    (o.len code).toNat < bytes.length ∧ bytes.getLast? = some 0 := by
  simp only [Ended, List.getLast?_drop, ite_eq_iff, reduceCtorEq, and_false,
    false_or, Nat.not_le]

/-- A name which was looked up is the only change. -/
theorem changes_lookedUp (sound : o.Sound)
    (named : code = hostName ∨ code = domainName) (name : Option (List UInt8)) :
    o.Changes (o.lookedUp code name) code ∧
      (o.Ended code → (o.lookedUp code name).Ended code) := by
  cases name with
  | none => exact ⟨⟨sound, fun _ _ => ⟨rfl, rfl⟩⟩, id⟩
  | some name =>
      rw [lookedUp]
      split
      case isTrue =>
        have counted : (UInt8.ofNat name.length).toNat ≤ name.length := by
          rw [UInt8.toNat_ofNat']
          exact Nat.mod_le _ _
        constructor
        · apply changes_allocate sound
          refine ⟨?_, fun host domain => (named.elim host domain).elim⟩
          rw [List.length_append]
          exact Nat.le_trans counted (Nat.le_add_right _ _)
        · intro _
          rw [ended_iff]
          intro bytes here
          have val : (o.allocate code (UInt8.ofNat name.length)
              (name ++ [0])).val code = some (name ++ [0]) :=
            Function.update_self _ _ _
          have len : (o.allocate code (UInt8.ofNat name.length)
              (name ++ [0])).len code = UInt8.ofNat name.length :=
            Function.update_self _ _ _
          cases val.symm.trans here
          rw [len, List.getLast?_concat, List.length_append]
          exact ⟨Nat.lt_succ_of_le counted, rfl⟩
      case isFalse => exact ⟨⟨sound, fun _ _ => ⟨rfl, rfl⟩⟩, id⟩

theorem withoutQuotes_snoc_zero (data : List UInt8) :
    withoutQuotes (data ++ [0]) = withoutQuotes data ++ [0] := by
  induction data with
  | nil => rfl
  | cons byte data ih =>
      rw [withoutQuotes, withoutQuotes, cstringOf, cstringOf] at ih ⊢
      rw [List.cons_append, List.takeWhile_cons, List.takeWhile_cons,
        List.dropWhile_cons, List.dropWhile_cons]
      split
      · rw [List.map_cons, List.map_cons, List.cons_append, List.cons_append,
          List.cons_append, ih]
      · rfl

theorem getLast?_withoutQuotes (ends : bytes.getLast? = some 0) :
    (withoutQuotes bytes).getLast? = some 0 := by
  obtain ⟨front, rfl⟩ := List.getLast?_eq_some_iff.mp ends
  rw [withoutQuotes_snoc_zero, List.getLast?_concat]

theorem exists_cleaned (sound : o.Sound) (ended : o.Ended code) :
    ∃ next, o.cleaned code = some next ∧ o.Changes next code ∧
      (∀ other, o.Ended other → next.Ended other) ∧
      (code ≠ hostName → code ≠ domainName →
        next.content code = (o.content code).map withoutQuotes) := by
  rw [cleaned]
  split
  case isFalse empty =>
    have empty := not_not.mp empty
    refine ⟨o, rfl, ⟨sound, fun _ _ => ⟨rfl, rfl⟩⟩, fun _ => id,
      fun _ _ => ?_⟩
    rw [content, empty]
    cases o.val code <;> rfl
  case isTrue counts =>
    obtain ⟨bytes, here⟩ :=
      Option.ne_none_iff_exists'.mp (sound.present counts)
    obtain ⟨within, last⟩ := ended_iff.mp ended bytes here
    have updated : Function.update o.val code (some (withoutQuotes bytes))
        code = some (withoutQuotes bytes) := Function.update_self _ _ _
    have elsewhere : ∀ other, other ≠ code → o.Same
        ⟨o.len, Function.update o.val code (some (withoutQuotes bytes))⟩
        other := fun other apart => ⟨Function.update_of_ne apart _ _, rfl⟩
    refine ⟨⟨o.len, Function.update o.val code (some (withoutQuotes bytes))⟩,
      ?_, .of_val sound elsewhere updated ?_, ?_, ?_⟩
    · rw [here, Option.bind_eq_bind, Option.bind_some, cleanmetas,
        if_pos (ended.zero_mem here)]
      rfl
    · rw [length_withoutQuotes]
      exact sound.of_val here
    · intro other before
      rcases eq_or_ne other code with rfl | apart
      · rw [ended_iff]
        intro other written
        cases updated.symm.trans written
        rw [length_withoutQuotes]
        exact ⟨within, getLast?_withoutQuotes last⟩
      · exact (elsewhere other apart).ended before
    · intro host domain
      have val := ended.val_eq sound host domain
      rw [here] at val
      obtain ⟨data, held, rfl⟩ := Option.map_eq_some_iff.mp val.symm
      obtain ⟨_, _, counted⟩ := exists_memory sound held
      have taken := congrArg (Option.map (List.take (o.len code).toNat)) updated
      rw [held, Option.map_some]
      refine taken.trans ?_
      rw [Option.map_some, withoutQuotes_snoc_zero, counted,
        ← length_withoutQuotes data, List.take_left]

theorem notMem_cleanedOptions (own : code ∈ madeOptions ++ timeOptions) :
    code ∉ cleanedOptions := by
  simp only [madeOptions, timeOptions, List.cons_append, List.nil_append,
    List.mem_cons, List.not_mem_nil, or_false] at own
  rcases own with rfl | rfl | rfl | rfl | rfl | rfl | rfl <;> decide

theorem Rewritten.refl (sound : o.Sound) : Rewritten false o o where
  sound := sound
  ended := fun _ => id
  same := fun _ _ => ⟨rfl, rfl⟩
  content := fun _ _ => rfl

theorem Rewritten.trans {last : DhcpOptions} {cleans : Bool}
    (first : Rewritten false o next) (second : Rewritten cleans next last) :
    Rewritten cleans o last where
  sound := second.sound
  ended := fun code ended => second.ended code (first.ended code ended)
  same := fun code other =>
    (first.same code other).trans (second.same code other)
  content := by
    intro code member
    rw [second.content code member, first.content code member]
    rfl

theorem Rewritten.ready {cleans : Bool} (rewritten : Rewritten cleans o next)
    (ready : o.Ready) : next.Ready where
  sound := rewritten.sound
  ended := fun code other => rewritten.ended code (ready.ended code other)
  made := by
    intro code member
    have apart := notMem_cleanedOptions (List.mem_append_left _ member)
    rw [(rewritten.same code apart).content]
    exact ready.made code member
  times := by
    intro code member
    have apart := notMem_cleanedOptions (List.mem_append_right _ member)
    rw [(rewritten.same code apart).content]
    exact ready.times code member

theorem rewritten_lookedUp (sound : o.Sound)
    (named : code = hostName ∨ code = domainName)
    (name : Option (List UInt8)) :
    Rewritten false o (o.lookedUp code name) := by
  obtain ⟨changes, ended⟩ := changes_lookedUp sound named name
  have cleaned : code ∈ cleanedOptions := by
    rcases named with rfl | rfl <;> decide
  refine {
    sound := changes.sound
    ended := ?_
    same := ?_
    content := ?_ }
  · intro other before
    rcases eq_or_ne other code with rfl | apart
    · exact ended before
    · exact (changes.elsewhere other apart).ended before
  · rintro other own
    exact changes.elsewhere other fun same => own (same ▸ cleaned)
  · intro other member
    apply Same.content
    apply changes.elsewhere
    rintro rfl
    rcases named with rfl | rfl <;> revert member <;> decide

/-- The four strings of `DHCP_HOSTINFO`, one after another. -/
theorem Ready.exists_cleaned (ready : o.Ready) :
    ∃ first second third last, o.cleaned hostName = some first ∧
      first.cleaned domainName = some second ∧
      second.cleaned nisDomainName = some third ∧
      third.cleaned rootPath = some last ∧ Rewritten true o last := by
  have ended : ∀ code ∈ cleanedOptions, o.Ended code :=
    fun code member => ready.ended code
      fun own => notMem_cleanedOptions own member
  obtain ⟨first, done₁, changes₁, ended₁, _⟩ :=
    DhcpOptions.exists_cleaned ready.sound (ended hostName (by decide))
  obtain ⟨second, done₂, changes₂, ended₂, _⟩ :=
    DhcpOptions.exists_cleaned changes₁.sound
      (ended₁ domainName (ended domainName (by decide)))
  obtain ⟨third, done₃, changes₃, ended₃, nis⟩ :=
    DhcpOptions.exists_cleaned changes₂.sound
      (ended₂ _ (ended₁ nisDomainName (ended nisDomainName (by decide))))
  obtain ⟨last, done₄, changes₄, ended₄, path⟩ :=
    DhcpOptions.exists_cleaned changes₃.sound
      (ended₃ _ (ended₂ _ (ended₁ rootPath (ended rootPath (by decide)))))
  have before : ∀ code, code ≠ hostName → code ≠ domainName →
      o.Same second code := fun code host domain =>
    (changes₁.elsewhere code host).trans (changes₂.elsewhere code domain)
  refine ⟨first, second, third, last, done₁, done₂, done₃, done₄, {
    sound := changes₄.sound
    ended := fun code here =>
      ended₄ code (ended₃ code (ended₂ code (ended₁ code here)))
    same := ?_
    content := ?_ }⟩
  · intro code other
    simp only [cleanedOptions, List.mem_cons, List.not_mem_nil, or_false,
      not_or] at other
    obtain ⟨host, domain, apart₃, apart₄⟩ := other
    exact ((before code host domain).trans
      (changes₃.elsewhere code apart₃)).trans (changes₄.elsewhere code apart₄)
  · simp only [List.forall_mem_cons, List.not_mem_nil, false_imp_iff,
      forall_true_iff, and_true, if_true]
    constructor
    · rw [(changes₄.elsewhere _ (by decide)).content,
        nis (by decide) (by decide),
        (before _ (by decide) (by decide)).content]
    · rw [path (by decide) (by decide),
        (changes₃.elsewhere _ (by decide)).content,
        (before _ (by decide) (by decide)).content]

theorem Ready.writeHostinfo (ready : o.Ready) (m : DhcpMessage) :
    ((o.writeHostinfo m).isSome ↔
      DhcpConfigCalls.WritesHostinfo o.content m.sname) ∧
      ∀ next ∈ o.writeHostinfo m, Rewritten true o next := by
  obtain ⟨first, second, third, last, done₁, done₂, done₃, done₄, rewritten⟩ :=
    ready.exists_cleaned
  have after := rewritten.ready ready
  have shape : o.writeHostinfo m =
      (o.word subnetMask).bind fun _ => (o.word broadcastAddr).bind fun _ =>
        (readIf (decide (3 < o.len routersOnSubnet))
          (o.listed routersOnSubnet 4)).bind fun _ =>
        (readIf (decide (o.len staticRoute ≠ 0))
          (o.listed staticRoute 8)).bind fun _ =>
        (last.listed dnsOption 4).bind fun _ =>
        (readIf (decide (4 ≤ last.len ntpServers))
          (last.listed ntpServers 4)).bind fun _ =>
        (readIf (decide (4 ≤ last.len nisServers))
          (last.listed nisServers 4)).bind fun _ =>
        (last.word dhcpServerIdentifier).bind fun _ =>
        (cleanmetas m.sname).bind fun _ =>
        (last.word dhcpIPaddrLeaseTime).bind fun _ =>
        (last.word dhcpT1value).bind fun _ =>
        (last.word dhcpT2value).bind fun _ => some last := by
    simp only [DhcpOptions.writeHostinfo, Option.bind_eq_bind, done₁, done₂,
      done₃, done₄, Option.bind_some, Option.pure_def]
  rw [shape]
  constructor
  · have routes : o.Tailed staticRoute 8 :=
      (ready.ended _ (by decide)).tailed ready.sound (by decide) (by decide) 8
    have four : ∀ {o : DhcpOptions} {code : UInt8},
        decide (4 ≤ o.len code) = true ↔ 4 ≤ (o.len code).toNat := by
      intro o code
      rw [decide_eq_true_eq, UInt8.le_iff_toNat_le]
      rfl
    have more : decide (3 < o.len routersOnSubnet) = true ↔
        4 ≤ (o.len routersOnSubnet).toNat := by
      rw [decide_eq_true_eq, UInt8.lt_iff_toNat_lt]
      rfl
    have one : decide (o.len staticRoute ≠ 0) = true ↔
        1 ≤ (o.len staticRoute).toNat := by
      rw [decide_eq_true_eq, ne_eq, ← UInt8.toNat_inj]
      exact Nat.one_le_iff_ne_zero.symm
    have dns : (last.listed dnsOption 4).isSome ↔
        BlocksFrom 0 4 (o.content dnsOption) := by
      obtain ⟨data, held, some_data⟩ := after.made dnsOption (by decide)
      rw [listed_isSome_iff after.sound
        (after.tailed (by decide) (by decide)) (by decide) held some_data,
        ← (rewritten.same _ (by decide)).content, held]
      simp [BlocksFrom]
    have name : (cleanmetas m.sname).isSome ↔ 0 ∈ m.sname := by
      rw [cleanmetas]
      split
      case isTrue ends => exact iff_of_true rfl ends
      case isFalse endless => exact iff_of_false Bool.false_ne_true endless
    have lease : (last.word dhcpIPaddrLeaseTime).isSome :=
      after.time_isSome (by decide)
    have t1 : (last.word dhcpT1value).isSome := after.time_isSome (by decide)
    have t2 : (last.word dhcpT2value).isSome := after.time_isSome (by decide)
    rw [DhcpConfigCalls.writesHostinfo_iff, ← dns, ← name,
      ← ready.word_isSome_iff (by decide), ← ready.word_isSome_iff (by decide),
      ← ready.word_isSome_iff (by decide),
      ← readListed_isSome_iff ready.sound
        (ready.tailed (by decide) (by decide)) (by decide) (by decide) more,
      ← readListed_isSome_iff ready.sound routes (by decide) (by decide) one,
      ← (rewritten.same ntpServers (by decide)).content,
      ← (rewritten.same nisServers (by decide)).content,
      ← readListed_isSome_iff after.sound
        (after.tailed (by decide) (by decide)) (by decide) (by decide) four,
      ← readListed_isSome_iff after.sound
        (after.tailed (by decide) (by decide)) (by decide) (by decide) four,
      ← (rewritten.same dhcpServerIdentifier (by decide)).word]
    simp only [ignore_isSome_iff, lease, t1, t2, Option.isSome_some, and_true]
  · intro next written
    simp only [Option.mem_def, ignore_eq_some_iff, Option.some.injEq] at written
    obtain ⟨_, _, _, _, _, _, _, _, _, _, _, _, rfl⟩ := written
    exact rewritten

theorem Ready.writeFiles (ready : o.Ready) {lease : List UInt8}
    (leased : o.content dhcpIPaddrLeaseTime = some lease)
    (calls : DhcpConfigCalls) (m : DhcpMessage) :
    ((o.writeFiles calls m).isSome ↔ (calls.hostinfo = true →
      DhcpConfigCalls.WritesHostinfo o.content m.sname) ∧
        lease ≠ [255, 255, 255, 255]) ∧
      ∀ next ∈ o.writeFiles calls m, Rewritten calls.hostinfo o next := by
  have word : ∀ {cleans next}, Rewritten cleans o next →
      next.word dhcpIPaddrLeaseTime = some lease := by
    intro cleans next rewritten
    have held := (rewritten.same dhcpIPaddrLeaseTime (by decide)).content
    obtain ⟨time, here, four⟩ := ready.times dhcpIPaddrLeaseTime (by decide)
    cases here.symm.trans leased
    exact word_of_content rewritten.sound (held.trans leased) four
  have ends : ∀ {cleans next}, Rewritten cleans o next →
      ((next.word dhcpIPaddrLeaseTime).bind fun lease =>
        if lease = [255, 255, 255, 255] then none else some next) =
          if lease = [255, 255, 255, 255] then none else some next := by
    intro cleans next rewritten
    rw [word rewritten, Option.bind_some]
  have shape : o.writeFiles calls m =
      (if calls.hostinfo then o.writeHostinfo m else some o).bind fun o =>
        (o.word dhcpIPaddrLeaseTime).bind fun lease =>
          if lease = [255, 255, 255, 255] then none else some o := by
    rw [DhcpOptions.writeFiles]
    cases calls.hostinfo <;> rfl
  have outcome : ∀ {cleans : Bool} {next : DhcpOptions},
      Rewritten cleans o next → ∀ wanted : Prop, wanted →
      (((next.word dhcpIPaddrLeaseTime).bind fun lease =>
        if lease = [255, 255, 255, 255] then none else some next).isSome ↔
          wanted ∧ lease ≠ [255, 255, 255, 255]) ∧
      ∀ last ∈ (next.word dhcpIPaddrLeaseTime).bind fun lease =>
        if lease = [255, 255, 255, 255] then none else some next,
          Rewritten cleans o last := by
    intro cleans next rewritten wanted holds
    rw [ends rewritten, and_iff_right holds]
    split
    case isTrue infinite =>
      exact ⟨iff_of_false Bool.false_ne_true fun finite => finite infinite,
        fun _ absent => (nomatch absent)⟩
    case isFalse finite =>
      refine ⟨iff_of_true rfl finite, ?_⟩
      rintro last ⟨⟩
      exact rewritten
  rw [shape]
  cases calls.hostinfo with
  | false =>
      rw [if_neg Bool.false_ne_true, Option.bind_some]
      exact outcome (.refl ready.sound) _ fun absurd => (nomatch absurd)
  | true =>
      obtain ⟨some_iff, rewritten⟩ := ready.writeHostinfo m
      rw [if_pos rfl]
      cases written : o.writeHostinfo m with
      | none =>
          rw [written] at some_iff
          refine ⟨iff_of_false Bool.false_ne_true fun both => ?_,
            fun _ absent => (nomatch absent)⟩
          exact Bool.false_ne_true (some_iff.mpr (both.1 rfl))
      | some next =>
          rw [written] at some_iff
          exact outcome (rewritten next written) _ fun _ => some_iff.mp rfl

/-- Two ways to give the options which do not matter to the lengths. -/
structure Alike (first second : UInt8 → Option (List UInt8)) : Prop where
  words : ∀ code ∈ madeOptions, HasWord (first code) ↔ HasWord (second code)
  dns : BlocksFrom 0 4 (first dnsOption) ↔ BlocksFrom 0 4 (second dnsOption)
  own : ∀ code ∈ [routersOnSubnet, staticRoute, nisServers, ntpServers],
    first code = second code

section Alike

variable {first second : UInt8 → Option (List UInt8)}
  (alike : Alike first second)
include alike

theorem Alike.setsUp_iff : calls.SetsUp first ↔ calls.SetsUp second := by
  rw [DhcpConfigCalls.setsUp_iff, DhcpConfigCalls.setsUp_iff, alike.dns,
    alike.words broadcastAddr (by decide), alike.own staticRoute (by decide),
    alike.own nisServers (by decide), alike.own ntpServers (by decide)]

theorem Alike.writesHostinfo_iff {sname : List UInt8} :
    DhcpConfigCalls.WritesHostinfo first sname ↔
      DhcpConfigCalls.WritesHostinfo second sname := by
  rw [DhcpConfigCalls.writesHostinfo_iff, DhcpConfigCalls.writesHostinfo_iff,
    alike.dns, alike.words subnetMask (by decide),
    alike.words broadcastAddr (by decide),
    alike.words dhcpServerIdentifier (by decide),
    alike.own routersOnSubnet (by decide), alike.own staticRoute (by decide),
    alike.own nisServers (by decide), alike.own ntpServers (by decide)]

theorem Alike.passes_iff {lease sname : List UInt8} :
    calls.Passes first lease sname ↔ calls.Passes second lease sname := by
  rw [DhcpConfigCalls.passes_iff, DhcpConfigCalls.passes_iff,
    alike.words subnetMask (by decide), alike.setsUp_iff,
    alike.writesHostinfo_iff]

end Alike

theorem Rewritten.alike {cleans : Bool}
    (rewritten : Rewritten cleans o next) :
    Alike next.content o.content := by
  have same : ∀ {code}, code ∉ cleanedOptions →
      next.content code = o.content code :=
    fun other => (rewritten.same _ other).content
  refine {
    words := fun code member => by
      rw [same (notMem_cleanedOptions (List.mem_append_left _ member))]
    dns := by rw [same (by decide)]
    own := ?_ }
  simp only [List.forall_mem_cons, List.not_mem_nil, false_imp_iff,
    forall_true_iff, and_true]
  exact ⟨same (by decide), same (by decide), same (by decide), same (by decide)⟩

/-- `dhcpConfig` gets through exactly if the lengths of the options and the
lease are right for what it does, and changes nothing but strings. -/
theorem Ready.dhcpConfig (ready : o.Ready) {lease : List UInt8}
    (leased : o.content dhcpIPaddrLeaseTime = some lease)
    (calls : DhcpConfigCalls) (m : DhcpMessage) :
    ((o.dhcpConfig calls m).isSome ↔
      calls.Passes o.content lease m.sname) ∧
      ∀ next ∈ o.dhcpConfig calls m, Rewritten calls.cleans o next := by
  rw [DhcpOptions.dhcpConfig, DhcpConfigCalls.passes_iff]
  cases test : calls.testCase with
  | true =>
      have cleans : calls.cleans = calls.hostinfo := by
        simp [DhcpConfigCalls.cleans, DhcpConfigCalls.finishes, test]
      have sets : calls.sets = false := by simp [DhcpConfigCalls.sets, test]
      have finishes : calls.finishes = true := by
        simp [DhcpConfigCalls.finishes, test]
      obtain ⟨some_iff, rewritten⟩ := ready.writeFiles leased calls m
      rw [if_pos rfl, some_iff, cleans, sets, finishes]
      refine ⟨?_, rewritten⟩
      simp
  | false =>
      rw [if_neg Bool.false_ne_true]
      cases address : calls.address with
      | false =>
          have finishes : calls.finishes = false := by
            simp [DhcpConfigCalls.finishes, test, address]
          have cleans : calls.cleans = false := by
            simp [DhcpConfigCalls.cleans, finishes]
          have sets : calls.sets = false := by
            simp [DhcpConfigCalls.sets, address]
          rw [if_neg Bool.false_ne_true, cleans, sets, finishes]
          refine ⟨by simp, ?_⟩
          rintro next ⟨⟩
          exact .refl ready.sound
      | true =>
          rw [if_pos rfl, Option.bind_eq_bind]
          cases netmask : calls.netmask with
          | false =>
              have finishes : calls.finishes = false := by
                simp [DhcpConfigCalls.finishes, test, netmask]
              have cleans : calls.cleans = false := by
                simp [DhcpConfigCalls.cleans, finishes]
              have sets : calls.sets = false := by
                simp [DhcpConfigCalls.sets, netmask]
              rw [if_neg Bool.false_ne_true, cleans, sets, finishes,
                ignore_isSome_iff, ready.word_isSome_iff (by decide)]
              refine ⟨by simp, ?_⟩
              intro next done
              cases (ignore_eq_some_iff.mp done).2
              exact .refl ready.sound
          | true =>
              have finishes : calls.finishes = true := by
                simp [DhcpConfigCalls.finishes, address, netmask]
              have cleans : calls.cleans = calls.hostinfo := by
                simp [DhcpConfigCalls.cleans, finishes]
              have sets : calls.sets = true := by
                simp [DhcpConfigCalls.sets, test, address, netmask]
              have host := rewritten_lookedUp ready.sound
                (.inl rfl) calls.host
              have names := host.trans (rewritten_lookedUp host.sound
                (.inr rfl) (calls.domain.filter fun name => name ≠ []))
              have leased_still :=
                (names.same dhcpIPaddrLeaseTime
                  (by decide)).content.trans leased
              obtain ⟨some_iff, rewritten⟩ :=
                (names.ready ready).writeFiles leased_still calls m
              rw [if_pos rfl, cleans, sets, finishes]
              simp only [Option.bind_eq_bind]
              rw [ignore_isSome_iff, ignore_isSome_iff, ignore_isSome_iff,
                ready.word_isSome_iff (by decide), ready.readRoutes_isSome_iff,
                ready.readServers_isSome_iff, some_iff,
                names.alike.writesHostinfo_iff, DhcpConfigCalls.setsUp_iff]
              refine ⟨⟨?_, ?_⟩, ?_⟩
              · rintro ⟨mask, ⟨broadcast, routes⟩, ⟨dns, nis, _, ntp⟩, hostinfo,
                  finite⟩
                exact ⟨fun _ _ => mask,
                  fun _ => ⟨broadcast, routes, dns, nis, ntp⟩, hostinfo,
                  fun _ => finite⟩
              · rintro ⟨mask, setsUp, hostinfo, finite⟩
                obtain ⟨broadcast, routes, dns, nis, ntp⟩ := setsUp trivial
                have netmask := mask trivial trivial
                exact ⟨netmask, ⟨broadcast, routes⟩,
                  ⟨dns, nis, fun _ => netmask, ntp⟩, hostinfo, finite trivial⟩
              · intro next done
                have written := (ignore_eq_some_iff.mp (ignore_eq_some_iff.mp
                  (ignore_eq_some_iff.mp done).2).2).2
                exact names.trans (rewritten next written)

end Options

end DhcpOptions

end NodeIdentity
