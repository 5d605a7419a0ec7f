import NodeIdentity.Dhcp
import NodeIdentity.Dhtc

/-!
# DHT client threads

The two threads of `dhtc.c` and the functions they call.  A core gateway puts
its locator under a key made from its NID, and asks for the locators of others
under theirs.  What the DHT answers is an input.  The thread which asks has one
array for the texts of NIDs and locators and one variable for the locator, and
neither is cleared between requests.
-/

namespace NodeIdentity

open NodeIdentity.Library

/-- The characters are plain `char`. -/
def hashNid (string : List UInt8) : UInt32 :=
  hashLoop (string.map signedChar)

def decimalText (number : Nat) : List UInt8 :=
  (Nat.toDigits 10 number).map fun character => UInt8.ofNat character.toNat

/-- The sign of a negative number. -/
def minus : UInt8 := 45

/-- `sprintf` with `%d`, which takes the word for a signed one. -/
def sprintfD (word : UInt32) : List UInt8 :=
  if word.toNat < 2 ^ 31 then decimalText word.toNat
  else minus :: decimalText (2 ^ 32 - word.toNat)

/-- The size of `bamboo_key`. -/
def bambooKeyLen : Nat := 20

/-- The decimal text of the hash in an array of zeros. -/
def bambooKey (string : List UInt8) : Buffer bambooKeyLen :=
  (Buffer.zero bambooKeyLen).receive (sprintfD (hashNid string) ++ [0])

structure BambooPutArgs where
  key : Buffer bambooKeyLen
  value : List UInt8
  ttlSec : Nat

structure BambooGetArgs where
  key : Buffer bambooKeyLen
  maxvals : Nat

/-- The value is stored without a terminator. -/
def opendhtput (key value : List UInt8) (ttl : Nat) : BambooPutArgs :=
  { key := bambooKey key
    value := value
    ttlSec := ttl }

/-- What `thread_dht_update` puts, again and again. -/
def threadDhtUpdate (config : Configuration) : BambooPutArgs :=
  opendhtput (inetNtop6 config.nid) (inetNtop4 config.locator) dhtTtl

def opendhtget (get_args : BambooGetArgs) (maxvals : Nat) : BambooGetArgs :=
  { get_args with maxvals := maxvals }

/-- What `thread_dht_get` asks for, with its arguments cleared before. -/
def dhtGetArgs (nid : NID) : BambooGetArgs :=
  opendhtget ⟨bambooKey (inetNtop6 nid), 0⟩ 10

/-- `INET6_ADDRSTRLEN`. -/
def inet6AddrStrLen : Nat := 46

/-- The variables of `thread_dht_get` which keep their contents. -/
structure DhtGet where
  aux : Buffer inet6AddrStrLen
  nid32 : NID32

/-- `inet_ntop` writes the text with its terminator. -/
def DhtGet.inetNtop (nid : NID) (s : DhtGet) : DhtGet :=
  { s with aux := s.aux.receive (inetNtop6 nid ++ [0]) }

/-- `strncpy` with the length of the value: a value with a NUL in it is padded
with NULs, one without gets none.  A longer value than the array is written
over its end. -/
def DhtGet.strncpy (value : List UInt8) (s : DhtGet) : Option DhtGet :=
  let text := cstringOf value
  (s.aux.write 0
    (text ++ List.replicate (value.length - text.length) 0)).map fun aux =>
      { s with aux := aux }

/-- `inet_pton` reads the array as a C string; a text which is no address
leaves the variable as it is. -/
def DhtGet.inetPton (s : DhtGet) : DhtGet :=
  { s with nid32 := (inetPtonNID32 (cstringOf s.aux.bytes)).getD s.nid32 }

/-- What a request leaves, what it asks for, and the arguments of its call of
`addDHTEntry`. -/
structure DhtGetTurn where
  state : DhtGet
  dht : DhtMapping
  asked : BambooGetArgs
  added : Option (NID × NID32)

/-- A request of `thread_dht_get`, with the values the DHT answers.  Only the
first of them is used. -/
def threadDhtGet (now : Timeval) (nid : NID) (values : List (List UInt8))
    (s : DhtGet) (dht : DhtMapping) : Option DhtGetTurn :=
  let s := s.inetNtop nid
  match values with
  | [] => some ⟨s, dht, dhtGetArgs nid, none⟩
  | value :: _ =>
      (s.strncpy value).map fun s =>
        let s := s.inetPton
        let dht :=
          { dht with dhtQueueTable := dhtUnqueue nid dht.dhtQueueTable }
        { state := s
          dht := addDHTEntry nid s.nid32 now dht
          asked := dhtGetArgs nid
          added := some (nid, s.nid32) }

theorem decimalText_inj {first second : Nat}
    (same : decimalText first = decimalText second) : first = second := by
  have restored : ∀ number, (decimalText number).map
      (fun character => Char.ofNat character.toNat) =
        Nat.toDigits 10 number := by
    intro number
    rw [decimalText, List.map_map]
    apply (List.map_congr_left ?_).trans (List.map_id _)
    intro character member
    obtain ⟨digit, small, rfl⟩ := mem_toDigits (by decide) member
    interval_cases digit <;> rfl
  have digits : Nat.toDigits 10 first = Nat.toDigits 10 second := by
    rw [← restored first, same, restored second]
  have value := congrArg (fun digits => Nat.ofDigitChars 10 digits 0) digits
  simpa using value

theorem decimalText_chars {number : Nat} {character : UInt8}
    (member : character ∈ decimalText number) :
    48 ≤ character ∧ character ≤ 57 := by
  obtain ⟨digitChar, inDigits, rfl⟩ := List.mem_map.mp member
  obtain ⟨digit, small, rfl⟩ := mem_toDigits (by decide) inDigits
  interval_cases digit <;> decide

theorem length_decimalText (number : Nat) (small : number < 10 ^ 10) :
    (decimalText number).length ≤ 10 := by
  rw [decimalText, List.length_map]
  exact (Nat.length_toDigits_le_iff (by decide) (by decide)).mpr small

theorem sprintfD_inj {first second : UInt32}
    (same : sprintfD first = sprintfD second) : first = second := by
  have unsigned : ∀ number rest, decimalText number ≠ minus :: rest := by
    intro number rest signed
    have member : minus ∈ decimalText number := by
      rw [signed]
      exact List.mem_cons_self
    exact absurd (decimalText_chars member).1 (by decide)
  have below := first.toNat_lt
  have below' := second.toNat_lt
  apply UInt32.toNat_inj.mp
  unfold sprintfD at same
  split at same
  · split at same
    · exact decimalText_inj same
    · exact (unsigned _ _ same).elim
  · split at same
    · exact (unsigned _ _ same.symm).elim
    · have magnitude := decimalText_inj (List.cons_inj_right minus |>.mp same)
      omega

theorem sprintfD_fits (word : UInt32) :
    (sprintfD word).length < bambooKeyLen ∧ 0 ∉ sprintfD word := by
  have below := word.toNat_lt
  have digits : ∀ number, 0 ∉ decimalText number := by
    intro number member
    exact absurd (decimalText_chars member).1 (by decide)
  unfold sprintfD
  split
  · have length := length_decimalText word.toNat (by omega)
    exact ⟨length.trans_lt (by decide), digits _⟩
  · have length := length_decimalText (2 ^ 32 - word.toNat) (by omega)
    refine ⟨(Nat.succ_le_succ length).trans_lt (by decide), ?_⟩
    intro member
    rcases List.mem_cons.mp member with sign | rest
    · exact absurd sign (by decide)
    · exact digits _ rest

/-- The text of the hash fits the key, so keys differ as hashes do. -/
theorem bambooKey_eq_iff {first second : List UInt8} :
    bambooKey first = bambooKey second ↔ hashNid first = hashNid second := by
  have text : ∀ string,
      (bambooKey string).cstring 0 = some (sprintfD (hashNid string)) := by
    intro string
    obtain ⟨room, proper⟩ := sprintfD_fits (hashNid string)
    have read : (bambooKey string).cstring 0 = if _ then _ else _ :=
      Buffer.cstring_receive_zero proper Nat.zero_lt_one
    rw [if_pos room] at read
    exact read
  constructor
  · intro same
    have texts := (text first).symm.trans
      ((congrArg (fun key => Buffer.cstring key 0) same).trans (text second))
    exact sprintfD_inj (Option.some.inj texts)
  · intro same
    rw [bambooKey, same, bambooKey]

end NodeIdentity
