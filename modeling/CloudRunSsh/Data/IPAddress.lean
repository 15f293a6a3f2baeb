import Mathlib.Data.List.Induction
import CloudRunSsh.Data.Lines
import CloudRunSsh.Data.Python

/-!
# Addresses of the Internet

`ipaddress.ip_address` of Python.  An IPv4 address is written in one way only.  An IPv6 address
may be written in many ways: in either case, with or without leading zeros, with some of its
zeros left out, or with an IPv4 address at the end.
-/

namespace CloudRunSsh

/-- `IPv4Address` and `IPv6Address`. -/
inductive IPAddress where
  | v4 (ip : Nat)
  | v6 (ip : Nat) (scopeID : Option PyString)
  deriving DecidableEq, Repr

namespace IPAddress

def colon : Nat := ':'.toNat

def slash : Nat := '/'.toNat

def percent : Nat := '%'.toNat

/-- `_parse_octet`. -/
def parseOctet (octet : PyString) : Option Nat :=
  if octet = [] then none
  else if ¬octet.all PyString.isDigit then none
  else if octet.length > 3 then none
  else if octet ≠ PyString.ofText "0" ∧ octet.head? = some '0'.toNat then none
  else if PyString.decimal octet > 255 then none
  else some (PyString.decimal octet)

/-- `int.from_bytes`. -/
def fromBytes (octets : List Nat) : Nat := octets.foldl (fun ip octet => 256 * ip + octet) 0

/-- `IPv4Address`. -/
def ipv4Address (text : PyString) : Option Nat :=
  if slash ∈ text then none
  else
    match text.splitOn PyString.dot with
    | [first, second, third, fourth] =>
        ([first, second, third, fourth].mapM parseOctet).map fromBytes
    | _ => none

/-- The value of a hexadecimal digit. -/
def hexDigit (symbol : Nat) : Option Nat :=
  if PyString.isDigit symbol then some (symbol - '0'.toNat)
  else if 'a'.toNat ≤ symbol ∧ symbol ≤ 'f'.toNat then some (symbol - 'a'.toNat + 10)
  else if 'A'.toNat ≤ symbol ∧ symbol ≤ 'F'.toNat then some (symbol - 'A'.toNat + 10)
  else none

/-- `_parse_hextet`. -/
def parseHextet (hextet : PyString) : Option Nat :=
  if hextet = [] ∨ hextet.length > 4 then none
  else (hextet.mapM hexDigit).map fun digits =>
    digits.foldl (fun number digit => 16 * number + digit) 0

/-- `'%x' % number`. -/
def hexText (number : Nat) : PyString := (Nat.toDigits 16 number).map Char.toNat

/-- The parts between the colons, with an IPv4 address at the end as two hextets. -/
def hextets (text : PyString) : Option (List PyString) :=
  let parts := text.splitOn colon
  if parts.length < 3 then none
  else if PyString.dot ∈ parts.getLastD [] then
    (ipv4Address (parts.getLastD [])).map fun ip =>
      parts.dropLast ++ [hexText (ip / 0x10000), hexText (ip % 0x10000)]
  else some parts

/-- How many parts there are before and after the `::`, if there is one. -/
def halves (parts : List PyString) : Option (Nat × Nat) :=
  let count := parts.length
  match (List.range' 1 (count - 2)).filter fun index => parts[index]? = some [] with
  | [] =>
      if count ≠ 8 ∨ parts.head? = some [] ∨ parts.getLast? = some [] then none
      else some (count, 0)
  | [skip] =>
      let high := if parts.head? = some [] then skip - 1 else skip
      let low := if parts.getLast? = some [] then count - skip - 2 else count - skip - 1
      if parts.head? = some [] ∧ high ≠ 0 ∨ parts.getLast? = some [] ∧ low ≠ 0 then none
      else if high + low > 7 then none
      else some (high, low)
  | _ => none

/-- `_ip_int_from_string`. -/
def ipv6Number (text : PyString) : Option Nat := do
  let parts ← hextets text
  if parts.length > 9 then none
  else
    let (high, low) ← halves parts
    let front ← (parts.take high).mapM parseHextet
    let back ← (parts.drop (parts.length - low)).mapM parseHextet
    let hextets := front ++ List.replicate (8 - (high + low)) 0 ++ back
    return hextets.foldl (fun ip hextet => 0x10000 * ip + hextet) 0

/-- `IPv6Address`: the number of the address, and the identifier of its zone. -/
def ipv6Address (text : PyString) : Option (Nat × Option PyString) :=
  if slash ∈ text then none
  else
    let address := text.takeWhile (· ≠ percent)
    match text.dropWhile (· ≠ percent) with
    | [] => (ipv6Number address).map fun ip => (ip, none)
    | _ :: scopeID =>
        if scopeID = [] ∨ percent ∈ scopeID then none
        else (ipv6Number address).map fun ip => (ip, some scopeID)

/-- `ip_address`, without a result on a `ValueError`. -/
def ipAddress (text : PyString) : Option IPAddress :=
  match ipv4Address text with
  | some ip => some (.v4 ip)
  | none => (ipv6Address text).map fun (ip, scopeID) => .v6 ip scopeID

/-- The address is in a network: the leading bits are the same. -/
def inNetwork (bits ip : Nat) (network : Nat × Nat) : Bool :=
  ip / 2 ^ (bits - network.2) = network.1 / 2 ^ (bits - network.2)

/-- The number of the address that begins with some hextets and is zero after them. -/
def fromHextets (hextets : List Nat) : Nat :=
  (hextets ++ List.replicate (8 - hextets.length) 0).foldl
    (fun ip hextet => 0x10000 * ip + hextet) 0

/-- `_private_networks` of IPv4. -/
def privateNetworks : List (Nat × Nat) :=
  [(fromBytes [0, 0, 0, 0], 8), (fromBytes [10, 0, 0, 0], 8), (fromBytes [127, 0, 0, 0], 8),
    (fromBytes [169, 254, 0, 0], 16), (fromBytes [172, 16, 0, 0], 12),
    (fromBytes [192, 0, 0, 0], 24), (fromBytes [192, 0, 0, 170], 31),
    (fromBytes [192, 0, 2, 0], 24), (fromBytes [192, 168, 0, 0], 16),
    (fromBytes [198, 18, 0, 0], 15), (fromBytes [198, 51, 100, 0], 24),
    (fromBytes [203, 0, 113, 0], 24), (fromBytes [240, 0, 0, 0], 4),
    (fromBytes [255, 255, 255, 255], 32)]

/-- `_private_networks_exceptions` of IPv4. -/
def privateNetworksExceptions : List (Nat × Nat) :=
  [(fromBytes [192, 0, 0, 9], 32), (fromBytes [192, 0, 0, 10], 32)]

/-- `_private_networks` of IPv6. -/
def privateNetworks6 : List (Nat × Nat) :=
  [(1, 128), (0, 128), (0xFFFF00000000, 96), (fromHextets [0x64, 0xFF9B, 1], 48),
    (fromHextets [0x100], 64), (fromHextets [0x2001], 23), (fromHextets [0x2001, 0xDB8], 32),
    (fromHextets [0x2002], 16), (fromHextets [0xFC00], 7), (fromHextets [0xFE80], 10)]

/-- `_private_networks_exceptions` of IPv6. -/
def privateNetworksExceptions6 : List (Nat × Nat) :=
  [(fromHextets [0x2001, 1, 0, 0, 0, 0, 0, 1], 128),
    (fromHextets [0x2001, 1, 0, 0, 0, 0, 0, 2], 128), (fromHextets [0x2001, 3], 32),
    (fromHextets [0x2001, 4, 0x112], 48), (fromHextets [0x2001, 0x20], 28),
    (fromHextets [0x2001, 0x30], 28)]

/-- `is_private` of IPv4. -/
def isPrivate4 (ip : Nat) : Bool :=
  privateNetworks.any (inNetwork 32 ip) && !privateNetworksExceptions.any (inNetwork 32 ip)

/-- `is_private`.  An IPv4 address in an IPv6 address decides. -/
def isPrivate : IPAddress → Bool
  | v4 ip => isPrivate4 ip
  | v6 ip _ =>
      if ip / 0x100000000 = 0xFFFF then isPrivate4 (ip % 0x100000000)
      else privateNetworks6.any (inNetwork 128 ip) &&
        !privateNetworksExceptions6.any (inNetwork 128 ip)

/-- What an octet looks like. -/
structure IsOctet (octet : PyString) : Prop extends PyString.IsDecimal octet where
  short : octet.length ≤ 3
  small : PyString.decimal octet ≤ 255

theorem isOctet_of_parseOctet {octet : PyString} {value : Nat}
    (parsed : parseOctet octet = some value) : IsOctet octet ∧ PyString.decimal octet = value := by
  rw [parseOctet] at parsed
  split_ifs at parsed with empty digits long zeros large
  refine ⟨⟨⟨List.all_eq_true.mp digits, empty, ?_⟩, Nat.not_lt.mp long,
    Nat.not_lt.mp large⟩, Option.some.inj parsed⟩
  intro zero
  have same : octet = PyString.ofText "0" := by
    by_contra other
    exact zeros ⟨other, zero⟩
  rw [same]
  rfl

theorem parseOctet_inj {octet other : PyString} {value : Nat}
    (parsed : parseOctet octet = some value) (parsed' : parseOctet other = some value) :
    octet = other := by
  obtain ⟨isOctet, same⟩ := isOctet_of_parseOctet parsed
  obtain ⟨isOctet', same'⟩ := isOctet_of_parseOctet parsed'
  exact isOctet.eq_of_decimal isOctet'.toIsDecimal (same.trans same'.symm)

theorem parseOctet_le {octet : PyString} {value : Nat} (parsed : parseOctet octet = some value) :
    value ≤ 255 := by
  obtain ⟨isOctet, rfl⟩ := isOctet_of_parseOctet parsed
  exact isOctet.small

theorem mapM_cons_eq_some {octet : PyString} {octets : List PyString} {values : List Nat} :
    (octet :: octets).mapM parseOctet = some values ↔
      ∃ value rest, values = value :: rest ∧ parseOctet octet = some value ∧
        octets.mapM parseOctet = some rest := by
  rw [List.mapM_cons]
  constructor
  · intro parsed
    obtain ⟨value, first, parsed⟩ := Option.bind_eq_some_iff.mp parsed
    obtain ⟨rest, later, parsed⟩ := Option.bind_eq_some_iff.mp parsed
    exact ⟨value, rest, (Option.some.inj parsed).symm, first, later⟩
  · rintro ⟨value, rest, rfl, first, later⟩
    rw [first, later]
    rfl

/-- Octets are written in one way. -/
theorem mapM_parseOctet_inj {octets others : List PyString} {values : List Nat}
    (parsed : octets.mapM parseOctet = some values)
    (parsed' : others.mapM parseOctet = some values) : octets = others := by
  induction octets generalizing others values with
  | nil =>
      obtain rfl : [] = values := Option.some.inj parsed
      cases others with
      | nil => rfl
      | cons other others =>
          obtain ⟨value, rest, same, _⟩ := mapM_cons_eq_some.mp parsed'
          cases same
  | cons octet octets ih =>
      obtain ⟨value, rest, rfl, first, later⟩ := mapM_cons_eq_some.mp parsed
      cases others with
      | nil => cases parsed'
      | cons other others =>
          obtain ⟨value', rest', same, first', later'⟩ := mapM_cons_eq_some.mp parsed'
          cases same
          rw [parseOctet_inj first first', ih later later']

theorem length_mapM_parseOctet {octets : List PyString} {values : List Nat}
    (parsed : octets.mapM parseOctet = some values) :
    values.length = octets.length ∧ ∀ value ∈ values, value ≤ 255 := by
  induction octets generalizing values with
  | nil =>
      obtain rfl : [] = values := Option.some.inj parsed
      exact ⟨rfl, List.forall_mem_nil _⟩
  | cons octet octets ih =>
      obtain ⟨value, rest, rfl, first, later⟩ := mapM_cons_eq_some.mp parsed
      obtain ⟨length, small⟩ := ih later
      exact ⟨congrArg (· + 1) length, List.forall_mem_cons.mpr ⟨parseOctet_le first, small⟩⟩

/-- Numbers of a byte are read off their sum. -/
theorem fromBytes_inj {values others : List Nat} (length : values.length = others.length)
    (small : ∀ value ∈ values, value ≤ 255) (small' : ∀ value ∈ others, value ≤ 255)
    (same : fromBytes values = fromBytes others) : values = others := by
  induction values using List.reverseRecOn generalizing others with
  | nil => exact (List.eq_nil_of_length_eq_zero length.symm).symm
  | append_singleton front last ih =>
      rcases List.eq_nil_or_concat others with rfl | ⟨front', last', rfl⟩
      · exact absurd length (by simp)
      · rw [List.concat_eq_append] at small' length same ⊢
        rw [List.forall_mem_append, List.forall_mem_singleton] at small small'
        rw [fromBytes, fromBytes, List.foldl_append, List.foldl_append] at same
        change 256 * fromBytes front + last = 256 * fromBytes front' + last' at same
        rw [List.length_append, List.length_append] at length
        obtain ⟨fronts, rfl⟩ : fromBytes front = fromBytes front' ∧ last = last' := by omega
        rw [ih (Nat.add_right_cancel length) small.1 small'.1 fronts]

/-- The four octets of an address. -/
theorem ipv4Address_eq_some {text : PyString} {ip : Nat} (found : ipv4Address text = some ip) :
    ∃ values, (text.splitOn PyString.dot).mapM parseOctet = some values ∧ values.length = 4 ∧
      (∀ value ∈ values, value ≤ 255) ∧ fromBytes values = ip := by
  rw [ipv4Address] at found
  split_ifs at found
  split at found
  · rename_i split
    obtain ⟨values, parsed, same⟩ := Option.map_eq_some_iff.mp found
    obtain ⟨length, small⟩ := length_mapM_parseOctet parsed
    rw [split]
    exact ⟨values, parsed, length, small, same⟩
  · cases found

/-- An IPv4 address is written in one way. -/
theorem ipv4Address_inj {text other : PyString} {ip : Nat} (found : ipv4Address text = some ip)
    (found' : ipv4Address other = some ip) : text = other := by
  obtain ⟨values, parsed, length, small, same⟩ := ipv4Address_eq_some found
  obtain ⟨values', parsed', length', small', same'⟩ := ipv4Address_eq_some found'
  obtain rfl := fromBytes_inj (length.trans length'.symm) small small' (same.trans same'.symm)
  calc text = [PyString.dot].intercalate (text.splitOn PyString.dot) :=
        (List.intercalate_splitOn _).symm
    _ = [PyString.dot].intercalate (other.splitOn PyString.dot) := by
        rw [mapM_parseOctet_inj parsed parsed']
    _ = other := List.intercalate_splitOn _

theorem isDigit_of_mapM_parseOctet {octets : List PyString} {values : List Nat}
    (parsed : octets.mapM parseOctet = some values) :
    ∀ octet ∈ octets, ∀ symbol ∈ octet, PyString.isDigit symbol = true := by
  induction octets generalizing values with
  | nil => exact List.forall_mem_nil _
  | cons octet octets ih =>
      obtain ⟨value, rest, rfl, first, later⟩ := mapM_cons_eq_some.mp parsed
      exact List.forall_mem_cons.mpr ⟨(isOctet_of_parseOctet first).1.digits, ih later⟩

/-- An IPv4 address has only digits and dots. -/
theorem ipv4Address_plain {text : PyString} {ip : Nat} (found : ipv4Address text = some ip) :
    ∀ symbol ∈ text, symbol ≠ PyString.dot → PyString.isDigit symbol = true := by
  intro symbol member other
  obtain ⟨values, parsed, _⟩ := ipv4Address_eq_some found
  obtain ⟨octet, part, inside⟩ := LineFormat.exists_mem_splitOn member other
  exact isDigit_of_mapM_parseOctet parsed octet part symbol inside

/-- An address is of version 4 only if its text is one of that version. -/
theorem ipAddress_eq_v4 {text : PyString} {ip : Nat} :
    ipAddress text = some (.v4 ip) ↔ ipv4Address text = some ip := by
  rw [ipAddress]
  split
  · rename_i found
    simp [found]
  · rename_i missing
    refine iff_of_false ?_ (by rw [missing]; nofun)
    intro same
    obtain ⟨found, _, same⟩ := Option.map_eq_some_iff.mp same
    cases same

theorem colon_mem_of_ipv6Number {text : PyString} {ip : Nat} (found : ipv6Number text = some ip) :
    colon ∈ text := by
  by_contra missing
  have single : hextets text = none := by
    rw [hextets, List.splitOn_eq_singleton missing]
    rfl
  rw [ipv6Number, single] at found
  cases found

/-- A number of version 6 is an address of that version. -/
theorem ipAddress_of_ipv6Number {text : PyString} {ip : Nat} (found : ipv6Number text = some ip)
    (slashes : slash ∉ text) (percents : percent ∉ text) :
    ipAddress text = some (.v6 ip none) := by
  have other : ipv4Address text = none := by
    by_contra number
    obtain ⟨_, number⟩ := Option.ne_none_iff_exists'.mp number
    have digit := ipv4Address_plain number colon (colon_mem_of_ipv6Number found) (by decide)
    exact absurd digit (by decide)
  have whole : text.takeWhile (· ≠ percent) = text := List.takeWhile_eq_self_iff.mpr
    fun symbol member => decide_eq_true fun same => percents (same ▸ member)
  have zone : text.dropWhile (· ≠ percent) = [] := List.dropWhile_eq_nil_iff.mpr
    fun symbol member => decide_eq_true fun same => percents (same ▸ member)
  rw [ipAddress, other, ipv6Address, if_neg slashes, zone, whole]
  dsimp only
  rw [found]
  rfl

end IPAddress

end CloudRunSsh
