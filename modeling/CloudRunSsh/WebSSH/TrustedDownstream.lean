import Mathlib.Data.Bool.AllAny
import Mathlib.Data.List.TakeWhile
import CloudRunSsh.Data.IPAddress

/-!
# Trusted downstream

`--tdstream` lists the addresses of the proxies that may connect.  The entries are checked as
addresses, but kept and compared as texts.
-/

namespace CloudRunSsh.WebSSH

/-- `to_ip_address`, without a result on a `ValueError`. -/
def toIPAddress (ipstr : PyString) : Option IPAddress :=
  if PyString.startsWith ipstr (PyString.ofText "fe80::") then
    IPAddress.ipAddress (ipstr.takeWhile (· ≠ IPAddress.percent))
  else IPAddress.ipAddress ipstr

/-- `is_valid_ip_address`. -/
def isValidIPAddress (ipstr : PyString) : Bool := (toIPAddress ipstr).isSome

/-- `get_trusted_downstream`, without a result on a `ValueError`. -/
def getTrustedDownstream (tdstream : PyString) : Option (List PyString) :=
  (tdstream.splitOn ','.toNat).foldlM (fun result ip =>
    if PyString.strip ip = [] then some result
    else (toIPAddress (PyString.strip ip)).map fun _ => result.insert (PyString.strip ip)) []

/-- The context of a connection. -/
structure Context where
  address : PyString
  trustedDownstream : List PyString
  origProtocol : PyString

/-- What `is_forbidden` finds out: `True` for an untrusted peer, `False` for a request that is
redirected, `True` for one from outside in plain HTTP, and `None`. -/
inductive Verdict where
  | untrusted
  | redirecting
  | publicPlain
  | allowed
  deriving DecidableEq, Repr

/-- What `is_forbidden` returns. -/
def Verdict.value : Verdict → Option Bool
  | untrusted | publicPlain => some true
  | redirecting => some false
  | allowed => none

inductive ForbiddenError where
  | valueError
  | stopIteration
  deriving DecidableEq, Repr

/-- `str.isdigit`, of a symbol of a header, which is decoded as Latin-1. -/
def isDigitLatin1 (symbol : Nat) : Bool :=
  PyString.isDigit symbol || symbol ∈ [0xB2, 0xB3, 0xB9]

/-- `is_ip_hostname`. -/
def isIPHostname : PyString → Except ForbiddenError Bool
  | [] => .error .stopIteration
  | first :: rest =>
      .ok (first = '['.toNat ∨ rest.all fun symbol => symbol = PyString.dot ∨ isDigitLatin1 symbol)

/-- `not to_ip_address(ip).is_private`. -/
def isPublic (ip : PyString) : Except ForbiddenError Bool :=
  match toIPAddress ip with
  | some address => .ok !address.isPrivate
  | none => .error .valueError

/-- The first of the checks of a request in plain HTTP. -/
def isRedirected (redirecting : Bool) (ip hostname : PyString) : Except ForbiddenError Bool :=
  if redirecting then
    (isIPHostname hostname).bind fun isIP => if isIP then .ok false else isPublic ip
  else .ok false

/-- `MixinHandler.is_forbidden`. -/
def isForbidden (redirecting fbidhttp : Bool) (context : Context) (hostname : PyString) :
    Except ForbiddenError Verdict :=
  let ip := context.address
  let lst := context.trustedDownstream
  if lst ≠ [] ∧ ¬lst.contains ip then .ok .untrusted
  else if context.origProtocol = PyString.ofText "http" then
    (isRedirected redirecting ip hostname).bind fun redirected =>
      if redirected then .ok .redirecting
      else if fbidhttp then
        (isPublic ip).map fun isPublic => if isPublic then .publicPlain else .allowed
      else .ok .allowed
  else .ok .allowed

/-- The loop adds texts of addresses only. -/
theorem isValidIPAddress_of_foldlM {parts result lst : List PyString}
    (valid : ∀ entry ∈ result, isValidIPAddress entry = true)
    (added : parts.foldlM (fun result ip =>
      if PyString.strip ip = [] then some result
      else (toIPAddress (PyString.strip ip)).map fun _ => result.insert (PyString.strip ip))
      result = some lst) :
    ∀ entry ∈ lst, isValidIPAddress entry = true := by
  induction parts generalizing result with
  | nil => rwa [← Option.some.inj added]
  | cons ip parts ih =>
      rw [List.foldlM_cons] at added
      obtain ⟨result', step, added⟩ := Option.bind_eq_some_iff.mp added
      refine ih ?_ added
      split_ifs at step
      · rwa [← Option.some.inj step]
      · obtain ⟨address, parsed, rfl⟩ := Option.map_eq_some_iff.mp step
        intro entry member
        rcases List.mem_insert_iff.mp member with rfl | earlier
        · rw [isValidIPAddress, parsed, Option.isSome_some]
        · exact valid entry earlier

/-- Every entry is the text of an address. -/
theorem isValidIPAddress_of_mem {tdstream : PyString} {lst : List PyString}
    (accepted : getTrustedDownstream tdstream = some lst) :
    ∀ entry ∈ lst, isValidIPAddress entry = true :=
  isValidIPAddress_of_foldlM (List.forall_mem_nil _) accepted

/-- No IPv4 address begins as a link-local one of IPv6. -/
theorem ipv4Address_linkLocal {text : PyString}
    (linkLocal : PyString.startsWith text (PyString.ofText "fe80::") = true) :
    IPAddress.ipv4Address text = none := by
  obtain ⟨rest, rfl⟩ := List.isPrefixOf_iff_prefix.mp linkLocal
  by_contra found
  obtain ⟨ip, found⟩ := Option.ne_none_iff_exists'.mp found
  have digit := IPAddress.ipv4Address_plain found 'f'.toNat List.mem_cons_self (by decide)
  exact absurd digit (by decide)

/-- An address of version 4 has no zone that is cut off. -/
theorem toIPAddress_eq_v4 {text : PyString} {ip : Nat} :
    toIPAddress text = some (.v4 ip) ↔ IPAddress.ipv4Address text = some ip := by
  rw [toIPAddress]
  split_ifs with linkLocal
  · have front : PyString.startsWith (text.takeWhile (· ≠ IPAddress.percent))
        (PyString.ofText "fe80::") = true := by
      obtain ⟨rest, rfl⟩ := List.isPrefixOf_iff_prefix.mp linkLocal
      rw [List.takeWhile_append_of_pos (List.all_iff_forall_prop.mp (by decide))]
      exact List.isPrefixOf_iff_prefix.mpr (List.prefix_append _ _)
    rw [IPAddress.ipAddress_eq_v4, ipv4Address_linkLocal linkLocal, ipv4Address_linkLocal front]
  · exact IPAddress.ipAddress_eq_v4

theorem isPublic_map_ne (ip : PyString) :
    (isPublic ip).map (fun isPublic => if isPublic then Verdict.publicPlain else .allowed) ≠
      .ok .untrusted := by
  rcases isPublic ip with error | isPublic
  · nofun
  · cases isPublic <;> nofun

theorem redirected_bind_ne (redirected : Except ForbiddenError Bool)
    {verdict : Except ForbiddenError Verdict} (other : verdict ≠ .ok .untrusted) :
    (redirected.bind fun redirected => if redirected then .ok .redirecting else verdict) ≠
      .ok .untrusted := by
  rcases redirected with error | redirected
  · nofun
  · cases redirected with
    | true => nofun
    | false => exact other

/-- A peer is untrusted if its text is not listed. -/
theorem isForbidden_eq_untrusted (redirecting fbidhttp : Bool) (context : Context)
    (hostname : PyString) :
    isForbidden redirecting fbidhttp context hostname = .ok .untrusted ↔
      context.trustedDownstream ≠ [] ∧ context.address ∉ context.trustedDownstream := by
  rw [isForbidden, ← List.contains_iff_mem]
  split_ifs with untrusted http fbidhttp
  · exact iff_of_true rfl untrusted
  · exact iff_of_false (redirected_bind_ne _ (isPublic_map_ne context.address)) untrusted
  · exact iff_of_false (redirected_bind_ne _ nofun) untrusted
  · exact iff_of_false nofun untrusted

/-- The peer has an IPv6 address that is listed, but only in other spellings. -/
structure Respelled (lst : List PyString) (peer : PyString) : Prop where
  version : ∃ ip scopeID, toIPAddress peer = some (.v6 ip scopeID)
  listed : ∃ entry ∈ lst, toIPAddress entry = toIPAddress peer
  unlisted : peer ∉ lst

/-- An address that is listed is respelled, unless it is listed as it is. -/
theorem respelled_iff {tdstream : PyString} {lst : List PyString}
    (accepted : getTrustedDownstream tdstream = some lst) (peer : PyString) :
    Respelled lst peer ↔ (∃ entry ∈ lst, toIPAddress entry = toIPAddress peer) ∧ peer ∉ lst := by
  refine ⟨fun respelled => ⟨respelled.listed, respelled.unlisted⟩, ?_⟩
  rintro ⟨⟨entry, listed, same⟩, unlisted⟩
  refine ⟨?_, ⟨entry, listed, same⟩, unlisted⟩
  have valid := isValidIPAddress_of_mem accepted entry listed
  obtain ⟨address, parsed⟩ := Option.isSome_iff_exists.mp valid
  rw [parsed] at same
  cases address with
  | v4 ip =>
      have spelled : entry = peer := IPAddress.ipv4Address_inj (toIPAddress_eq_v4.mp parsed)
        (toIPAddress_eq_v4.mp same.symm)
      exact absurd (spelled ▸ listed) unlisted
  | v6 ip scopeID => exact ⟨ip, scopeID, same.symm⟩

/-- A peer is untrusted exactly if the list is in use and has no entry of its address, but for
an IPv6 address that is listed in other spellings only. -/
theorem isForbidden_untrusted_iff (redirecting fbidhttp : Bool) {tdstream : PyString}
    {lst : List PyString} (accepted : getTrustedDownstream tdstream = some lst)
    (peer origProtocol hostname : PyString) :
    (isForbidden redirecting fbidhttp ⟨peer, lst, origProtocol⟩ hostname = .ok .untrusted ↔
      lst ≠ [] ∧ ∀ entry ∈ lst, toIPAddress entry ≠ toIPAddress peer) ↔ ¬Respelled lst peer := by
  rw [isForbidden_eq_untrusted, respelled_iff accepted, not_and_not_right]
  constructor
  · rintro same ⟨entry, listed, address⟩
    by_contra unlisted
    exact (same.mp ⟨List.ne_nil_of_mem listed, unlisted⟩).2 entry listed address
  · intro spelled
    refine and_congr_right fun _ => ⟨fun unlisted entry listed address => ?_, fun none listed => ?_⟩
    · exact unlisted (spelled ⟨entry, listed, address⟩)
    · exact none peer listed rfl

theorem isForbidden_untrusted_iff_loopback :
    getTrustedDownstream (PyString.ofText "127.0.0.1, ::1") =
        some [PyString.ofText "::1", PyString.ofText "127.0.0.1"] ∧
      ((isForbidden true true ⟨PyString.ofText "::1",
          [PyString.ofText "::1", PyString.ofText "127.0.0.1"], PyString.ofText "http"⟩
          (PyString.ofText "localhost") = .ok .untrusted ↔
        [PyString.ofText "::1", PyString.ofText "127.0.0.1"] ≠ [] ∧
          ∀ entry ∈ [PyString.ofText "::1", PyString.ofText "127.0.0.1"],
            toIPAddress entry ≠ toIPAddress (PyString.ofText "::1")) ↔
      ¬Respelled [PyString.ofText "::1", PyString.ofText "127.0.0.1"] (PyString.ofText "::1")) := by
  have accepted : getTrustedDownstream (PyString.ofText "127.0.0.1, ::1") =
      some [PyString.ofText "::1", PyString.ofText "127.0.0.1"] := by decide
  exact ⟨accepted, isForbidden_untrusted_iff true true accepted _ _ _⟩

/-- An address in capital letters is not that of the peer. -/
theorem isForbidden_untrusted_fails :
    ¬∀ (redirecting fbidhttp : Bool) (tdstream : PyString) (lst : List PyString),
      getTrustedDownstream tdstream = some lst →
      ∀ peer origProtocol hostname : PyString,
      (isForbidden redirecting fbidhttp ⟨peer, lst, origProtocol⟩ hostname = .ok .untrusted ↔
        lst ≠ [] ∧ ∀ entry ∈ lst, toIPAddress entry ≠ toIPAddress peer) := by
  intro always
  have untrusted := (always true true (PyString.ofText "2001:DB8::1")
    [PyString.ofText "2001:DB8::1"] (by decide) (PyString.ofText "2001:db8::1")
    (PyString.ofText "https") (PyString.ofText "localhost")).mp (by decide)
  exact untrusted.2 _ (List.mem_singleton_self _) (by decide)

end CloudRunSsh.WebSSH
