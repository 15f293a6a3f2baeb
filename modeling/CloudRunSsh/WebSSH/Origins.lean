import CloudRunSsh.Data.Templates
import CloudRunSsh.Data.URL
import CloudRunSsh.WebSSH.PrimaryDomain

/-!
# Origins

The option `origin` names a policy, or lists the origins that may connect.  The entries of the
list are URLs, and each is brought into the form in which a browser sends its origin.
-/

namespace CloudRunSsh.WebSSH

open URL (Authority IsPath)

/-- What is raised while origins are read or checked. -/
inductive OriginError where
  | valueError
  | attributeError
  | indexError
  deriving DecidableEq, Repr

def http : PyString := PyString.ofText "http"

def https : PyString := PyString.ofText "https"

/-- The scheme of an origin, which the port decides if there is none. -/
def originScheme (scheme : PyString) (port : Option Nat) : PyString :=
  if scheme = [] then if port = some 443 then https else http else scheme

/-- The network location of an origin, without the port that its scheme has anyway. -/
def originNetloc (scheme : PyString) (port : Option Nat) (netloc : PyString) : PyString :=
  if port = some 443 ∧ scheme = https then replaceAll (PyString.ofText ":443") [] netloc
  else if port = some 80 ∧ scheme = http then replaceAll (PyString.ofText ":80") [] netloc
  else netloc

/-- `parse_origin_from_url`. -/
def parseOriginFromURL (data : UnicodeData) (url : PyString) :
    Except OriginError (Option PyString) :=
  let url := PyString.strip url
  if url = [] then .ok none
  else
    let url :=
      if PyString.startsWith url (PyString.ofText "http://") ∨
          PyString.startsWith url (PyString.ofText "https://") ∨
          PyString.startsWith url (PyString.ofText "//") then url
      else PyString.ofText "//" ++ url
    match URL.urlparse data url with
    | none => .error .valueError
    | some parsed =>
        match parsed.port with
        | none => .error .valueError
        | some port =>
            let scheme := originScheme parsed.scheme port
            .ok (some (scheme ++ PyString.ofText "://" ++ originNetloc scheme port parsed.netloc))

/-- The options that decide the policy. -/
structure OriginOptions where
  debug : Bool
  origin : PyString

/-- `*`, `same`, `primary` or a list of origins. -/
inductive OriginPolicy where
  | any
  | same
  | primary
  | origins (origins : List PyString)
  deriving DecidableEq, Repr

/-- The loop of `get_origin_setting`. -/
def addOrigin (data : UnicodeData) (origins : List PyString) (url : PyString) :
    Except OriginError (List PyString) :=
  (parseOriginFromURL data url).map fun orig => orig.elim origins origins.insert

/-- `get_origin_setting`. -/
def getOriginSetting (data : UnicodeData) (options : OriginOptions) :
    Except OriginError OriginPolicy :=
  if options.debug ∨ options.origin = PyString.ofText "*" then .ok .any
  else
    let origin := data.lower options.origin
    if origin = PyString.ofText "same" then .ok .same
    else if origin = PyString.ofText "primary" then .ok .primary
    else
      match (origin.splitOn ','.toNat).foldlM (addOrigin data) [] with
      | .error error => .error error
      | .ok origins => if origins = [] then .error .valueError else .ok (.origins origins)

/-- `text.rsplit(':', 1)[0]`. -/
def withoutPort (text : PyString) : PyString :=
  if URL.colon ∈ text then (text.rdropWhile (· ≠ URL.colon)).dropLast else text

/-- `MixinHandler.check_origin`, with the header `Host` if there is one. -/
def checkOrigin (data : UnicodeData) (policy : OriginPolicy) (host : Option PyString)
    (origin : PyString) : Except OriginError Bool :=
  if policy = .any then .ok true
  else
    match URL.urlparse data origin with
    | none => .error .valueError
    | some parsed =>
        let netloc := data.lower parsed.netloc
        if some netloc = host then .ok true
        else
          match policy with
          | .any | .same => .ok false
          | .primary =>
              match host with
              | none => .error .attributeError
              | some host =>
                  match isSamePrimaryDomain (withoutPort netloc) (withoutPort host) with
                  | some verdict => .ok verdict
                  | none => .error .indexError
          | .origins origins => .ok (origin ∈ origins)

/-- How a URL starts: with a scheme, or without one. -/
inductive URLStart where
  | http
  | https
  | slashes
  | bare
  deriving DecidableEq, Repr

def URLStart.text : URLStart → PyString
  | http => PyString.ofText "http://"
  | https => PyString.ofText "https://"
  | slashes => PyString.ofText "//"
  | bare => []

/-- A URL with a host in lower case. -/
structure WebURL where
  start : URLStart
  authority : Authority
  path : PyString
  isPath : IsPath path

namespace WebURL

variable (url : WebURL)

def text : PyString := url.start.text ++ url.authority.text ++ url.path

/-- The number of the port. -/
def port : Option Nat := url.authority.port.map PyString.decimal

/-- The scheme, where without one the port 443 is that of `https`. -/
def scheme : PyString :=
  match url.start with
  | .http => WebSSH.http
  | .https => WebSSH.https
  | .slashes | .bare => if url.port = some 443 then WebSSH.https else WebSSH.http

/-- The port is the one of the scheme. -/
def IsDefault : Prop :=
  url.port = some 443 ∧ url.scheme = WebSSH.https ∨ url.port = some 80 ∧ url.scheme = WebSSH.http

instance : Decidable url.IsDefault := inferInstanceAs (Decidable (_ ∨ _))

/-- The URL of the origin: with its scheme, without the port of that scheme, and without a path. -/
def page : WebURL where
  start := if url.scheme = WebSSH.https then .https else .http
  authority := { url.authority with
    port := if url.IsDefault then none else url.authority.port
    isPort := by
      intro text member
      split_ifs at member
      · cases member
      · exact url.authority.isPort text member }
  path := []
  isPath := nofun

/-- `scheme://host[:port]`: what a browser sends. -/
def origin : PyString :=
  url.scheme ++ PyString.ofText "://" ++ url.authority.host ++
    if url.IsDefault then [] else url.authority.portText

/-- The text of the port that is left out is in the host, too. -/
def Garbled : Prop := url.IsDefault ∧ url.authority.portText <:+: url.authority.host

theorem scheme_cases : url.scheme = WebSSH.http ∨ url.scheme = WebSSH.https := by
  rw [scheme]
  split
  · exact .inl rfl
  · exact .inr rfl
  all_goals
    split_ifs
    · exact .inr rfl
    · exact .inl rfl

theorem page_scheme : url.page.scheme = url.scheme := by
  rw [scheme, page]
  rcases url.scheme_cases with same | same
  · rw [if_neg (by rw [same]; decide), same]
  · rw [if_pos same, same]

theorem page_start_text : url.page.start.text = url.scheme ++ PyString.ofText "://" := by
  rw [page]
  rcases url.scheme_cases with same | same
  · rw [if_neg (by rw [same]; decide), same]
    rfl
  · rw [if_pos same, same]
    rfl

theorem page_portText :
    url.page.authority.portText = if url.IsDefault then [] else url.authority.portText := by
  rw [Authority.portText, page]
  dsimp only
  split_ifs <;> rfl

theorem page_text : url.page.text = url.origin := by
  rw [text, page_start_text, Authority.text, page_portText, origin]
  exact (List.append_nil _).trans (List.append_assoc _ _ _).symm

theorem page_port : url.page.port = if url.IsDefault then none else url.port := by
  rw [port, page]
  dsimp only
  split_ifs <;> rfl

theorem page_not_isDefault : ¬url.page.IsDefault := by
  rw [IsDefault, page_scheme, page_port]
  split_ifs with default
  · rintro (⟨none, _⟩ | ⟨none, _⟩) <;> cases none
  · exact default

theorem page_origin : url.page.origin = url.origin := by
  rw [origin, if_neg url.page_not_isDefault, page_scheme, page_portText]
  rfl

/-- Only blanks at the end of the path are stripped. -/
theorem exists_strip : ∃ rest, IsPath rest ∧
    PyString.strip url.text = url.start.text ++ url.authority.text ++ rest := by
  have unblank : ∀ symbol ∈ url.start.text ++ url.authority.text,
      PyString.isSpace symbol = false := by
    refine List.forall_mem_append.mpr ⟨?_, fun symbol member =>
      (URL.plain_of_mem (url.authority.plain symbol member)).unblank⟩
    cases url.start <;> exact List.all_iff_forall_prop.mp (by decide)
  obtain ⟨rest, front, stripped⟩ := exists_trimBy_append unblank
    (List.append_ne_nil_of_right_ne_nil _ url.authority.nonempty) url.path
  refine ⟨rest, fun symbol first => ?_, stripped⟩
  cases rest with
  | nil => cases first
  | cons other rest =>
      obtain ⟨back, split⟩ := front
      exact url.isPath symbol (by rw [← split]; exact first)

/-- Without a scheme and slashes, a URL does not begin with them. -/
theorem not_startsWith {rest : PyString} (isPath : IsPath rest) :
    PyString.startsWith (url.authority.text ++ rest) (PyString.ofText "http://") = false ∧
    PyString.startsWith (url.authority.text ++ rest) (PyString.ofText "https://") = false ∧
    PyString.startsWith (url.authority.text ++ rest) (PyString.ofText "//") = false := by
  have authority := URL.takeWhile_isDelimiter url.authority isPath
  have differs : ∀ {front back : PyString}, (∀ symbol ∈ front, URL.isDelimiter symbol = false) →
      url.authority.text ≠ front →
      PyString.startsWith (url.authority.text ++ rest) (front ++ URL.slash :: back) = false := by
    intro front back plain other
    rw [Bool.eq_false_iff]
    intro starts
    obtain ⟨behind, split⟩ := List.isPrefixOf_iff_prefix.mp starts
    rw [← split, List.append_assoc, List.takeWhile_append_of_pos, List.cons_append,
      List.takeWhile_cons_of_neg (by decide), List.append_nil] at authority
    · exact other authority.symm
    · intro symbol member
      rw [plain symbol member]
      rfl
  have ending := url.authority.getLast?_ne
  refine ⟨@differs (PyString.ofText "http:") (PyString.ofText "/")
      (List.all_iff_forall_prop.mp (by decide)) ?_,
    @differs (PyString.ofText "https:") (PyString.ofText "/")
      (List.all_iff_forall_prop.mp (by decide)) ?_,
    @differs [] (PyString.ofText "/") (List.forall_mem_nil _) url.authority.nonempty⟩
  · exact fun same => ending (by rw [same]; decide)
  · exact fun same => ending (by rw [same]; decide)

/-- The text of the port, if it is left out. -/
theorem portText_of_port {number : Nat} {written : PyString}
    (decimal : PyString.IsDecimal written) (value : PyString.decimal written = number)
    (same : url.port = some number) : url.authority.portText = URL.colon :: written := by
  obtain ⟨port, found, rfl⟩ := Option.map_eq_some_iff.mp same
  have isPort := url.authority.isPort port found
  rw [Authority.portText, found, isPort.eq_of_decimal decimal value.symm]
  rfl

theorem isDecimal_443 : PyString.IsDecimal (PyString.ofText "443") :=
  ⟨List.all_iff_forall_prop.mp (by decide), by decide, by decide⟩

theorem isDecimal_80 : PyString.IsDecimal (PyString.ofText "80") :=
  ⟨List.all_iff_forall_prop.mp (by decide), by decide, by decide⟩

/-- The port is left out where it is that of the scheme. -/
theorem originNetloc_eq (clean : ¬url.Garbled) :
    originNetloc url.scheme url.port url.authority.text =
      url.authority.host ++ if url.IsDefault then [] else url.authority.portText := by
  have differ : WebSSH.http ≠ WebSSH.https := by decide
  rw [originNetloc]
  split_ifs with secure default plain default default
  · have written := url.portText_of_port isDecimal_443 (by decide) secure.1
    rw [Authority.text, written, List.append_nil]
    exact replaceAll_concat (by decide) fun inside => clean ⟨default, written ▸ inside⟩
  · exact absurd (.inl secure) default
  · have written := url.portText_of_port isDecimal_80 (by decide) plain.1
    rw [Authority.text, written, List.append_nil]
    exact replaceAll_concat (by decide) fun inside => clean ⟨default, written ▸ inside⟩
  · exact absurd (.inr plain) default
  · exact absurd default (not_or_intro secure plain)
  · rfl

/-- What `urlparse` finds as the scheme. -/
def startScheme : PyString :=
  match url.start with
  | .http => WebSSH.http
  | .https => WebSSH.https
  | .slashes | .bare => []

theorem originScheme_eq : originScheme url.startScheme url.port = url.scheme := by
  rw [startScheme, scheme]
  cases url.start with
  | http => exact if_neg (by decide)
  | https => exact if_neg (by decide)
  | slashes | bare => exact if_pos rfl

/-- The URL is parsed with its authority, once it has slashes. -/
theorem urlparse_eq (data : UnicodeData) {rest : PyString} (isPath : IsPath rest) :
    let stripped := url.start.text ++ url.authority.text ++ rest
    URL.urlparse data
        (if PyString.startsWith stripped (PyString.ofText "http://") ∨
            PyString.startsWith stripped (PyString.ofText "https://") ∨
            PyString.startsWith stripped (PyString.ofText "//") then stripped
          else PyString.ofText "//" ++ stripped) =
      some ⟨url.startScheme, url.authority.text⟩ := by
  have starts : ∀ front : PyString,
      PyString.startsWith (front ++ url.authority.text ++ rest) front = true := by
    intro front
    rw [List.append_assoc]
    exact List.isPrefixOf_iff_prefix.mpr (List.prefix_append _ _)
  have schemes : WebSSH.http ∈ URL.schemes ∧ WebSSH.https ∈ URL.schemes := by decide
  have texts : PyString.ofText "http://" = WebSSH.http ++ PyString.ofText "://" ∧
      PyString.ofText "https://" = WebSSH.https ++ PyString.ofText "://" := by decide
  rw [startScheme]
  cases url.start with
  | http =>
      dsimp only
      rw [URLStart.text, if_pos (.inl (starts _)), texts.1]
      exact URL.urlparse_of_scheme data url.authority isPath schemes.1
  | https =>
      dsimp only
      rw [URLStart.text, if_pos (.inr (.inl (starts _))), texts.2]
      exact URL.urlparse_of_scheme data url.authority isPath schemes.2
  | slashes =>
      dsimp only
      rw [URLStart.text, if_pos (.inr (.inr (starts _)))]
      exact URL.urlparse_of_slashes data url.authority isPath
  | bare =>
      obtain ⟨http, https, slashes⟩ := url.not_startsWith isPath
      dsimp only
      rw [URLStart.text, List.nil_append, http, https, slashes, if_neg (by decide),
        ← List.append_assoc]
      exact URL.urlparse_of_slashes data url.authority isPath

/-- A URL is brought into the form of its origin. -/
theorem parseOriginFromURL_text (data : UnicodeData) (clean : ¬url.Garbled) :
    parseOriginFromURL data url.text = .ok (some url.origin) := by
  obtain ⟨rest, isRest, stripped⟩ := url.exists_strip
  have parsed := url.urlparse_eq data isRest
  have filled : url.start.text ++ url.authority.text ++ rest ≠ [] :=
    List.append_ne_nil_of_left_ne_nil
      (List.append_ne_nil_of_right_ne_nil _ url.authority.nonempty) _
  rw [parseOriginFromURL, stripped]
  dsimp only at parsed ⊢
  rw [if_neg filled, parsed]
  dsimp only
  rw [Authority.port_eq]
  dsimp only
  rw [← port, originScheme_eq, originNetloc_eq url clean, origin, List.append_assoc _ _ (ite _ _ _)]

/-- The form of an origin is kept. -/
theorem parseOriginFromURL_origin (data : UnicodeData) :
    parseOriginFromURL data url.origin = .ok (some url.origin) := by
  have parsed := url.page.parseOriginFromURL_text data fun garbled =>
    url.page_not_isDefault garbled.1
  rwa [page_text, page_origin] at parsed

end WebURL

/-- The options list the URLs of some origins. -/
structure Lists (data : UnicodeData) (options : OriginOptions) (urls : List WebURL) : Prop where
  debug : options.debug = false
  origin : options.origin ≠ PyString.ofText "*"
  keyword : data.lower options.origin ∉ [PyString.ofText "same", PyString.ofText "primary"]
  nonempty : urls ≠ []
  written : data.lower options.origin = [','.toNat].intercalate (urls.map WebURL.text)
  whole : ∀ url ∈ urls, ','.toNat ∉ url.text
  clean : ∀ url ∈ urls, ¬url.Garbled

section Setting

variable {data : UnicodeData} {options : OriginOptions} {urls : List WebURL}

theorem foldlM_addOrigin (clean : ∀ url ∈ urls, ¬url.Garbled) (origins : List PyString) :
    ∃ after, (urls.map WebURL.text).foldlM (addOrigin data) origins = .ok after ∧
      ∀ origin, origin ∈ after ↔ origin ∈ origins ∨ ∃ url ∈ urls, url.origin = origin := by
  induction urls generalizing origins with
  | nil => exact ⟨origins, rfl, fun origin => by simp⟩
  | cons url urls ih =>
      obtain ⟨first, clean⟩ := List.forall_mem_cons.mp clean
      have added : addOrigin data origins url.text = .ok (origins.insert url.origin) := by
        rw [addOrigin, url.parseOriginFromURL_text data first]
        rfl
      obtain ⟨after, folded, members⟩ := ih clean (origins.insert url.origin)
      refine ⟨after, ?_, fun origin => ?_⟩
      · rw [List.map_cons, List.foldlM_cons, added]
        exact folded
      · rw [members, List.mem_insert_iff, List.exists_mem_cons_iff, or_comm (a := origin = _),
          or_assoc, eq_comm (a := origin)]

/-- The policy has the origins of the URLs. -/
theorem getOriginSetting_of_lists (lists : Lists data options urls) :
    ∃ origins, getOriginSetting data options = .ok (.origins origins) ∧
      ∀ origin, origin ∈ origins ↔ ∃ url ∈ urls, url.origin = origin := by
  obtain ⟨same, primary⟩ := not_or.mp (mt List.mem_pair.mpr lists.keyword)
  have split : (data.lower options.origin).splitOn ','.toNat = urls.map WebURL.text := by
    rw [lists.written, List.splitOn_intercalate]
    · exact List.forall_mem_map.mpr lists.whole
    · exact mt List.map_eq_nil_iff.mp lists.nonempty
  obtain ⟨origins, folded, members⟩ := @foldlM_addOrigin data urls lists.clean []
  have listed : ∀ origin, origin ∈ origins ↔ ∃ url ∈ urls, url.origin = origin := by
    intro origin
    rw [members, or_iff_right List.not_mem_nil]
  have filled : origins ≠ [] := by
    obtain ⟨url, rest, some⟩ := List.exists_cons_of_ne_nil lists.nonempty
    exact List.ne_nil_of_mem ((listed url.origin).mpr ⟨url, some ▸ List.mem_cons_self, rfl⟩)
  refine ⟨origins, ?_, listed⟩
  rw [getOriginSetting, if_neg (not_or_intro (by rw [lists.debug]; decide) lists.origin)]
  dsimp only
  rw [if_neg same, if_neg primary, split, folded]
  exact if_neg filled

/-- The origin of a page is accepted if it is listed, or if the page is of the host itself. -/
theorem checkOrigin_origins (data : UnicodeData) (origins : List PyString) (sent : WebURL)
    (host : Option PyString) :
    checkOrigin data (.origins origins) host sent.origin = .ok true ↔
      sent.origin ∈ origins ∨ host = some sent.page.authority.text := by
  have parsed : URL.urlparse data sent.origin =
      some ⟨sent.scheme, sent.page.authority.text⟩ := by
    have known : sent.scheme ∈ URL.schemes := List.mem_pair.mpr sent.scheme_cases
    have parsed := URL.urlparse_of_scheme data sent.page.authority sent.page.isPath known
    rw [← sent.page_start_text] at parsed
    rwa [← sent.page_text]
  have lower : data.lower sent.page.authority.text = sent.page.authority.text := by
    have plain := fun symbol member =>
      URL.plain_of_mem (sent.page.authority.plain symbol member)
    rw [data.lower_ascii _ fun symbol member => (plain symbol member).ascii]
    calc sent.page.authority.text.map PyString.lowerASCII
        = sent.page.authority.text.map id :=
          List.map_congr_left fun symbol member => (plain symbol member).lower
      _ = sent.page.authority.text := List.map_id _
  rw [checkOrigin, if_neg (by nofun), parsed]
  dsimp only
  rw [lower]
  split_ifs with same
  · exact iff_of_true rfl (.inr same.symm)
  · rw [Except.ok.injEq, decide_eq_true_iff, or_iff_left (Ne.symm same)]

end Setting

/-- A URL is brought into the form of its origin and kept in it, if the port that is left out is
not in the host as well.  With a list of such URLs, a page may connect if its origin is that of
one of them, or if the page is of the host itself. -/
theorem origins_of_urls (data : UnicodeData) :
    (∀ url : WebURL, ¬url.Garbled → parseOriginFromURL data url.text = .ok (some url.origin) ∧
      parseOriginFromURL data url.origin = .ok (some url.origin)) ∧
    ∀ options urls, Lists data options urls →
      ∃ origins, getOriginSetting data options = .ok (.origins origins) ∧
        ∀ (sent : WebURL) (host : Option PyString),
          checkOrigin data (.origins origins) host sent.origin = .ok true ↔
            (∃ url ∈ urls, url.origin = sent.origin) ∨ host = some sent.page.authority.text := by
  refine ⟨fun url clean => ⟨url.parseOriginFromURL_text data clean,
    url.parseOriginFromURL_origin data⟩, fun options urls lists => ?_⟩
  obtain ⟨origins, setting, listed⟩ := getOriginSetting_of_lists lists
  refine ⟨origins, setting, fun sent host => ?_⟩
  rw [checkOrigin_origins, listed]

/-- `www.example.com:443/`. -/
def exampleURL : WebURL where
  start := .bare
  authority := ⟨PyString.ofText "www.example.com", some (PyString.ofText "443"),
    .name (by decide) (List.all_iff_forall_prop.mp (by decide)), by
      rintro _ ⟨⟩
      exact ⟨WebURL.isDecimal_443, by decide, by decide⟩⟩
  path := PyString.ofText "/"
  isPath := by
    rintro _ ⟨⟩
    rfl

/-- `https://[fe80::443]:443`. -/
def garbledURL : WebURL where
  start := .https
  authority := ⟨URL.opening :: (PyString.ofText "fe80::443" ++ [URL.closing]),
    some (PyString.ofText "443"),
    .bracketed (List.all_iff_forall_prop.mp (by decide)) (by decide), by
      rintro _ ⟨⟩
      exact ⟨WebURL.isDecimal_443, by decide, by decide⟩⟩
  path := []
  isPath := nofun

theorem lists_exampleURL : Lists .ascii ⟨false, PyString.ofText "WWW.Example.com:443/"⟩
    [exampleURL] where
  debug := rfl
  origin := by decide
  keyword := by decide
  nonempty := by decide
  written := by decide
  whole := List.forall_mem_singleton.mpr (by decide)
  clean := List.forall_mem_singleton.mpr fun garbled => by
    have inside := garbled.2.mem (List.mem_cons_self : URL.colon ∈ _)
    exact absurd inside (by decide)

theorem origins_of_urls_example :
    (parseOriginFromURL .ascii exampleURL.text = .ok (some exampleURL.origin) ∧
      parseOriginFromURL .ascii exampleURL.origin = .ok (some exampleURL.origin)) ∧
    ∃ origins, getOriginSetting .ascii ⟨false, PyString.ofText "WWW.Example.com:443/"⟩ =
        .ok (.origins origins) ∧
      ∀ (sent : WebURL) (host : Option PyString),
        checkOrigin .ascii (.origins origins) host sent.origin = .ok true ↔
          (∃ url ∈ [exampleURL], url.origin = sent.origin) ∨
            host = some sent.page.authority.text :=
  ⟨(origins_of_urls .ascii).1 exampleURL (lists_exampleURL.clean _ (List.mem_singleton_self _)),
    (origins_of_urls .ascii).2 _ _ lists_exampleURL⟩

/-- A port is also taken out of the host, and the host itself need not be listed. -/
theorem origins_of_urls_fails :
    (¬∀ (data : UnicodeData) (url : WebURL),
      parseOriginFromURL data url.text = .ok (some url.origin)) ∧
    ¬∀ (data : UnicodeData) (options : OriginOptions) (urls : List WebURL),
      Lists data options urls → ∀ origins,
        getOriginSetting data options = .ok (.origins origins) →
        ∀ (sent : WebURL) (host : Option PyString),
          checkOrigin data (.origins origins) host sent.origin = .ok true ↔
            ∃ url ∈ urls, url.origin = sent.origin := by
  constructor
  · intro always
    exact absurd (always .ascii garbledURL) (by decide)
  · intro always
    have accepted := always .ascii _ _ lists_exampleURL [exampleURL.origin] (by decide) garbledURL
      (some (PyString.ofText "[fe80::443]"))
    obtain ⟨url, listed, same⟩ := accepted.mp (by decide)
    rw [List.mem_singleton.mp listed] at same
    exact absurd same (by decide)

end CloudRunSsh.WebSSH
